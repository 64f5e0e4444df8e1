import ZxSpectrum.Decimal.Reader
import ZxSpectrum.Machine
import ZxSpectrum.Numeral

/-!
# Options

What the program is asked to do. Arguments are read one after the other, and the first one that asks for help or that is
not known decides. A later option takes the place of an earlier one.
-/

namespace ZxSpectrum

structure Options where
  /-- The file of the system ROM. -/
  rom : String := "roms/48.rom"
  /-- The snapshot to begin with. -/
  snapshot : Option (String × SnapshotFormat) := none
  frames : Nat := 200
  frameRate : Option FrameRate := none
  fastLoad : Bool := false
  accurateUla : Bool := true
  /-- Where to save a snapshot after the run. -/
  saveTo : Option String := none
  /-- Whether to print the processor state after the run. -/
  dumpState : Bool := false
deriving DecidableEq

/-- What the arguments ask for. -/
inductive Invocation where
  | run (options : Options)
  | help
  | unknown (argument : String)
deriving DecidableEq

namespace Options

/-- Reads a count of frames, a number of 32 bits. -/
def count? (text : String) : Option Nat := Numeral.read? 10 4294967296 text.toList

/-- Takes an option whose value is given. -/
def setValue? (options : Options) (name value : String) : Option Options :=
  match name with
  | "--rom" => some { options with rom := value }
  | "--sna" => some { options with snapshot := some (value, .sna) }
  | "--z80" => some { options with snapshot := some (value, .z80) }
  | "--frames" => some { options with frames := (count? value).getD 200 }
  | "--fps" => some { options with frameRate := FrameRate.ofText? value }
  | "--save-sna" => some { options with saveTo := some value }
  | _ => none

/-- Takes an option at the end of the arguments, where its value is missing. Files to load or save are forgotten, and so is
a frame rate; other options stay as they were. -/
def setMissing? (options : Options) : String → Option Options
  | "--rom" | "--frames" => some options
  | "--sna" | "--z80" => some { options with snapshot := none }
  | "--fps" => some { options with frameRate := none }
  | "--save-sna" => some { options with saveTo := none }
  | _ => none

/-- Takes an option without a value. -/
def setFlag? (options : Options) : String → Option Options
  | "--fast-load" => some { options with fastLoad := true }
  | "--no-ula-shadow" => some { options with accurateUla := false }
  | "--dump-state" => some { options with dumpState := true }
  | _ => none

/-- What an argument asks for that is no option to take. -/
def refuse (argument : String) : Invocation :=
  if argument = "--help" ∨ argument = "-h" then .help else .unknown argument

/-- Reads arguments. -/
def parse (options : Options) : List String → Invocation
  | [] => .run options
  | [name] =>
    match (options.setFlag? name).or (options.setMissing? name) with
    | some options => .run options
    | none => refuse name
  | name :: value :: rest =>
    match options.setFlag? name with
    | some options => parse options (value :: rest)
    | none =>
      match options.setValue? name value with
      | some options => parse options rest
      | none => refuse name
termination_by arguments => arguments.length

/-- The configuration of the machine. -/
def config (options : Options) (rom : List UInt8) : Config :=
  { rom := rom
    acceleratedLoad := options.fastLoad
    accurateUla := options.accurateUla
    frameRate := options.frameRate.getD .default }

/-- The text that explains the options. -/
def usage : String :=
  "\n".intercalate
    ["Usage: emu-spectrum [OPTIONS]",
      "",
      "Options:",
      "  --rom <file>         16K system ROM [default: roms/48.rom]",
      "  --sna <file>         Load a SNA snapshot",
      "  --z80 <file>         Load a .Z80 snapshot (v1/v2/v3, 48K only)",
      "  --frames <n>         Number of frames to run [default: 200]",
      "  --fps <f>            Frame rate reported to audio receivers",
      "  --fast-load          Accelerated tape loading (no tape noise)",
      "  --no-ula-shadow      Show final memory instead of sampled screen",
      "  --save-sna <file>    Save an SNA snapshot after the run",
      "  --dump-state         Print the CPU state as JSON after the run",
      ""]

end Options

end ZxSpectrum
