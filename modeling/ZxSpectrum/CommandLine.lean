import ZxSpectrum.CommandLine.Options
import ZxSpectrum.Emulator
import ZxSpectrum.FileStore
import ZxSpectrum.Log.Filter

/-!
# The command line

Runs a machine for a number of frames, from a reset or a snapshot, and saves or prints its state. `CommandLine.run` gives
what the program prints and its exit code, for any kind of file storage.
-/

namespace ZxSpectrum

/-- What a run of the program leaves, files aside. -/
structure RunResult where
  exitCode : Nat
  output : String := ""
  errorOutput : String := ""
deriving DecidableEq

namespace CommandLine

/-- Steps of a run: they change the emulator, use files and may fail. -/
abbrev Session (m : Type → Type) : Type → Type := ExceptT EmulatorError (StateT Emulator m)

variable {m : Type → Type} [Monad m] {α : Type}

/-- Uses the emulator. -/
def perform (f : Emulator → Except EmulatorError α × Emulator) : Session m α := fun emulator => pure (f emulator)

/-- Takes the result of something that may fail. -/
def check (result : Except EmulatorError α) : Session m α := fun emulator => pure (result, emulator)

/-- Uses files. -/
def onFiles (action : m (Except FileError α)) : Session m α := fun emulator => do
  return ((← action).mapError fun error => .file error.message, emulator)

/-- Logs what the program does. -/
def report (text : String) : Session m Unit :=
  perform fun emulator => (.ok (), { emulator with log := emulator.log ++ [⟨.info, .main, text⟩] })

/-- Begins with a snapshot file. -/
def loadFile (files : Files m) (path : String) (format : SnapshotFormat) : Session m Unit := do
  let data ← onFiles (files.read path)
  perform fun emulator => emulator.loadFile data format
  report ("loaded " ++ path)

/-- Runs frames, the first one with the given number, and reports when the ROM has started. -/
def runFrames (notice : Nat) : Nat → Nat → Session m Unit
  | _, 0 => pure ()
  | number, count + 1 => do
    let _ ← perform fun emulator => emulator.request (.renderFrame true)
    let status ← perform fun emulator =>
      let (status, emulator) := emulator.takeNotice notice
      (.ok status, emulator)
    if status = .told true then
      report s!"system ROM ready after {number} frames"
    runFrames notice (number + 1) count

/-- A whole run with a running task; gives what is printed. -/
def session (files : Files m) (options : Options) : Session m String := do
  let notice ← perform Emulator.reset
  if let some (path, format) := options.snapshot then
    loadFile files path format
  runFrames notice 0 options.frames
  let snapshot ← perform Emulator.snapshot
  if let some path := options.saveTo then
    let file ← check ((Sna.encode snapshot).mapError .snapshot)
    onFiles (files.write path file)
    report ("saved " ++ path)
  let _ ← perform fun emulator => emulator.request .pause
  perform Emulator.terminate
  return if options.dumpState then snapshot.cpu.text ++ "\n" else ""

/-- The lines that the log shows. -/
def logLines (filter : LogFilter) (log : List LogRecord) : String :=
  String.join ((log.filter filter.shows).map LogRecord.line)

/-- What the program leaves after a failure. -/
def failed (log : String) (error : EmulatorError) : RunResult :=
  { exitCode := 1, errorOutput := log ++ "Error: " ++ error.message ++ "\n" }

/-- Runs a machine with the given options. -/
def runMachine (files : Files m) (options : Options) (filter : LogFilter) : m RunResult := do
  match ← files.read options.rom with
  | .error error => return failed "" (.file error.message)
  | .ok rom =>
    match Emulator.spawn (options.config rom) with
    | .error error => return failed "" error
    | .ok emulator =>
      let (result, emulator) ← session files options emulator
      let log := logLines filter emulator.close.log
      match result with
      | .ok output => return { exitCode := 0, output := output, errorOutput := log }
      | .error error => return failed log error

/-- Runs the program with its arguments. -/
def run (files : Files m) (arguments : List String) (filter : LogFilter) : m RunResult := do
  let warnings := String.join (filter.warnings.map fun warning => "warning: " ++ warning ++ ", ignoring it\n")
  let result ← match Options.parse {} arguments with
    | .help => pure { exitCode := 0, errorOutput := Options.usage }
    | .unknown argument => pure { exitCode := 1, errorOutput := "Unknown argument: " ++ argument ++ "\n" }
    | .run options => runMachine files options filter
  return { result with errorOutput := warnings ++ result.errorOutput }

end CommandLine

end ZxSpectrum
