import ZxSpectrum.Board
import ZxSpectrum.Cpu.Inspect
import ZxSpectrum.FrameRate
import ZxSpectrum.Log
import ZxSpectrum.Machine.Error
import ZxSpectrum.Search
import ZxSpectrum.Snapshot.Format

/-!
# The machine

Processor and board with the system ROM, run frame by frame. A frame begins on the ports and the shadow, keeps what the
last one ran over, raises the interrupt, executes to the end of the frame and closes the logs. What displays and
loudspeakers show of it is `displayData` and `audioData`.
-/

namespace ZxSpectrum

/-- Which system ROM a machine has. -/
inductive RomKind where
  | sinclair | openSe
deriving DecidableEq, Repr

/-- What a machine is built from. -/
structure Config where
  rom : List UInt8
  acceleratedLoad : Bool := false
  accurateUla : Bool := true
  frameRate : FrameRate := .default
  tapeNoise : Bool := true

/-- A frame as a display gets it. -/
structure DisplayData where
  screen : Ula.ScreenImage
  /-- The colour of the border at the end of the frame. -/
  border : UInt8
  /-- The changes of the border, if it changed. -/
  borderEvents : Option (List Event)
  frame : UInt32

/-- A frame as a loudspeaker gets it. -/
structure AudioData where
  frameRate : FrameRate
  beeperEvents : List Event

structure Machine where
  cpu : Cpu := {}
  board : Board := {}
  rom : List UInt8
  romKind : RomKind
  frameRate : FrameRate
  /-- Frames for which the tape still counts as active. -/
  tapeCountdown : Nat := 0

namespace Machine

/-- Where the system ROM waits for a key once it has started. -/
def romReadyPc : UInt16 := 0x10AC

/-- Frames for which the tape stays active after the program stopped reading it. -/
def tapeCountdownFrames : Nat := 75

/-- Text in the ROM that never waits for a key at `romReadyPc`. -/
def openSeSignature : List UInt8 := "1981 Nine Tiles Networks".toUTF8.toList

/-- The kind of a ROM, told by the text in it. -/
def romKindOf (rom : List UInt8) : RomKind := if Search.holds openSeSignature rom then .openSe else .sinclair

/-- The machine after a power-on reset. ROM, frame rate and options stay, and so does the tape input. -/
def reset (machine : Machine) : Machine :=
  { cpu := {}
    board :=
      { memory := Memory.ofRom machine.rom
        shadow := machine.board.shadow.reset
        ports := machine.board.ports.reset }
    rom := machine.rom
    romKind := machine.romKind
    frameRate := machine.frameRate }

/-- A new machine; a ROM of a wrong size is refused. -/
def create (config : Config) : Except EmulatorError Machine :=
  if config.rom.length ≠ Memory.romSize then .error (.rom config.rom.length)
  else
    .ok <| reset
      { board :=
          { shadow := { accurate := config.accurateUla }
            ports := { acceleratedLoad := config.acceleratedLoad, tapeNoise := config.tapeNoise } }
        rom := config.rom
        romKind := romKindOf config.rom
        frameRate := config.frameRate.effective }

/-- Whether the program has read the tape lately. -/
def tapeActive (machine : Machine) : Bool := 0 < machine.tapeCountdown

/-- Whether the program read the tape often enough in the last frame to be loading. -/
def shouldPlayTape (machine : Machine) : Bool := machine.board.ports.shouldPlayTape

/-- Runs one frame. -/
def renderFrame (machine : Machine) : Machine :=
  let { cpu, board, rom, romKind, frameRate, tapeCountdown } := machine
  let board := board.beginFrame
  let board := { board with clock := Ula.wrapFrame board.clock }
  let ((_, cpu), board) := cpu.interrupt.run board
  let (cpu, board) := cpu.runUntil Ula.tstatesPerFrame board
  let board := { board with ports := board.ports.endFrame }
  let tapeCountdown := if board.ports.shouldPlayTape then tapeCountdownFrames else tapeCountdown - 1
  { cpu, board, rom, romKind, frameRate, tapeCountdown }

/-- What is logged of a frame: that the tape became active, or no longer is. -/
def frameLog (before after : Machine) : List LogRecord :=
  if before.tapeActive = after.tapeActive then []
  else [⟨.debug, .spectrum, "tape activity: " ++ if after.tapeActive then "true" else "false"⟩]

/-- The frame that has just been run, for a display. A log with only its first and its last entry has no changes. -/
def displayData (machine : Machine) (diff : Bool) : DisplayData :=
  let events := machine.board.ports.borderLog.events
  { screen := machine.board.composeScreen diff
    border := machine.board.ports.border
    borderEvents := if 2 < events.length then some events else none
    frame := machine.board.shadow.frame }

/-- The frame that has just been run, for a loudspeaker. -/
def audioData (machine : Machine) : AudioData :=
  { frameRate := machine.frameRate, beeperEvents := machine.board.ports.beeperLog.events }

/-- The machine in the state of a snapshot. -/
def restore (machine : Machine) (snapshot : Snapshot) : Machine :=
  let machine := machine.reset
  { machine with
    cpu := { regs := snapshot.cpu.registers }
    board :=
      { machine.board with
        memory := machine.board.memory.loadRam snapshot.ram
        clock := snapshot.cpu.tstates
        ports := machine.board.ports.setBorder snapshot.border } }

/-- Takes the state of a snapshot, unless it cannot be taken. -/
def loadSnapshot (machine : Machine) (snapshot : Snapshot) : Except SnapshotError Machine :=
  match snapshot.problem? with
  | some error => .error error
  | none => .ok (machine.restore snapshot)

/-- The state as a snapshot. -/
def makeSnapshot (machine : Machine) : Snapshot :=
  { cpu := { registers := machine.cpu.regs, tstates := machine.board.clock }
    border := machine.board.ports.border
    ram := machine.board.memory.ram }

/-- Whether the ROM has started and waits for a key. -/
def atRomReady (machine : Machine) : Bool := machine.cpu.regs.pc == romReadyPc

def setFrameRate (machine : Machine) (rate : FrameRate) : Machine := { machine with frameRate := rate.effective }

/-- Changes the ports. -/
@[inline] def modifyPorts (machine : Machine) (f : Ports → Ports) : Machine :=
  { machine with board := { machine.board with ports := f machine.board.ports } }

def setAccurate (machine : Machine) (accurate : Bool) : Machine :=
  { machine with board := { machine.board with shadow := { machine.board.shadow with accurate := accurate } } }

def setAcceleratedLoad (machine : Machine) (accelerated : Bool) : Machine :=
  machine.modifyPorts fun ports => { ports with acceleratedLoad := accelerated }

def pressKey (machine : Machine) (key : Key) : Machine :=
  machine.modifyPorts fun ports => { ports with keyboard := ports.keyboard.press key }

def releaseKey (machine : Machine) (key : Key) : Machine :=
  machine.modifyPorts fun ports => { ports with keyboard := ports.keyboard.release key }

def setJoystick (machine : Machine) (bits : UInt8) : Machine :=
  machine.modifyPorts fun ports => { ports with joystick := bits }

def setTapeEar (machine : Machine) (ear : Option Bool) : Machine :=
  machine.modifyPorts fun ports => { ports with tapeEar := ear }

end Machine

end ZxSpectrum
