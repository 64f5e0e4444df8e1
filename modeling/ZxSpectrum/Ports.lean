import ZxSpectrum.Keyboard
import ZxSpectrum.Ports.EventLog
import ZxSpectrum.Word

/-!
# Ports

Even ports belong to the video chip: a read answers the selected half-rows of the keyboard and the tape input, a write
sets the border colour and the level of the beeper. Odd ports whose bits 5 to 7 are low answer the joystick, all others
FF. Changes of border and beeper are logged with their times.
-/

namespace ZxSpectrum

/-- The bits of the joystick. -/
inductive JoystickBit where
  | right | left | down | up | fire

/-- The bits of the joystick byte, high while active. -/
def JoystickBit.mask : JoystickBit → UInt8
  | .right => 0x01
  | .left => 0x02
  | .down => 0x04
  | .up => 0x08
  | .fire => 0x10

structure Ports where
  keyboard : Keyboard := {}
  joystick : UInt8 := 0
  /-- The level of the tape input while a tape is connected. -/
  tapeEar : Option Bool := none
  /-- Whether tapes load faster than they play; this also silences their noise. -/
  acceleratedLoad : Bool := false
  /-- Whether the tape is heard on the beeper. -/
  tapeNoise : Bool := true
  /-- The border colour, 0 to 7. -/
  border : UInt8 := 7
  /-- The level last written to the beeper, 0 to 3. -/
  beeper : UInt8 := 0
  borderLog : EventLog := .constant 7
  beeperLog : EventLog := .constant 0
  /-- Reads of even ports in this frame. -/
  ulaReads : Nat := 0

namespace Ports

/-- Reads of even ports in one frame from which on the program is taken to load from tape. -/
def tapeReadsThreshold : Nat := 100

/-- Sets the border at once, without an entry in the log. -/
def setBorder (ports : Ports) (colour : UInt8) : Ports :=
  { ports with border := colour &&& 0x07, borderLog := .constant (colour &&& 0x07) }

/-- The ports after a reset. The options and the tape stay connected. -/
def reset (ports : Ports) : Ports :=
  { tapeEar := ports.tapeEar, acceleratedLoad := ports.acceleratedLoad, tapeNoise := ports.tapeNoise }

def beginFrame (ports : Ports) : Ports :=
  { ports with borderLog := ports.borderLog.beginFrame, beeperLog := ports.beeperLog.beginFrame, ulaReads := 0 }

/-- Closes the logs of the frame. -/
def endFrame (ports : Ports) : Ports :=
  { ports with borderLog := ports.borderLog.endFrame, beeperLog := ports.beeperLog.endFrame }

/-- Whether the program has read the tape in this frame often enough to be loading. -/
def shouldPlayTape (ports : Ports) : Bool := tapeReadsThreshold ≤ ports.ulaReads

/-- The level that is heard: that of the beeper, with bit 1 forced on while the tape input is high. -/
def noiseLevel (ports : Ports) (ear : Bool) : UInt8 := if ear then ports.beeper ||| 0x02 else ports.beeper

/-- The byte that an even port answers. -/
def ulaByte (ports : Ports) (port : UInt16) : UInt8 :=
  let keys := ports.keyboard.read (Word.high port)
  if ports.tapeEar = some false then keys &&& 0xBF else keys

/-- The byte that a port answers. -/
def answer (ports : Ports) (port : UInt16) : UInt8 :=
  if Ula.isUlaPort port then ports.ulaByte port
  else if port &&& 0x00E0 == 0 then ports.joystick
  else 0xFF

/-- Counts a read of an even port at a time. While a tape plays its noise is heard on the beeper. -/
def noteRead (ports : Ports) (time : Nat) : Ports :=
  let ports := { ports with ulaReads := ports.ulaReads + 1 }
  match ports.tapeEar with
  | some ear =>
    if ports.tapeNoise && !ports.acceleratedLoad then
      { ports with beeperLog := ports.beeperLog.record ⟨time, ports.noiseLevel ear⟩ }
    else ports
  | none => ports

/-- A read of a port at a time. -/
def read (ports : Ports) (port : UInt16) (time : Nat) : UInt8 × Ports :=
  (ports.answer port, if Ula.isUlaPort port then ports.noteRead time else ports)

/-- A write to a port at a time. -/
def write (ports : Ports) (port : UInt16) (value : UInt8) (time : Nat) : Ports :=
  if Ula.isUlaPort port then
    let border := value &&& 0x07
    let beeper := (value >>> 3) &&& 0x03
    { ports with
      border := border, borderLog := ports.borderLog.record ⟨time, border⟩
      beeper := beeper, beeperLog := ports.beeperLog.record ⟨time, beeper⟩ }
  else ports

end Ports

end ZxSpectrum
