import ZxSpectrum.Feed
import ZxSpectrum.Snapshot.CpuText

/-!
# Commands

What a client asks of the emulator task, and what it gets for an answer. `Command.wantsAnswer` tells the commands that are
answered; `Command.text` names a command with all its arguments, for the log. The ends of channels that a command carries
have no text of their own.
-/

namespace ZxSpectrum

inductive Command where
  /-- Resets the machine. The notice, if there is one, is told once whether the ROM has started. -/
  | reset (notice : Option Nat)
  /-- Runs a frame and offers it to the feeds. -/
  | renderFrame (awaited : Bool)
  /-- Runs frames by themselves, at the frame rate. -/
  | runRealtime (on : Bool)
  | addDisplay (channel : Channel DisplayData)
  | closeDisplays
  | setFrameRate (rate : FrameRate)
  | setAccurate (on : Bool)
  | addSpeaker (channel : Channel AudioData)
  | closeSpeakers
  | loadSnapshot (snapshot : Snapshot) (format : SnapshotFormat)
  | makeSnapshot
  | copyScreen
  | setAcceleratedLoad (on : Bool)
  | pressKey (key : Key)
  | releaseKey (key : Key)
  | setJoystick (bits : UInt8)
  | setTapeEar (ear : Option Bool)
  /-- Ends the production of frames; only `terminate` is served afterwards. -/
  | pause
  | terminate

inductive Answer where
  | done
  /-- The frame rate before. -/
  | frameRate (previous : FrameRate)
  /-- Whether a snapshot was taken, or why not. -/
  | loaded (result : Except SnapshotError Unit)
  | snapshot (snapshot : Snapshot)
  | screen (bytes : List UInt8)

/-- A record as text, its fields in order. -/
def recordText (name : String) (fields : List (String × String)) : String :=
  name ++ " \x7b " ++ ", ".intercalate (fields.map fun (field, value) => field ++ ": " ++ value) ++ " \x7d"

/-- A truth value as text. -/
def flagText (value : Bool) : String := if value then "true" else "false"

/-- An optional value as text. -/
def optionText : Option String → String
  | none => "None"
  | some text => "Some(" ++ text ++ ")"

/-- All of a snapshot as text. -/
def Snapshot.text (snapshot : Snapshot) : String :=
  let registers := recordText "Registers" (Registers.fieldNames.zip snapshot.cpu.registers.fieldTexts)
  recordText "Snapshot"
    [("cpu", recordText "CpuState" [("registers", registers), ("tstates", toString snapshot.cpu.tstates)]),
      ("ula", recordText "UlaState" [("border", toString snapshot.border.toNat)]),
      ("memory", "[" ++ ", ".intercalate (snapshot.ram.map fun byte => toString byte.toNat) ++ "]")]

/-- The name of a format, only its first letter in capitals. -/
def formatText : SnapshotFormat → String
  | .sna => "Sna"
  | .z80 => "Z80"

namespace Command

/-- Whether somebody waits for an answer. -/
def wantsAnswer : Command → Bool
  | renderFrame awaited => awaited
  | closeDisplays | setFrameRate _ | closeSpeakers | loadSnapshot .. | makeSnapshot | copyScreen | pause | terminate => true
  | _ => false

/-- The end of a channel through which an answer goes. -/
def senderText : String := "Sender \x7b .. \x7d"

/-- The sending end of a bounded channel. -/
def feedText : String := "Sync" ++ senderText

/-- The command with its arguments. -/
def text : Command → String
  | reset notice => recordText "Reset" [("rom_loaded", optionText (notice.map fun _ => senderText))]
  | renderFrame awaited => recordText "RenderFrame" [("done", optionText (if awaited then some senderText else none))]
  | runRealtime on => "RunRealtime(" ++ flagText on ++ ")"
  | addDisplay _ => "AddDisplay(" ++ feedText ++ ")"
  | closeDisplays => recordText "CloseAllDisplays" [("done", senderText)]
  | setFrameRate rate => recordText "SetFps" [("fps", rate.literal), ("reply", senderText)]
  | setAccurate on => "SetUlaEmulationAccuracy(" ++ flagText on ++ ")"
  | addSpeaker _ => "AddAudioReceiver(" ++ feedText ++ ")"
  | closeSpeakers => recordText "CloseAllAudioReceivers" [("done", senderText)]
  | loadSnapshot snapshot format =>
    recordText "LoadSnapshot"
      [("snapshot", snapshot.text), ("format", formatText format), ("reply", senderText)]
  | makeSnapshot => recordText "MakeSnapshot" [("reply", senderText)]
  | copyScreen => recordText "MakeVideoMemoryDump" [("reply", senderText)]
  | setAcceleratedLoad on => "SetAcceleratedLoad(" ++ flagText on ++ ")"
  | pressKey key => "KeyDown(" ++ key.name ++ ")"
  | releaseKey key => "KeyUp(" ++ key.name ++ ")"
  | setJoystick bits => "SetJoystick(" ++ toString bits.toNat ++ ")"
  | setTapeEar ear => "SetTapeEar(" ++ optionText (ear.map flagText) ++ ")"
  | pause => recordText "Pause" [("ack", senderText)]
  | terminate => recordText "Terminate" [("ack", senderText)]

end Command

end ZxSpectrum
