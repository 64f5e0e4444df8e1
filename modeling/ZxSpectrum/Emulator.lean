import ZxSpectrum.Task

/-!
# The emulator

The handle through which clients use the task. `send` hands a command over, `request` also waits for its answer; both fail
once the task has ended, and a request fails as well when the paused task drops it. The handle keeps what the notices of
resets were told and all that has been logged.
-/

namespace ZxSpectrum

/-- What there is to learn from the notice of a reset. -/
inductive NoticeStatus where
  /-- Nothing yet. -/
  | waiting
  | told (started : Bool)
  /-- Nothing any more. -/
  | closed
deriving DecidableEq, Repr

structure Emulator where
  task : Task
  /-- What each notice was told, until somebody takes it. -/
  notices : List (Option Bool) := []
  log : List LogRecord := []
  /-- Whether somebody has waited for the end of the task. -/
  joined : Bool := false

namespace Emulator

/-- The emulator of a new machine. -/
def spawn (config : Config) : Except EmulatorError Emulator := do
  let machine ← Machine.create config
  return { task := { machine := machine } }

/-- Takes note of an effect. -/
def note (emulator : Emulator) : Effect → Emulator
  | .log record => { emulator with log := emulator.log ++ [record] }
  | .notify notice started => { emulator with notices := emulator.notices.set notice (some started) }
  | .answer _ => emulator

/-- The answers among effects. -/
def answers (effects : List Effect) : List Answer :=
  effects.filterMap fun
    | .answer answer => some answer
    | _ => none

/-- Lets something happen to the task, and gives its answer, if there is one. -/
def advance (emulator : Emulator) (event : TaskEvent) : Option Answer × Emulator :=
  let (task, effects) := emulator.task.step event
  ((answers effects).head?, effects.foldl note { emulator with task := task })

/-- Hands a command to the task. -/
def send (emulator : Emulator) (command : Command) : Except EmulatorError (Option Answer) × Emulator :=
  if emulator.task.isAlive then
    let (answer, emulator) := emulator.advance (.command command)
    (.ok answer, emulator)
  else (.error .terminated, emulator)

/-- Hands a command to the task and waits for the answer. -/
def request (emulator : Emulator) (command : Command) : Except EmulatorError Answer × Emulator :=
  match emulator.send command with
  | (.ok (some answer), emulator) => (.ok answer, emulator)
  | (.ok none, emulator) => (.error .terminated, emulator)
  | (.error error, emulator) => (.error error, emulator)

/-- Resets the machine and gives the number of the notice that will be told whether the ROM has started. -/
def reset (emulator : Emulator) : Except EmulatorError Nat × Emulator :=
  let notice := emulator.notices.length
  match { emulator with notices := emulator.notices ++ [none] }.send (.reset (some notice)) with
  | (.ok _, emulator) => (.ok notice, emulator)
  | (.error error, _) => (.error error, emulator)

/-- Takes what a notice was told. -/
def takeNotice (emulator : Emulator) (notice : Nat) : NoticeStatus × Emulator :=
  match emulator.notices[notice]?.join with
  | some started => (.told started, { emulator with notices := emulator.notices.set notice none })
  | none => (if emulator.task.notice = some notice then .waiting else .closed, emulator)

/-- Switches real-time mode. When it is switched on, a frame is due at once. -/
def runRealtime (emulator : Emulator) (on : Bool) : Except EmulatorError Unit × Emulator :=
  match emulator.send (.runRealtime on) with
  | (.ok _, emulator) => (.ok (), if on then (emulator.advance .frameDue).2 else emulator)
  | (.error error, emulator) => (.error error, emulator)

/-- Reads a snapshot file and loads it. A file that cannot be read does not reach the task. -/
def loadFile (emulator : Emulator) (data : List UInt8) (format : SnapshotFormat) :
    Except EmulatorError Unit × Emulator :=
  match Snapshot.decode data format with
  | .error error => (.error (.snapshot error), emulator)
  | .ok snapshot =>
    match emulator.request (.loadSnapshot snapshot format) with
    | (.ok (.loaded (.error error)), emulator) => (.error (.snapshot error), emulator)
    | (.ok _, emulator) => (.ok (), emulator)
    | (.error error, emulator) => (.error error, emulator)

/-- The state of the machine. -/
def snapshot (emulator : Emulator) : Except EmulatorError Snapshot × Emulator :=
  match emulator.request .makeSnapshot with
  | (.ok (.snapshot snapshot), emulator) => (.ok snapshot, emulator)
  | (.ok _, emulator) => (.error .terminated, emulator)
  | (.error error, emulator) => (.error error, emulator)

/-- Ends the task and waits for its end; a second time there is nothing to wait for. That the task had failed is logged. -/
def terminate (emulator : Emulator) : Except EmulatorError Unit × Emulator :=
  if emulator.joined then (.ok (), emulator)
  else
    let (result, emulator) := { emulator with joined := true }.request .terminate
    let failure := if emulator.task.phase = .failed then [⟨.warn, .task, "emulator thread panicked"⟩] else []
    (result.map fun _ => (), { emulator with log := emulator.log ++ failure })

/-- Gives the emulator up: the task is paused and ended, if nobody has done so. -/
def close (emulator : Emulator) : Emulator :=
  if emulator.joined then emulator else (emulator.request .pause).2.terminate.2

/-- Attaches a display and gives the number of its feed, whether the task has taken it or not. -/
def addDisplay (emulator : Emulator) (channel : Channel DisplayData) : Except EmulatorError Unit × Nat × Emulator :=
  let place := emulator.task.displays.length
  let (result, emulator) := emulator.send (.addDisplay channel)
  let { task, notices, log, joined } := emulator
  let task :=
    if task.displays.length = place then
      { task with displays := task.displays ++ [{ channel := channel, attached := false }] }
    else task
  (result.map fun _ => (), place, { task, notices, log, joined })

/-- Attaches a loudspeaker and gives the number of its feed, whether the task has taken it or not. -/
def addSpeaker (emulator : Emulator) (channel : Channel AudioData) : Except EmulatorError Unit × Nat × Emulator :=
  let place := emulator.task.speakers.length
  let (result, emulator) := emulator.send (.addSpeaker channel)
  let { task, notices, log, joined } := emulator
  let task :=
    if task.speakers.length = place then
      { task with speakers := task.speakers ++ [{ channel := channel, attached := false }] }
    else task
  (result.map fun _ => (), place, { task, notices, log, joined })

/-- Changes the feed of a display at its receiving end. -/
def modifyDisplay (emulator : Emulator) (place : Nat) (f : DisplayFeed → DisplayFeed) : Emulator :=
  { emulator with task := { emulator.task with displays := emulator.task.displays.modify place f } }

/-- Changes the feed of a loudspeaker at its receiving end. -/
def modifySpeaker (emulator : Emulator) (place : Nat) (f : AudioFeed → AudioFeed) : Emulator :=
  { emulator with task := { emulator.task with speakers := emulator.task.speakers.modify place f } }

/-- Takes a frame at the receiving end of a display. -/
def receiveDisplay (emulator : Emulator) (place : Nat) : Received DisplayData × Emulator :=
  match emulator.task.displays[place]? with
  | none => (.dropped, emulator)
  | some feed => (feed.receive.1, emulator.modifyDisplay place fun feed => feed.receive.2)

/-- Takes a frame at the receiving end of a loudspeaker. -/
def receiveSpeaker (emulator : Emulator) (place : Nat) : Received AudioData × Emulator :=
  match emulator.task.speakers[place]? with
  | none => (.dropped, emulator)
  | some feed => (feed.receive.1, emulator.modifySpeaker place fun feed => feed.receive.2)

end Emulator

end ZxSpectrum
