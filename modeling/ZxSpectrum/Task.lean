import ZxSpectrum.Task.Command

/-!
# The emulator task

One task owns the machine. It serves commands in the order in which they arrive, and in real-time mode it runs a frame
whenever one is due. `serve` and `frameDue` give the task afterwards and, in order, the effects that others see: answers,
notices and log records. Once paused it serves `terminate` only, and once it has ended it serves nothing.
-/

namespace ZxSpectrum

/-- What the task lets others know. -/
inductive Effect where
  | log (record : LogRecord)
  /-- Tells the notice of a reset whether the ROM has started. -/
  | notify (notice : Nat) (started : Bool)
  | answer (answer : Answer)

/-- The life of the task. -/
inductive Phase where
  | running
  /-- No frame is run any more. -/
  | paused
  /-- Ended on request. -/
  | stopped
  /-- Ended because the time of the next frame cannot be told. -/
  | failed
deriving DecidableEq, Repr

structure Task where
  machine : Machine
  /-- The feeds of all displays that were ever attached, oldest first. -/
  displays : List DisplayFeed := []
  /-- The feeds of all loudspeakers that were ever attached, oldest first. -/
  speakers : List AudioFeed := []
  /-- The notice of the last reset, until it is told. -/
  notice : Option Nat := none
  realtime : Bool := false
  phase : Phase := .running

/-- Something that happens to the task. -/
inductive TaskEvent where
  | command (command : Command)
  /-- The time for a frame in real-time mode has come. -/
  | frameDue

namespace Task

/-- A log record of the task itself. -/
def report (level : LogLevel) (text : String) : Effect := .log ⟨level, .task, text⟩

/-- Whether the task still takes commands. -/
def isAlive (task : Task) : Bool := task.phase = .running ∨ task.phase = .paused

/-- The displays that are offered frames. -/
def attachedDisplays (task : Task) : List DisplayFeed := task.displays.filter (·.attached)

/-- The loudspeakers that are offered frames. -/
def attachedSpeakers (task : Task) : List AudioFeed := task.speakers.filter (·.attached)

/-- Tells the pending notice, if there is one. -/
def tellNotice (task : Task) (started : Bool) : Task × List Effect :=
  match task.notice with
  | some notice => ({ task with notice := none }, [.notify notice started])
  | none => (task, [])

/-- Detaches all displays. -/
def detachDisplays (task : Task) : Task :=
  { task with displays := task.displays.map fun feed => { feed with attached := false } }

/-- Detaches all loudspeakers. -/
def detachSpeakers (task : Task) : Task :=
  { task with speakers := task.speakers.map fun feed => { feed with attached := false } }

/-- The task at its end; its receivers get no more frames. -/
def ended (task : Task) (phase : Phase) : Task :=
  { task.detachDisplays.detachSpeakers with notice := none, phase := phase }

/-- Ends the task on request. -/
def stop (task : Task) : Task × List Effect :=
  let (task, told) := task.tellNotice false
  (task.ended .stopped, .answer .done :: told ++ [report .debug "emulator task stopped"])

/-- Ends the task when nobody can send to it any more, unless it has ended before. -/
def hangUp (task : Task) : Task × List Effect :=
  if task.isAlive then
    let (task, told) := task.tellNotice false
    (task.ended .stopped, told ++ [report .debug "emulator task stopped"])
  else (task, [])

/-- How many frames got through and how many did not. -/
def countText (sent missed : Nat) : String := s!"{sent} frames sent, {missed} missed"

/-- Runs a frame and offers it to all feeds. A machine that waits for a key before the frame has started. -/
def renderFrame (task : Task) : Task × List Effect :=
  let (task, told) := if task.machine.atRomReady then task.tellNotice true else (task, [])
  let { machine := before, displays, speakers, notice, realtime, phase } := task
  let machine := before.renderFrame
  let displays := displays.map (DisplayFeed.offerFrame machine)
  let speakers := speakers.map (AudioFeed.offerFrame machine)
  let records := Machine.frameLog before machine ++ (displays.map (·.2)).flatten ++ (speakers.map (·.2)).flatten
  ({ machine, displays := displays.map (·.1), speakers := speakers.map (·.1), notice, realtime, phase },
    told ++ records.map .log)

/-- Resets the machine. A notice that still waits is told that its reset came to nothing, and the new one takes its place.
A ROM that never waits for a key counts as started at once. -/
def reset (task : Task) (notice : Option Nat) : Task × List Effect :=
  let (task, told) := task.tellNotice false
  let task := { task with machine := task.machine.reset, notice := notice }
  let (task, started) := if task.machine.romKind = .openSe then task.tellNotice true else (task, [])
  (task, told ++ report .info "reset" :: started)

/-- Changes the machine without any effect. -/
def adjust (task : Task) (f : Machine → Machine) : Task × List Effect := ({ task with machine := f task.machine }, [])

/-- Takes a snapshot into the machine, if it can be taken. -/
def load (task : Task) (snapshot : Snapshot) (format : SnapshotFormat) : Task × List Effect :=
  match task.machine.loadSnapshot snapshot with
  | .ok machine =>
    ({ task with machine := machine }, [report .info s!"loaded {format.name} snapshot", .answer (.loaded (.ok ()))])
  | .error error =>
    (task, [report .warn s!"{format.name} snapshot rejected: {error.message}", .answer (.loaded (.error error))])

/-- Pauses the task and logs the counts of all attached feeds. -/
def pause (task : Task) : Task × List Effect :=
  let (task, told) := task.tellNotice false
  let displayCounts := task.attachedDisplays.mapIdx fun i feed =>
    report .debug s!"display {i}: {countText feed.sent feed.missed}"
  let speakerCounts := task.attachedSpeakers.mapIdx fun i feed =>
    report .debug s!"audio receiver {i}: {countText feed.sent feed.missed}"
  ({ task with phase := .paused },
    told ++ displayCounts ++ speakerCounts ++ [report .debug "emulator paused", .answer .done])

/-- Serves a command while the task runs. -/
def execute (task : Task) : Command → Task × List Effect
  | .reset notice => task.reset notice
  | .renderFrame awaited =>
    let (task, effects) := task.renderFrame
    (task, if awaited then effects ++ [.answer .done] else effects)
  | .runRealtime on => ({ task with realtime := on }, [])
  | .addDisplay channel =>
    let total := task.attachedDisplays.length + 1
    ({ task with displays := task.displays ++ [{ channel := channel }] },
      [report .debug s!"display attached ({total} total)"])
  | .closeDisplays =>
    let counts := task.attachedDisplays.map fun feed =>
      report .debug s!"display closed: {countText feed.sent feed.missed}"
    (task.detachDisplays, counts ++ [.answer .done])
  | .setFrameRate rate =>
    let machine := task.machine.setFrameRate rate
    let previous := task.machine.frameRate
    ({ task with machine := machine },
      [report .info s!"frame rate {previous.text} -> {machine.frameRate.text}", .answer (.frameRate previous)])
  | .setAccurate on => task.adjust (·.setAccurate on)
  | .addSpeaker channel =>
    let total := task.attachedSpeakers.length + 1
    ({ task with speakers := task.speakers ++ [{ channel := channel }] },
      [report .debug s!"audio receiver attached ({total} total)"])
  | .closeSpeakers =>
    let counts := task.attachedSpeakers.map fun feed =>
      report .debug s!"audio receiver closed: {countText feed.sent feed.missed}"
    (task.detachSpeakers, counts ++ [.answer .done])
  | .loadSnapshot snapshot format => task.load snapshot format
  | .makeSnapshot => (task, [.answer (.snapshot task.machine.makeSnapshot)])
  | .copyScreen => (task, [.answer (.screen task.machine.board.memory.screen)])
  | .setAcceleratedLoad on => task.adjust (·.setAcceleratedLoad on)
  | .pressKey key => task.adjust (·.pressKey key)
  | .releaseKey key => task.adjust (·.releaseKey key)
  | .setJoystick bits => task.adjust (·.setJoystick bits)
  | .setTapeEar ear => task.adjust (·.setTapeEar ear)
  | .pause => task.pause
  | .terminate => task.stop

/-- Serves a command. -/
def serve (task : Task) (command : Command) : Task × List Effect :=
  match task.phase with
  | .running => task.execute command
  | .paused =>
    match command with
    | .terminate => task.stop
    | _ => (task, [report .trace ("paused, dropping " ++ command.text)])
  | .stopped | .failed => (task, [])

/-- Runs the frame that is due in real-time mode. From a rate that is no number the time of the next frame cannot be told,
and the task fails. -/
def frameDue (task : Task) : Task × List Effect :=
  if task.phase = .running ∧ task.realtime then
    let (task, effects) := task.renderFrame
    (if task.machine.frameRate.isNan then task.ended .failed else task, effects)
  else (task, [])

/-- What an event does. -/
def step (task : Task) : TaskEvent → Task × List Effect
  | .command command => task.serve command
  | .frameDue => task.frameDue

/-- What a row of events does. -/
def run (task : Task) : List TaskEvent → Task × List Effect
  | [] => (task, [])
  | event :: events =>
    let (task, first) := task.step event
    let (task, rest) := task.run events
    (task, first ++ rest)

/-- A task that has ended serves nothing. -/
theorem serve_of_not_isAlive (task : Task) (h : task.isAlive = false) (command : Command) :
    task.serve command = (task, []) := by
  unfold serve
  cases hp : task.phase <;> simp_all [isAlive]

/-- A paused task drops every command but the one to terminate. -/
theorem serve_of_paused (task : Task) (h : task.phase = .paused) (command : Command) (hc : command ≠ .terminate) :
    task.serve command = (task, [report .trace ("paused, dropping " ++ command.text)]) := by
  unfold serve
  rw [h]
  cases command <;> first | rfl | exact absurd rfl hc

/-- Only a running task in real-time mode has frames that fall due. -/
theorem frameDue_of_paused (task : Task) (h : task.phase = .paused) : task.frameDue = (task, []) := by
  simp [frameDue, h]

theorem run_append (task : Task) (first rest : List TaskEvent) :
    task.run (first ++ rest) =
      (((task.run first).1.run rest).1, (task.run first).2 ++ ((task.run first).1.run rest).2) := by
  induction first generalizing task with
  | nil => simp [run]
  | cons event events ih => simp [run, ih]

end Task

end ZxSpectrum
