import ZxSpectrum.Emulator
import ZxSpectrum.Proofs.Forgetting

/-!
# Steps of the task

What an event makes of the task and what others learn of it. Each function of the task has one lemma that says so for all of
its result (`tellNotice_eq`, `stop_eq`, `pause_eq`, `reset_eq`, `renderFrame_eq`); from them follow the answers of a command
(`answers_execute`), what notices are told (`told_execute`), the notice that waits then (`notice_execute`) and what happens
to the machine (`machine_step`). The last section joins the steps to runs.
-/

namespace ZxSpectrum

open Emulator (answers)

/-! ## What others learn -/

namespace Effect

/-- What notices are told among effects, in order. -/
def told (effects : List Effect) : List (Nat × Bool) :=
  effects.filterMap fun
    | .notify notice started => some (notice, started)
    | _ => none

/-- Only the log learns of the effects. -/
def Silent (effects : List Effect) : Prop := ∀ effect ∈ effects, ∃ record, effect = .log record

variable {effects : List Effect}

@[simp] theorem answers_append (effects more : List Effect) : answers (effects ++ more) = answers effects ++ answers more :=
  List.filterMap_append

@[simp] theorem told_append (effects more : List Effect) : told (effects ++ more) = told effects ++ told more :=
  List.filterMap_append

@[simp] theorem answers_cons_answer (answer : Answer) (rest : List Effect) :
    answers (.answer answer :: rest) = answer :: answers rest := rfl

@[simp] theorem told_cons_answer (answer : Answer) (rest : List Effect) : told (.answer answer :: rest) = told rest := rfl

@[simp] theorem answers_cons_report (level : LogLevel) (text : String) (rest : List Effect) :
    answers (Task.report level text :: rest) = answers rest := rfl

@[simp] theorem told_cons_report (level : LogLevel) (text : String) (rest : List Effect) :
    told (Task.report level text :: rest) = told rest := rfl

@[simp] theorem answers_nil : answers [] = [] := rfl

@[simp] theorem told_nil : told [] = [] := rfl

@[simp] theorem answers_map_notify (notices : List Nat) (started : Bool) :
    answers (notices.map fun notice => .notify notice started) = [] := by
  induction notices with
  | nil => rfl
  | cons notice rest ih => exact ih

@[simp] theorem told_map_notify (notices : List Nat) (started : Bool) :
    told (notices.map fun notice => .notify notice started) = notices.map fun notice => (notice, started) := by
  induction notices with
  | nil => rfl
  | cons notice rest ih => exact congrArg _ ih

theorem Silent.answers_eq (silent : Silent effects) : answers effects = [] := by
  refine List.filterMap_eq_nil_iff.mpr fun effect heffect => ?_
  obtain ⟨record, rfl⟩ := silent effect heffect
  rfl

theorem Silent.told_eq (silent : Silent effects) : told effects = [] := by
  refine List.filterMap_eq_nil_iff.mpr fun effect heffect => ?_
  obtain ⟨record, rfl⟩ := silent effect heffect
  rfl

theorem Silent.append {more : List Effect} (silent : Silent effects) (hmore : Silent more) : Silent (effects ++ more) := by
  intro effect heffect
  rcases List.mem_append.mp heffect with h | h
  · exact silent effect h
  · exact hmore effect h

theorem silent_map {α : Type} (items : List α) (record : α → LogRecord) : Silent (items.map fun item => .log (record item)) := by
  intro effect heffect
  obtain ⟨item, -, rfl⟩ := List.mem_map.mp heffect
  exact ⟨record item, rfl⟩

theorem silent_mapIdx {α : Type} (items : List α) (record : Nat → α → LogRecord) :
    Silent (items.mapIdx fun i item => .log (record i item)) := by
  intro effect heffect
  obtain ⟨i, hi, rfl⟩ := List.mem_mapIdx.mp heffect
  exact ⟨record i items[i], rfl⟩

end Effect

open Effect

namespace Command

/-- The answer that a command gets from a running task with this machine, if somebody waits for one. -/
def answer (machine : Machine) : Command → Option Answer
  | renderFrame awaited => if awaited then some .done else none
  | closeDisplays | closeSpeakers | pause | terminate => some .done
  | setFrameRate _ => some (.frameRate machine.frameRate)
  | loadSnapshot snapshot _ => some (.loaded ((machine.loadSnapshot snapshot).map fun _ => ()))
  | makeSnapshot => some (.snapshot machine.makeSnapshot)
  | copyScreen => some (.screen machine.board.memory.screen)
  | _ => none

/-- Who waits for an answer has one coming. -/
theorem isSome_answer (machine : Machine) (command : Command) : (command.answer machine).isSome = command.wantsAnswer := by
  cases command with
  | renderFrame awaited => cases awaited <;> rfl
  | _ => rfl

/-- What a running task makes its machine do on a command. -/
def operations : Command → List Operation
  | reset _ => [.reset]
  | renderFrame _ => [.frame]
  | setFrameRate rate => [.frameRate rate]
  | setAccurate on => [.accurate on]
  | loadSnapshot snapshot _ => [.load snapshot]
  | setAcceleratedLoad on => [.acceleratedLoad on]
  | pressKey key => [.press key]
  | releaseKey key => [.release key]
  | setJoystick bits => [.joystick bits]
  | setTapeEar ear => [.tapeEar ear]
  | _ => []

end Command

/-! ## Functions of the task -/

namespace Task

variable {task : Task}

/-- Whether an event makes the task run a frame. -/
def rendersOn (task : Task) : TaskEvent → Bool
  | .command (.renderFrame _) => task.phase = .running
  | .command _ => false
  | .frameDue => task.phase = .running ∧ task.realtime = true

/-- The feeds of the displays once the frame that `machine` has run has been offered to them. -/
def displaysAfter (task : Task) (machine : Machine) : List DisplayFeed :=
  task.displays.map fun feed => (feed.offerFrame machine).1

/-- A notice is told once. -/
theorem tellNotice_eq (task : Task) (started : Bool) : task.tellNotice started =
    ({ task with notice := none }, task.notice.toList.map fun notice => .notify notice started) := by
  obtain ⟨machine, displays, speakers, notice, realtime, phase⟩ := task
  cases notice <;> rfl

theorem stop_eq (task : Task) : task.stop = (task.ended .stopped, .answer .done ::
    ((task.notice.toList.map fun notice => .notify notice false) ++ [report .debug "emulator task stopped"])) := by
  rw [stop, tellNotice_eq]
  rfl

theorem hangUp_eq (task : Task) : task.hangUp =
    if task.isAlive then
      (task.ended .stopped,
        (task.notice.toList.map fun notice => .notify notice false) ++ [report .debug "emulator task stopped"])
    else (task, []) := by
  rw [hangUp, tellNotice_eq]
  rfl

/-- What a pause logs of the attached feeds. -/
def countReports (task : Task) : List Effect :=
  (task.attachedDisplays.mapIdx fun i feed => report .debug s!"display {i}: {countText feed.sent feed.missed}") ++
    task.attachedSpeakers.mapIdx fun i feed => report .debug s!"audio receiver {i}: {countText feed.sent feed.missed}"

theorem silent_countReports (task : Task) : Silent task.countReports :=
  (silent_mapIdx task.attachedDisplays _).append (silent_mapIdx task.attachedSpeakers _)

theorem pause_eq (task : Task) : task.pause =
    ({ task with notice := none, phase := .paused },
      (task.notice.toList.map fun notice => .notify notice false) ++ task.countReports ++
        [report .debug "emulator paused", .answer .done]) := by
  rw [pause, tellNotice_eq, countReports]
  simp only [List.append_assoc]
  rfl

theorem reset_eq (task : Task) (notice : Option Nat) : task.reset notice =
    ({ task with
        machine := task.machine.reset
        notice := if task.machine.romKind = .openSe then none else notice },
      (task.notice.toList.map fun notice => .notify notice false) ++ report .info "reset" ::
        if task.machine.romKind = .openSe then notice.toList.map fun notice => .notify notice true else []) := by
  have hkind : task.machine.reset.romKind = task.machine.romKind := rfl
  rw [reset, tellNotice_eq]
  by_cases hopen : task.machine.romKind = .openSe
  · simp only [hkind, if_pos hopen, tellNotice_eq]
  · simp only [hkind, if_neg hopen]

/-- Where the ROM waits for a key once it has started, the notice of a reset waits too. -/
theorem reset_of_notice_none (hkind : task.machine.romKind ≠ .openSe) (hnotice : task.notice = none) (notice : Option Nat) :
    task.reset notice = ({ task with machine := task.machine.reset, notice := notice }, [report .info "reset"]) := by
  rw [reset_eq, if_neg hkind, if_neg hkind, hnotice]
  rfl

/-- A frame is run and offered to all displays and loudspeakers. -/
theorem renderFrame_eq (task : Task) : ∃ records, Silent records ∧ task.renderFrame =
    ({ task with
        machine := task.machine.renderFrame
        displays := task.displaysAfter task.machine.renderFrame
        speakers := task.speakers.map fun feed => (feed.offerFrame task.machine.renderFrame).1
        notice := if task.machine.atRomReady then none else task.notice },
      (if task.machine.atRomReady then task.notice.toList.map fun notice => .notify notice true else []) ++ records) := by
  refine ⟨_, silent_map (Machine.frameLog task.machine task.machine.renderFrame ++
    ((task.displays.map (DisplayFeed.offerFrame task.machine.renderFrame)).map (·.2)).flatten ++
    ((task.speakers.map (AudioFeed.offerFrame task.machine.renderFrame)).map (·.2)).flatten) id, ?_⟩
  rw [renderFrame, tellNotice_eq]
  by_cases hready : task.machine.atRomReady = true
  · simp only [if_pos hready, List.map_map]
    rfl
  · simp only [if_neg hready, List.map_map]
    rfl

theorem tellNotice_fst (task : Task) (started : Bool) : (task.tellNotice started).1 = { task with notice := none } := by
  rw [tellNotice_eq]

theorem reset_fst (task : Task) (notice : Option Nat) : (task.reset notice).1 =
    { task with
      machine := task.machine.reset
      notice := if task.machine.romKind = .openSe then none else notice } := by
  rw [reset_eq]

theorem renderFrame_fst (task : Task) : task.renderFrame.1 =
    { task with
      machine := task.machine.renderFrame
      displays := task.displaysAfter task.machine.renderFrame
      speakers := task.speakers.map fun feed => (feed.offerFrame task.machine.renderFrame).1
      notice := if task.machine.atRomReady then none else task.notice } := by
  obtain ⟨records, -, hframe⟩ := task.renderFrame_eq
  rw [hframe]

theorem told_renderFrame (task : Task) : told task.renderFrame.2 =
    if task.machine.atRomReady then task.notice.toList.map fun notice => (notice, true) else [] := by
  obtain ⟨records, silent, hframe⟩ := task.renderFrame_eq
  rw [hframe]
  split <;> simp [silent.told_eq]

theorem answers_renderFrame (task : Task) : answers task.renderFrame.2 = [] := by
  obtain ⟨records, silent, hframe⟩ := task.renderFrame_eq
  rw [hframe]
  split <;> simp [silent.answers_eq]

/-! ## Commands -/

/-- A running task answers a command once if somebody waits, and not at all if nobody does. -/
theorem answers_execute (task : Task) (command : Command) :
    answers (task.execute command).2 = (command.answer task.machine).toList := by
  cases command with
  | reset notice =>
    simp only [execute, reset_eq]
    split <;> simp [Command.answer]
  | renderFrame awaited => cases awaited <;> simp [execute, Command.answer, answers_renderFrame]
  | closeDisplays => simp [execute, Command.answer, (silent_map task.attachedDisplays _).answers_eq, report]
  | closeSpeakers => simp [execute, Command.answer, (silent_map task.attachedSpeakers _).answers_eq, report]
  | loadSnapshot snapshot format =>
    simp only [execute, load, Command.answer]
    cases task.machine.loadSnapshot snapshot <;> rfl
  | pause => simp [execute, pause_eq, Command.answer, task.silent_countReports.answers_eq]
  | terminate => simp [execute, stop_eq, Command.answer]
  | _ => rfl

/-- What a running task tells notices when it serves a command. -/
def tells (task : Task) : Command → List (Nat × Bool)
  | .reset notice =>
    (task.notice.toList.map fun waiting => (waiting, false)) ++
      if task.machine.romKind = .openSe then notice.toList.map fun notice => (notice, true) else []
  | .renderFrame _ => if task.machine.atRomReady then task.notice.toList.map fun notice => (notice, true) else []
  | .pause | .terminate => task.notice.toList.map fun notice => (notice, false)
  | _ => []

/-- The notice that waits once a command has been served. -/
def noticeAfter (task : Task) : Command → Option Nat
  | .reset notice => if task.machine.romKind = .openSe then none else notice
  | .renderFrame _ => if task.machine.atRomReady then none else task.notice
  | .pause | .terminate => none
  | _ => task.notice

/-- The phase of the task once a command has been served. -/
def phaseAfter (task : Task) : Command → Phase
  | .pause => .paused
  | .terminate => .stopped
  | _ => task.phase

theorem told_execute (task : Task) (command : Command) : told (task.execute command).2 = task.tells command := by
  cases command with
  | reset notice =>
    simp only [execute, reset_eq, tells]
    split <;> simp
  | renderFrame awaited => cases awaited <;> simp [execute, tells, told_renderFrame]
  | closeDisplays => simp [execute, tells, (silent_map task.attachedDisplays _).told_eq, report]
  | closeSpeakers => simp [execute, tells, (silent_map task.attachedSpeakers _).told_eq, report]
  | loadSnapshot snapshot format =>
    simp only [execute, load]
    cases task.machine.loadSnapshot snapshot <;> rfl
  | pause => simp [execute, pause_eq, tells, task.silent_countReports.told_eq]
  | terminate => simp [execute, stop_eq, tells]
  | _ => rfl

theorem notice_execute (task : Task) (command : Command) : (task.execute command).1.notice = task.noticeAfter command := by
  cases command with
  | reset notice => simp only [execute, reset_fst, noticeAfter]
  | renderFrame awaited => simp only [execute, renderFrame_fst, noticeAfter]
  | loadSnapshot snapshot format =>
    simp only [execute, load]
    cases task.machine.loadSnapshot snapshot <;> rfl
  | pause => simp only [execute, pause_eq, noticeAfter]
  | terminate => simp only [execute, stop_eq, noticeAfter, ended]
  | _ => rfl

theorem phase_execute (task : Task) (command : Command) : (task.execute command).1.phase = task.phaseAfter command := by
  cases command with
  | reset notice => simp only [execute, reset_fst, phaseAfter]
  | renderFrame awaited => simp only [execute, renderFrame_fst, phaseAfter]
  | loadSnapshot snapshot format =>
    simp only [execute, load]
    cases task.machine.loadSnapshot snapshot <;> rfl
  | _ => rfl

/-- A command makes the machine perform its operations, and does nothing else to it. -/
theorem machine_execute (task : Task) (command : Command) :
    (task.execute command).1.machine = command.operations.foldl Machine.perform task.machine := by
  cases command with
  | reset notice => simp only [execute, reset_fst, Command.operations, List.foldl, Machine.perform]
  | renderFrame awaited => simp only [execute, renderFrame_fst, Command.operations, List.foldl, Machine.perform]
  | loadSnapshot snapshot format =>
    simp only [execute, load, Command.operations, List.foldl, Machine.perform]
    cases task.machine.loadSnapshot snapshot <;> rfl
  | pause => simp only [execute, pause_eq, Command.operations, List.foldl]
  | terminate => simp only [execute, stop_eq, Command.operations, List.foldl]; rfl
  | _ => rfl

/-! ## Events -/

/-- What an event makes the task do, as a command. A frame that is due is run as if somebody had asked for it. -/
def deed (task : Task) : TaskEvent → Option Command
  | .command command =>
    match task.phase, command with
    | .running, command => some command
    | .paused, .terminate => some .terminate
    | _, _ => none
  | .frameDue => if task.phase = .running ∧ task.realtime then some (.renderFrame false) else none

/-- Whether an event ends the task because the time of the next frame cannot be told. -/
def failsOn (task : Task) : TaskEvent → Bool
  | .command _ => false
  | .frameDue => task.phase = .running ∧ task.realtime = true ∧ task.machine.frameRate.isNan = true

theorem deed_of_running (h : task.phase = .running) (command : Command) : task.deed (.command command) = some command := by
  simp only [deed, h]

theorem step_of_running (h : task.phase = .running) (command : Command) :
    task.step (.command command) = task.execute command := by
  rw [step]
  simp only [serve, h]

/-- A task that does not run serves the request to end, and nothing else. -/
theorem deed_of_not_running (hphase : task.phase ≠ .running) {event : TaskEvent} {command : Command}
    (h : task.deed event = some command) : command = .terminate := by
  cases event with
  | frameDue => simp [deed, hphase] at h
  | command sent =>
    simp only [deed] at h
    split at h
    · exact absurd ‹_› hphase
    · exact (Option.some.inj h).symm
    · exact absurd h (Option.some_ne_none command).symm

/-- A running task does what a command says. -/
theorem eq_of_deed_command {sent command : Command} (h : task.deed (.command sent) = some command) : command = sent := by
  simp only [deed] at h
  split at h
  · exact (Option.some.inj h).symm
  · exact (Option.some.inj h).symm
  · exact absurd h (Option.some_ne_none command).symm

theorem rendersOn_iff (task : Task) (event : TaskEvent) :
    task.rendersOn event = true ↔ ∃ awaited, task.deed event = some (.renderFrame awaited) := by
  cases event with
  | frameDue => simp [rendersOn, deed]
  | command command =>
    cases hphase : task.phase <;> cases command <;> simp [rendersOn, deed, hphase]

/-- An event that makes the task do nothing is no more than logged. -/
theorem step_of_deed_none {event : TaskEvent} (h : task.deed event = none) :
    (task.step event).1 = task ∧ Silent (task.step event).2 := by
  have hnothing : Silent [] := fun effect heffect => absurd heffect (List.not_mem_nil)
  cases event with
  | frameDue =>
    have hidle : ¬ (task.phase = .running ∧ task.realtime = true) := by simpa [deed] using h
    rw [step, frameDue, if_neg hidle]
    exact ⟨rfl, hnothing⟩
  | command command =>
    rw [step]
    cases hphase : task.phase with
    | running => simp [deed, hphase] at h
    | paused =>
      have hcommand : command ≠ .terminate := by
        rintro rfl
        simp [deed, hphase] at h
      rw [serve_of_paused task hphase command hcommand]
      exact ⟨rfl, silent_map [()] fun _ => ⟨.trace, .task, "paused, dropping " ++ command.text⟩⟩
    | stopped | failed =>
      rw [serve_of_not_isAlive task (by simp [isAlive, hphase]) command]
      exact ⟨rfl, hnothing⟩

/-- An event that makes the task serve a command, which may be its last. -/
theorem step_of_deed {event : TaskEvent} {command : Command} (h : task.deed event = some command) :
    (task.step event).2 = (task.execute command).2 ∧ (task.step event).1 =
      if task.failsOn event then (task.execute command).1.ended .failed else (task.execute command).1 := by
  cases event with
  | frameDue =>
    obtain ⟨⟨hphase, hrealtime⟩, rfl⟩ : (task.phase = .running ∧ task.realtime = true) ∧ .renderFrame false = command := by
      simpa [deed] using h
    have hrate : task.renderFrame.1.machine.frameRate = task.machine.frameRate := by
      rw [renderFrame_fst]
      rfl
    have hfails : task.failsOn .frameDue = task.machine.frameRate.isNan := by simp [failsOn, hphase, hrealtime]
    rw [step, frameDue, if_pos ⟨hphase, hrealtime⟩, hfails, ← hrate]
    exact ⟨rfl, rfl⟩
  | command command =>
    cases hphase : task.phase with
    | running =>
      obtain rfl := Option.some.inj ((deed_of_running hphase command).symm.trans h)
      rw [step_of_running hphase]
      exact ⟨rfl, rfl⟩
    | paused =>
      cases command with
      | terminate =>
        simp only [deed, hphase, Option.some.injEq] at h
        subst h
        simp only [step, serve, hphase]
        exact ⟨rfl, rfl⟩
      | _ => simp [deed, hphase] at h
    | stopped | failed => simp [deed, hphase] at h

/-- What notices are told by an event. -/
theorem told_step (task : Task) (event : TaskEvent) : told (task.step event).2 = (task.deed event).elim [] task.tells := by
  cases h : task.deed event with
  | none => exact (step_of_deed_none h).2.told_eq
  | some command => rw [(step_of_deed h).1, told_execute, Option.elim_some]

theorem notice_step (task : Task) {event : TaskEvent} (h : task.failsOn event = false) :
    (task.step event).1.notice = (task.deed event).elim task.notice task.noticeAfter := by
  cases hdeed : task.deed event with
  | none => rw [(step_of_deed_none hdeed).1, Option.elim_none]
  | some command => simp [(step_of_deed hdeed).2, h, notice_execute]

theorem phase_step (task : Task) (event : TaskEvent) : (task.step event).1.phase =
    if task.failsOn event then .failed else (task.deed event).elim task.phase task.phaseAfter := by
  cases hdeed : task.deed event with
  | none =>
    have h : task.failsOn event = false := by
      cases event with
      | command command => rfl
      | frameDue =>
        simp only [deed, ite_eq_right_iff, reduceCtorEq, imp_false] at hdeed
        simp_all [failsOn]
    rw [(step_of_deed_none hdeed).1, h, Option.elim_none]
    rfl
  | some command =>
    rw [(step_of_deed hdeed).2, Option.elim_some]
    split
    · rfl
    · exact task.phase_execute command

/-- What an event makes the machine perform. -/
def operationsOn (task : Task) (event : TaskEvent) : List Operation := (task.deed event).elim [] Command.operations

theorem machine_step (task : Task) (event : TaskEvent) :
    (task.step event).1.machine = (task.operationsOn event).foldl Machine.perform task.machine := by
  cases h : task.deed event with
  | none => rw [(step_of_deed_none h).1, operationsOn, h, Option.elim_none, List.foldl_nil]
  | some command =>
    rw [(step_of_deed h).2, operationsOn, h, Option.elim_some, ← machine_execute]
    split <;> rfl

/-! ## Runs -/

/-- What a row of events makes the machine perform. -/
def history (task : Task) : List TaskEvent → List Operation
  | [] => []
  | event :: events => task.operationsOn event ++ (task.step event).1.history events

/-- In a run the machine performs its history. -/
theorem machine_run (task : Task) (events : List TaskEvent) :
    (task.run events).1.machine = (task.history events).foldl Machine.perform task.machine := by
  induction events generalizing task with
  | nil => rfl
  | cons event events ih =>
    rw [history, List.foldl_append, ← machine_step]
    exact ih (task.step event).1

theorem run_cons (task : Task) (event : TaskEvent) (events : List TaskEvent) : task.run (event :: events) =
    (((task.step event).1.run events).1, (task.step event).2 ++ ((task.step event).1.run events).2) := rfl

/-- A task that has ended does nothing any more. -/
theorem step_of_not_isAlive (h : task.isAlive = false) (event : TaskEvent) : task.step event = (task, []) := by
  cases event with
  | command command => exact serve_of_not_isAlive task h command
  | frameDue =>
    have hphase : task.phase ≠ .running := by
      intro hrunning
      simp [isAlive, hrunning] at h
    simp [step, frameDue, hphase]

theorem run_of_not_isAlive (h : task.isAlive = false) (events : List TaskEvent) : task.run events = (task, []) := by
  induction events with
  | nil => rfl
  | cons event events ih => rw [run_cons, step_of_not_isAlive h, ih, List.append_nil]

end Task

end ZxSpectrum
