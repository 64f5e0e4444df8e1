import ZxSpectrum.Proofs.TaskSteps

/-!
# Requests and the pause

A task serves the commands of its queue in order, and which of them it serves the queue alone decides (`Command.heard`), whenever
frames fall due in between: all commands up to the first `pause` or `terminate`, and after a `pause` the first `terminate`. Each
command that is served gets one answer if somebody waits for it (`answers_run`), and each notice of a reset that is served is
told once (`told_notice_run`). A pause freezes the task (`run_of_paused`). The main theorem is `requests_settled`. Its exception
is a task that fails since the frame rate is no number: the notice that waits then is never told (`not_told_undefinedRate`).
-/

namespace ZxSpectrum

open Emulator (answers)
open Effect

/-! ## The queue -/

/-- The command that an event is. -/
def TaskEvent.command? : TaskEvent → Option Command
  | .command sent => some sent
  | .frameDue => none

namespace Command

/-- What a paused task serves of a queue: the first request to end. -/
def heardPaused : List Command → List Command
  | [] => []
  | .terminate :: _ => [.terminate]
  | _ :: rest => heardPaused rest

/-- What a running task serves of a queue: all up to the first request to pause or to end, and then what a paused task does. -/
def heard : List Command → List Command
  | [] => []
  | .terminate :: _ => [.terminate]
  | .pause :: rest => .pause :: heardPaused rest
  | command :: rest => command :: heard rest

/-- The notice that a command leaves. -/
def notice? : Command → Option Nat
  | .reset notice => notice
  | _ => none

/-- What a task in some phase serves of a queue. -/
def heardIn : Phase → List Command → List Command
  | .running => heard
  | .paused => heardPaused
  | .stopped | .failed => fun _ => []

end Command

namespace Task

variable {task : Task}

/-- The command that an event makes the task take from its queue, with the machine that the command finds. -/
def servedOn (task : Task) (event : TaskEvent) : List (Machine × Command) :=
  match event.command? with
  | some command => (task.deed (.command command)).toList.map fun command => (task.machine, command)
  | none => []

/-- The commands that are served in a run, each with the machine that it finds. -/
def served (task : Task) : List TaskEvent → List (Machine × Command)
  | [] => []
  | event :: events => task.servedOn event ++ (task.step event).1.served events

/-- What a paused task lets others know of the commands that it drops. -/
def drops (commands : List Command) : List Effect :=
  commands.map fun command => report .trace ("paused, dropping " ++ command.text)

theorem served_append (task : Task) (first rest : List TaskEvent) :
    task.served (first ++ rest) = task.served first ++ (task.run first).1.served rest := by
  induction first generalizing task with
  | nil => rfl
  | cons event events ih =>
    rw [List.cons_append, served, ih, served, List.append_assoc]
    rfl

/-- What is picked from commands is picked from those that are served. -/
theorem filterMap_served {α : Type} (pick : Command → Option α) (served : List (Machine × Command)) :
    served.filterMap (fun sent => pick sent.2) = (served.map (·.2)).filterMap pick := by
  rw [List.filterMap_map]
  rfl

theorem served_of_not_isAlive (h : task.isAlive = false) (events : List TaskEvent) : task.served events = [] := by
  have hphase : task.phase ≠ .running ∧ task.phase ≠ .paused := by
    constructor <;> intro hphase <;> simp [isAlive, hphase] at h
  induction events with
  | nil => rfl
  | cons event events ih =>
    have hnone : task.servedOn event = [] := by
      cases event with
      | frameDue => rfl
      | command command => cases hcase : task.phase <;> simp_all [servedOn, TaskEvent.command?, deed]
    rw [served, hnone, step_of_not_isAlive h, ih, List.append_nil]

/-! ## Answers -/

theorem answers_step (task : Task) (event : TaskEvent) :
    answers (task.step event).2 = (task.servedOn event).filterMap fun sent => sent.2.answer sent.1 := by
  cases hdeed : task.deed event with
  | none =>
    rw [(step_of_deed_none hdeed).2.answers_eq]
    cases event with
    | command command => simp [servedOn, TaskEvent.command?, hdeed]
    | frameDue => rfl
  | some command =>
    rw [(step_of_deed hdeed).1, answers_execute]
    cases event with
    | command sent =>
      simp only [servedOn, TaskEvent.command?, hdeed, Option.toList_some, List.map_cons, List.map_nil, List.filterMap_cons,
        List.filterMap_nil]
      cases command.answer task.machine <;> rfl
    | frameDue =>
      -- nobody waits for a frame that was due
      obtain ⟨-, rfl⟩ : (task.phase = .running ∧ task.realtime = true) ∧ .renderFrame false = command := by
        simpa [deed] using hdeed
      rfl

/-- In a run each command that is served is answered once if somebody waits, in the order of the queue. -/
theorem answers_run (task : Task) (events : List TaskEvent) :
    answers (task.run events).2 = (task.served events).filterMap fun sent => sent.2.answer sent.1 := by
  induction events generalizing task with
  | nil => rfl
  | cons event events ih => rw [run_cons, answers_append, answers_step, ih, served, List.filterMap_append]

/-! ## Phases -/

/-- A task that fails has been asked to run a frame at a rate that is no number; nothing happens afterwards. -/
theorem split_of_failed {events : List TaskEvent} (hstart : task.phase ≠ .failed) (h : (task.run events).1.phase = .failed) :
    ∃ past rest, events = past ++ .frameDue :: rest ∧ (task.run past).1.phase ≠ .failed ∧
      (task.run past).1.failsOn .frameDue = true := by
  induction events generalizing task with
  | nil => exact absurd h hstart
  | cons event events ih =>
    by_cases hfails : task.failsOn event = true
    · cases event with
      | command command => exact absurd hfails Bool.false_ne_true
      | frameDue => exact ⟨[], events, rfl, hstart, hfails⟩
    · have hnext : (task.step event).1.phase ≠ .failed := by
        rw [phase_step, if_neg hfails]
        cases hdeed : task.deed event with
        | none => exact hstart
        | some command => cases command <;> simp [phaseAfter, hstart]
      obtain ⟨past, rest, rfl, hpast, hlast⟩ := ih hnext h
      exact ⟨event :: past, rest, rfl, hpast, hlast⟩

/-- A task that has not failed at the end of a run did not fail on its first event. -/
theorem failsOn_eq_false {event : TaskEvent} {events : List TaskEvent} (h : (task.run (event :: events)).1.phase ≠ .failed) :
    task.failsOn event = false := by
  refine Bool.eq_false_iff.mpr fun hfails => ?_
  have hfailed : (task.step event).1.phase = .failed := by rw [phase_step, if_pos hfails]
  rw [run_cons, run_of_not_isAlive (by simp [isAlive, hfailed])] at h
  exact h hfailed

/-- Without a failure the rest of the queue is served in the phase that an event leaves. -/
theorem heardIn_phaseAfter (h : task.phase = .running) (command : Command) (rest : List Command) :
    Command.heard (command :: rest) = command :: Command.heardIn (task.phaseAfter command) rest := by
  cases command <;> simp [phaseAfter, h, Command.heardIn, Command.heard]

/-- As long as the task does not fail, the queue alone decides which commands are served. -/
theorem served_run (task : Task) (events : List TaskEvent) (h : (task.run events).1.phase ≠ .failed) :
    (task.served events).map (·.2) = Command.heardIn task.phase (events.filterMap TaskEvent.command?) := by
  induction events generalizing task with
  | nil => cases hphase : task.phase <;> rfl
  | cons event events ih =>
    have hfails := failsOn_eq_false h
    have hrest := ih (task.step event).1 h
    rw [phase_step, hfails, if_neg Bool.false_ne_true] at hrest
    rw [served, List.map_append, hrest]
    cases event with
    | frameDue =>
      have hphase : (task.deed .frameDue).elim task.phase task.phaseAfter = task.phase := by
        rw [deed]
        split <;> rfl
      rw [hphase]
      rfl
    | command command =>
      have hcommands : (TaskEvent.command command :: events).filterMap TaskEvent.command? =
          command :: events.filterMap TaskEvent.command? := rfl
      rw [hcommands]
      cases hphase : task.phase with
      | running =>
        rw [deed_of_running hphase, Option.elim_some, Command.heardIn, heardIn_phaseAfter hphase]
        simp [servedOn, TaskEvent.command?, deed_of_running hphase]
      | paused =>
        cases command <;>
          simp [servedOn, TaskEvent.command?, deed, hphase, phaseAfter, Command.heardIn, Command.heardPaused]
      | stopped | failed => simp [servedOn, TaskEvent.command?, deed, hphase, Command.heardIn]

/-! ## Notices -/

/-- A command passes on all notices: those that wait and its own are told or wait afterwards. -/
theorem tells_noticeAfter (task : Task) (command : Command) :
    (task.tells command).map (·.1) ++ (task.noticeAfter command).toList = task.notice.toList ++ command.notice?.toList := by
  cases command with
  | reset notice =>
    simp only [tells, noticeAfter, Command.notice?]
    split <;> simp [Function.comp_def]
  | renderFrame awaited =>
    simp only [tells, noticeAfter, Command.notice?]
    split <;> simp [Function.comp_def]
  | _ => simp [tells, noticeAfter, Command.notice?, Function.comp_def]

theorem told_notice_step (task : Task) {event : TaskEvent} (h : task.failsOn event = false) :
    (told (task.step event).2).map (·.1) ++ (task.step event).1.notice.toList =
      task.notice.toList ++ (task.servedOn event).filterMap (·.2.notice?) := by
  rw [told_step, notice_step task h]
  cases hdeed : task.deed event with
  | none =>
    cases event with
    | command command => simp [servedOn, TaskEvent.command?, hdeed]
    | frameDue => simp [servedOn, TaskEvent.command?]
  | some command =>
    rw [Option.elim_some, Option.elim_some, tells_noticeAfter]
    cases event with
    | command sent =>
      simp only [servedOn, TaskEvent.command?, hdeed, Option.toList_some, List.map_cons, List.map_nil, List.filterMap_cons,
        List.filterMap_nil]
      cases command.notice? <;> rfl
    | frameDue =>
      obtain ⟨-, rfl⟩ : (task.phase = .running ∧ task.realtime = true) ∧ .renderFrame false = command := by
        simpa [deed] using hdeed
      rfl

/-- As long as the task does not fail, the notices that waited and those of the resets that are served are told, in order, up to
the one that waits at last. -/
theorem told_notice_run (task : Task) (events : List TaskEvent) (h : (task.run events).1.phase ≠ .failed) :
    (told (task.run events).2).map (·.1) ++ (task.run events).1.notice.toList =
      task.notice.toList ++ (task.served events).filterMap (·.2.notice?) := by
  induction events generalizing task with
  | nil => simp [run, served]
  | cons event events ih =>
    have hfails := failsOn_eq_false h
    rw [run_cons, told_append, List.map_append, List.append_assoc, ih (task.step event).1 h, ← List.append_assoc,
      told_notice_step task hfails, served, List.filterMap_append, List.append_assoc]

/-- Only while the task runs a notice waits. -/
def Tidy (task : Task) : Prop := task.phase ≠ .running → task.notice = none

theorem Tidy.step (tidy : task.Tidy) (event : TaskEvent) : (task.step event).1.Tidy := by
  intro hphase
  cases hdeed : task.deed event with
  | none =>
    rw [(step_of_deed_none hdeed).1] at hphase ⊢
    exact tidy hphase
  | some command =>
    rw [(step_of_deed hdeed).2] at hphase ⊢
    split at hphase
    · rw [if_pos ‹_›]
      rfl
    · rw [if_neg ‹_›, notice_execute]
      rw [phase_execute] at hphase
      by_cases hrunning : task.phase = .running
      · cases command <;> first | rfl | exact absurd hrunning hphase
      · rw [deed_of_not_running hrunning hdeed]
        rfl

theorem Tidy.run (tidy : task.Tidy) (events : List TaskEvent) : (task.run events).1.Tidy := by
  induction events generalizing task with
  | nil => exact tidy
  | cons event events ih => exact ih (tidy.step event)

/-- At its end the task tells the notice that waits. -/
theorem Tidy.told_hangUp (tidy : task.Tidy) : (told task.hangUp.2).map (·.1) = task.notice.toList := by
  rw [hangUp_eq]
  split
  · simp [Function.comp_def]
  · rename_i h
    have hphase : task.phase ≠ .running := by
      intro hrunning
      simp [isAlive, hrunning] at h
    rw [tidy hphase]
    rfl

/-- The frame on which a task fails may still tell the notice that waits. Nothing happens after it. -/
theorem run_of_failsOn (h : task.failsOn .frameDue = true) (rest : List TaskEvent) :
    task.served (.frameDue :: rest) = [] ∧
      told ((task.run (.frameDue :: rest)).2 ++ (task.run (.frameDue :: rest)).1.hangUp.2) =
        if task.machine.atRomReady then task.notice.toList.map fun notice => (notice, true) else [] := by
  have hdue : task.phase = .running ∧ task.realtime = true := by
    simp only [failsOn, decide_eq_true_eq] at h
    exact ⟨h.1, h.2.1⟩
  have hdeed : task.deed .frameDue = some (.renderFrame false) := if_pos hdue
  have hended : (task.step .frameDue).1.isAlive = false := by
    rw [(step_of_deed hdeed).2, if_pos h]
    rfl
  constructor
  · rw [served, served_of_not_isAlive hended]
    rfl
  · rw [run_cons, run_of_not_isAlive hended, hangUp_eq, if_neg (by simp [hended]), List.append_nil, List.append_nil, told_step,
      hdeed]
    rfl

/-! ## The pause -/

/-- A paused task drops all that it is sent but the request to end, and runs no frame. -/
theorem run_of_paused (h : task.phase = .paused) {events : List TaskEvent}
    (hevents : .terminate ∉ events.filterMap TaskEvent.command?) :
    task.run events = (task, drops (events.filterMap TaskEvent.command?)) := by
  induction events with
  | nil => rfl
  | cons event events ih =>
    cases event with
    | frameDue =>
      rw [run_cons, step, frameDue_of_paused task h, ih hevents]
      rfl
    | command command =>
      have hcommands : (TaskEvent.command command :: events).filterMap TaskEvent.command? =
          command :: events.filterMap TaskEvent.command? := rfl
      rw [hcommands, List.mem_cons, not_or] at hevents
      rw [run_cons, step, serve_of_paused task h command (Ne.symm hevents.1), ih hevents.2]
      rfl

/-- The request to end ends the task, and nothing is served afterwards. -/
theorem run_terminate (h : task.isAlive = true) (events : List TaskEvent) :
    task.run (.command .terminate :: events) = task.stop := by
  have hstep : task.step (.command .terminate) = task.stop := by
    rw [step, serve]
    cases hphase : task.phase <;> simp_all [isAlive, execute]
  have hended : task.stop.1.isAlive = false := by
    rw [stop_eq]
    rfl
  rw [run_cons, hstep, run_of_not_isAlive hended, List.append_nil]

/-! ## All requests -/

/-- The answers to commands are those to the commands for whose answers somebody waits. -/
theorem map_some_answers (served : List (Machine × Command)) : (served.filterMap fun sent => sent.2.answer sent.1).map some =
    (served.filter (·.2.wantsAnswer)).map fun sent => sent.2.answer sent.1 := by
  induction served with
  | nil => rfl
  | cons sent rest ih =>
    have hwants := sent.2.isSome_answer sent.1
    cases hanswer : sent.2.answer sent.1 with
    | none =>
      rw [hanswer, Option.isSome_none] at hwants
      simp only [List.filterMap_cons, List.filter_cons, hanswer, ← hwants, Bool.false_eq_true, if_false, ih]
    | some answer =>
      rw [hanswer, Option.isSome_some] at hwants
      simp only [List.filterMap_cons, List.filter_cons, hanswer, ← hwants, if_true, List.map_cons, ih]

/-- A notice that waits for a frame is told by it or waits on. -/
theorem told_or_waits (task : Task) :
    (if task.machine.atRomReady then task.notice.toList.map fun notice => (notice, true) else []).map (·.1) ++
      (if task.machine.atRomReady then [] else task.notice.toList) = task.notice.toList := by
  split <;> simp [Function.comp_def]

/-- What becomes of the requests that reach a task in a run. -/
structure Settled (start : Task) (events : List TaskEvent) : Prop where
  /-- Of the commands that are served each is answered once if somebody waits for an answer, and not at all if nobody does. -/
  answered : (answers (start.run events).2).map some =
    ((start.served events).filter (·.2.wantsAnswer)).map fun sent => sent.2.answer sent.1
  /-- Unless the task fails, the queue alone decides what is served; and each notice of a reset that is served has been told
  once when the task ends, at the latest because nobody can send to it any more. -/
  unfailed : (start.run events).1.phase ≠ .failed →
    (start.served events).map (·.2) = Command.heard (events.filterMap TaskEvent.command?) ∧
      (told ((start.run events).2 ++ (start.run events).1.hangUp.2)).map (·.1) =
        (Command.heard (events.filterMap TaskEvent.command?)).filterMap Command.notice?
  /-- A task fails on a frame that falls due while the rate is no number. It has served the queue up to there and serves no more,
  and the notice that waits then is told only if that very frame finds the ROM ready. -/
  failed : (start.run events).1.phase = .failed → ∃ past rest, events = past ++ .frameDue :: rest ∧
    (start.run past).1.failsOn .frameDue = true ∧
      (start.served events).map (·.2) = Command.heard (past.filterMap TaskEvent.command?) ∧
      (told ((start.run events).2 ++ (start.run events).1.hangUp.2)).map (·.1) ++
        (if (start.run past).1.machine.atRomReady then [] else (start.run past).1.notice.toList) =
          (Command.heard (past.filterMap TaskEvent.command?)).filterMap Command.notice?
  /-- A pause leaves machine and receivers as they are. From then on nothing at all changes, and all is dropped, until the first
  request to end. That is answered, and nothing that follows is served. -/
  frozen : ∀ past, (start.run past).1.phase = .running →
    let before := (start.run past).1
    let paused := (start.run (past ++ [.command .pause])).1
    (paused.machine = before.machine ∧ paused.displays = before.displays ∧ paused.speakers = before.speakers) ∧
      ∀ rest, .terminate ∉ rest.filterMap TaskEvent.command? →
        paused.run rest = (paused, drops (rest.filterMap TaskEvent.command?)) ∧
          ∀ later, paused.run (rest ++ .command .terminate :: later) =
            (paused.ended .stopped, drops (rest.filterMap TaskEvent.command?) ++
              [.answer .done, report .debug "emulator task stopped"])
  /-- A running task that is asked to end answers, and serves nothing that follows. -/
  ended : ∀ past, (start.run past).1.phase = .running → ∀ later,
    start.run (past ++ .command .terminate :: later) = ((start.run past).1.ended .stopped,
      (start.run past).2 ++ .answer .done :: (((start.run past).1.notice.toList.map fun notice => .notify notice false) ++
        [report .debug "emulator task stopped"]))

/-- Whatever is asked of a new task, in whatever order and whenever frames fall due. -/
theorem requests_settled (machine : Machine) (events : List TaskEvent) : Settled { machine := machine } events where
  answered := by rw [answers_run, map_some_answers]
  unfailed h := by
    have hserved := served_run { machine := machine } events h
    have htidy : (Task.run { machine := machine } events).1.Tidy := Tidy.run (fun _ => rfl) events
    refine ⟨hserved, ?_⟩
    rw [told_append, List.map_append, htidy.told_hangUp, told_notice_run _ _ h, filterMap_served, hserved]
    rfl
  failed h := by
    obtain ⟨past, rest, rfl, hpast, hfails⟩ := split_of_failed (by simp) h
    have hserved := served_run { machine := machine } past hpast
    have htold := told_notice_run { machine := machine } past hpast
    obtain ⟨hnone, hlast⟩ := run_of_failsOn hfails rest
    refine ⟨past, rest, rfl, hfails, ?_, ?_⟩
    · rw [served_append, hnone, List.append_nil, hserved]
      rfl
    · rw [run_append, List.append_assoc, told_append, hlast, List.map_append, List.append_assoc, told_or_waits, htold,
        filterMap_served, hserved]
      rfl
  frozen past h := by
    intro before paused
    have hstep : before.step (.command .pause) = before.pause := step_of_running h _
    have hpaused : paused = { before with notice := none, phase := .paused } := by
      have hrun : paused = (before.step (.command .pause)).1 := congrArg (·.1) (run_append _ past [.command .pause])
      rw [hrun, hstep, pause_eq]
    rw [hpaused]
    refine ⟨⟨rfl, rfl, rfl⟩, fun rest hrest => ?_⟩
    have hdropped : ({ before with notice := none, phase := .paused } : Task).run rest = _ := run_of_paused rfl hrest
    refine ⟨hdropped, fun later => ?_⟩
    rw [run_append, hdropped, run_terminate rfl, stop_eq]
    rfl
  ended past h later := by
    rw [run_append, run_terminate (by simp [isAlive, h]), stop_eq]

/-- A reset with a notice, a snapshot and a pause; then a frame that is asked for, one that falls due, and two requests to end. -/
def pausedQueue : List TaskEvent :=
  [.command (.reset (some 0)), .command .makeSnapshot] ++ [.command .pause] ++
    ([.command (.renderFrame true), .frameDue] ++ .command .terminate :: [.command .terminate])

/-- The snapshot, the pause and the first request to end are answered, and the notice is told by the pause. -/
theorem requests_settled_pausedQueue : ∃ machine, Machine.create { rom := List.replicate Memory.romSize 0 } = .ok machine ∧
    let start : Task := { machine := machine }
    (answers (start.run pausedQueue).2).length = 3 ∧
      (told ((start.run pausedQueue).2 ++ (start.run pausedQueue).1.hangUp.2)).map (·.1) = [0] := by
  refine ⟨_, Machine.create_eq_ok_iff.mpr ⟨List.length_replicate, rfl⟩, ?_⟩
  generalize Machine.reset _ = machine
  intro start
  have settled : start.Settled pausedQueue := requests_settled machine pausedQueue
  have hrunning : (start.run [.command (.reset (some 0)), .command .makeSnapshot]).1.phase = .running := by
    rw [run_cons, step_of_running rfl, execute, reset_fst]
    rfl
  have hstopped : (start.run pausedQueue).1.phase = .stopped := by
    rw [pausedQueue, run_append, ((settled.frozen _ hrunning).2 _ (by simp [TaskEvent.command?])).2]
    rfl
  obtain ⟨hserved, htold⟩ := settled.unfailed (by simp [hstopped])
  have hlength := congrArg List.length settled.answered
  have hwaiting := congrArg (List.countP Command.wantsAnswer) hserved
  rw [List.length_map, List.length_map] at hlength
  rw [List.countP_map, List.countP_eq_length_filter] at hwaiting
  exact ⟨hlength.trans hwaiting, htold⟩

/-- A rate that is no number. -/
def undefinedRate : FrameRate := ⟨0x7FC00000⟩

/-- The frame rate is set to no number, the machine is reset with a notice and run in real-time mode. The first frame that is due
ends the task, and the notice is never told. -/
theorem not_told_undefinedRate : ∃ machine, Machine.create { rom := List.replicate Memory.romSize 0 } = .ok machine ∧
    let start : Task := { machine := machine }
    let events := [.command (.setFrameRate undefinedRate), .command (.reset (some 0)), .command (.runRealtime true), .frameDue]
    (start.served events).map (·.2) = [.setFrameRate undefinedRate, .reset (some 0), .runRealtime true] ∧
      (start.run events).1.phase = .failed ∧ told ((start.run events).2 ++ (start.run events).1.hangUp.2) = [] := by
  refine ⟨_, Machine.create_eq_ok_iff.mpr ⟨List.length_replicate, rfl⟩, ?_⟩
  rw [Machine.romKindOf_of_not_mem (by simp [List.mem_replicate])]
  generalize hmachine : Machine.reset _ = machine
  intro start events
  have hkind : (machine.setFrameRate undefinedRate).romKind ≠ .openSe := by
    rw [← hmachine]
    exact RomKind.noConfusion
  let pending : Task := { machine := (machine.setFrameRate undefinedRate).reset, notice := some 0, realtime := true }
  have hfails : pending.failsOn .frameDue = true := by
    have hnan : undefinedRate.effective.isNan = true := by decide
    exact decide_eq_true ⟨rfl, rfl, hnan⟩
  have hrated : (start.step (.command (.setFrameRate undefinedRate))).1 = { machine := machine.setFrameRate undefinedRate } := rfl
  have hreset : Task.step { machine := machine.setFrameRate undefinedRate } (.command (.reset (some 0))) =
      ({ pending with realtime := false }, [report .info "reset"]) := by
    rw [step_of_running rfl, execute, reset_of_notice_none hkind rfl]
  have hrealtime : Task.step { pending with realtime := false } (.command (.runRealtime true)) = (pending, []) := rfl
  have hrun : start.run events =
      ((pending.run [.frameDue]).1, (start.step (.command (.setFrameRate undefinedRate))).2 ++ ([report .info "reset"] ++
        (pending.run [.frameDue]).2)) := by
    rw [run_cons, hrated, run_cons, hreset, run_cons, hrealtime, List.nil_append]
  refine ⟨?_, ?_, ?_⟩
  · rw [served, hrated, served, hreset, served, hrealtime]
    rfl
  · rw [hrun, run_cons, run, phase_step, if_pos hfails]
  · rw [hrun, List.append_assoc, List.append_assoc, told_append, told_append, (run_of_failsOn hfails []).2]
    rfl

end Task

end ZxSpectrum
