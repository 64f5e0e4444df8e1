import ZxSpectrum.Proofs.DisplayRows
import ZxSpectrum.Proofs.TaskSteps

/-!
# Displays over a run

A run of the task with what happens at the receiving ends of its displays, and with one of the displays watched (`Watch`): the
frames that are offered to it and those that it takes. Whatever happens and however slowly it drains its channel, it draws
every frame that it gets, and a cell is drawn again only for a reason (`display_keeps_up`). The invariant is `Tracks`: the
offers form a row, with the next one too as long as the display is attached, and what was sent was taken or waits.
-/

namespace ZxSpectrum

open Ula Ula.Shadow

/-! ## What an event does to the displays -/

namespace Machine

/-- After a reset no frame has begun. -/
theorem continues_reset (machine other : Machine) : machine.reset.Continues other := Or.inl rfl

theorem continues_restore (machine : Machine) (snapshot : Snapshot) (other : Machine) :
    (machine.restore snapshot).Continues other := Or.inl rfl

/-- Inputs leave the screen alone. -/
theorem continues_modifyPorts (machine : Machine) (f : Ports → Ports) : (machine.modifyPorts f).Continues machine :=
  Or.inr ⟨rfl, rfl, rfl, rfl⟩

end Machine

namespace Task

variable {task : Task}

/-- What an event leaves if no frame is run: the screen stays or starts anew, and the displays stay, are all detached or are
joined by a new one. -/
structure Idles (task : Task) (event : TaskEvent) (next : Task) : Prop where
  machine : next.machine.Continues task.machine
  displays : next.displays = task.displays ∨ next.displays = task.displays.map DisplayFeed.detach ∨
    ∃ channel, event = .command (.addDisplay channel) ∧ next.displays = task.displays ++ [{ channel := channel }]

variable {event : TaskEvent} {next : Task}

/-- The machine goes on, and the displays stay. -/
theorem Idles.same (hmachine : next.machine.Continues task.machine) (hdisplays : next.displays = task.displays) :
    task.Idles event next := ⟨hmachine, Or.inl hdisplays⟩

theorem idles_refl (task : Task) (event : TaskEvent) : task.Idles event task := .same (.refl _) rfl

theorem idles_stop (task : Task) (event : TaskEvent) : task.Idles event task.stop.1 := by
  have hstop : task.stop.1 = (task.tellNotice false).1.ended .stopped := rfl
  rw [hstop, tellNotice_fst]
  exact ⟨.refl _, Or.inr (Or.inl rfl)⟩

theorem idles_pause (task : Task) (event : TaskEvent) : task.Idles event task.pause.1 := by
  have hpause : task.pause.1 = { (task.tellNotice false).1 with phase := .paused } := rfl
  rw [hpause, tellNotice_fst]
  exact .same (.refl _) rfl

theorem idles_load (task : Task) (event : TaskEvent) (snapshot : Snapshot) (format : SnapshotFormat) :
    task.Idles event (task.load snapshot format).1 := by
  unfold load
  split
  · rename_i machine hload
    refine .same ?_ rfl
    rw [(Machine.loadSnapshot_eq_ok_iff.mp hload).2]
    exact Machine.continues_restore _ _ _
  · exact idles_refl task event

theorem idles_reset (task : Task) (event : TaskEvent) (notice : Option Nat) :
    task.Idles event (task.reset notice).1 := by
  rw [reset_fst]
  exact .same (Machine.continues_reset _ _) rfl

/-- A command that runs no frame. -/
theorem idles_execute (task : Task) (command : Command) (h : ∀ awaited, command ≠ .renderFrame awaited) :
    task.Idles (.command command) (task.execute command).1 := by
  cases command with
  | renderFrame awaited => exact absurd rfl (h awaited)
  | reset notice => exact task.idles_reset _ notice
  | addDisplay channel => exact ⟨.refl _, Or.inr (Or.inr ⟨channel, rfl, rfl⟩)⟩
  | closeDisplays => exact ⟨.refl _, Or.inr (Or.inl rfl)⟩
  | setFrameRate rate => exact .same (Or.inr ⟨rfl, rfl, rfl, rfl⟩) rfl
  | setAccurate on => exact .same (Or.inr ⟨rfl, rfl, rfl, rfl⟩) rfl
  | loadSnapshot snapshot format => exact task.idles_load _ snapshot format
  | setAcceleratedLoad on => exact .same (Machine.continues_modifyPorts _ _) rfl
  | pressKey key => exact .same (Machine.continues_modifyPorts _ _) rfl
  | releaseKey key => exact .same (Machine.continues_modifyPorts _ _) rfl
  | setJoystick bits => exact .same (Machine.continues_modifyPorts _ _) rfl
  | setTapeEar ear => exact .same (Machine.continues_modifyPorts _ _) rfl
  | pause => exact task.idles_pause _
  | terminate => exact task.idles_stop _
  | runRealtime | addSpeaker | closeSpeakers | makeSnapshot | copyScreen => exact .same (.refl _) rfl

/-- An event on which no frame is run. -/
theorem idles_step (task : Task) {event : TaskEvent} (h : task.rendersOn event = false) :
    task.Idles event (task.step event).1 := by
  cases event with
  | frameDue =>
    have hidle : ¬ (task.phase = .running ∧ task.realtime = true) := by simpa [rendersOn] using h
    rw [step, frameDue, if_neg hidle]
    exact task.idles_refl _
  | command command =>
    change task.Idles _ (task.serve command).1
    unfold serve
    split
    · rename_i hphase
      refine task.idles_execute command ?_
      rintro awaited rfl
      simp [rendersOn, hphase] at h
    · split
      · exact task.idles_stop _
      · exact task.idles_refl _
    · exact task.idles_refl _
    · exact task.idles_refl _

/-- An event on which a frame is run: it is offered to all displays, and they may all be detached then. -/
theorem step_of_rendersOn (task : Task) {event : TaskEvent} (h : task.rendersOn event = true) :
    (task.step event).1.machine = task.machine.renderFrame ∧
      ((task.step event).1.displays = task.displaysAfter task.machine.renderFrame ∨
        (task.step event).1.displays = (task.displaysAfter task.machine.renderFrame).map DisplayFeed.detach) := by
  have hmachine : task.renderFrame.1.machine = task.machine.renderFrame := by rw [renderFrame_fst]
  have hdisplays : task.renderFrame.1.displays = task.displaysAfter task.machine.renderFrame := by rw [renderFrame_fst]
  cases event with
  | frameDue =>
    have hdue : task.phase = .running ∧ task.realtime = true := by simpa [rendersOn] using h
    rw [step, frameDue, if_pos hdue]
    generalize task.renderFrame = pair at hmachine hdisplays ⊢
    dsimp only
    split
    · refine ⟨hmachine, Or.inr ?_⟩
      rw [← hdisplays]
      rfl
    · exact ⟨hmachine, Or.inl hdisplays⟩
  | command command =>
    cases command with
    | renderFrame awaited =>
      have hphase : task.phase = .running := by simpa [rendersOn] using h
      have hserve : task.step (.command (.renderFrame awaited)) = task.execute (.renderFrame awaited) := by
        simp only [step, serve, hphase]
      rw [hserve]
      exact ⟨hmachine, Or.inl hdisplays⟩
    | _ => exact absurd h Bool.false_ne_true

end Task

/-! ## The run -/

/-- What happens to the task and at the receiving ends of its displays. A display is named by its place among all that were ever
attached. -/
inductive DisplayEvent where
  | task (event : TaskEvent)
  /-- A display takes the frame that has waited longest, if there is one. -/
  | receive (display : Nat)
  /-- The room of a channel changes. Where no frame can wait there is room for one while the receiver waits for it. -/
  | resize (display capacity : Nat)
  /-- The receiver of a display goes away. -/
  | dropReceiver (display : Nat)

/-- Changes the feed of a display. -/
def Task.modifyDisplay (task : Task) (display : Nat) (f : DisplayFeed → DisplayFeed) : Task :=
  { task with displays := task.displays.modify display f }

/-- The frame that an event offers to a display, if it does. -/
def Task.offers (task : Task) (display : Nat) (event : TaskEvent) : List Offer :=
  match task.displays[display]? with
  | some feed => if task.rendersOn event ∧ feed.attached then [⟨task.machine, feed⟩] else []
  | none => []

/-- The frame that a display takes, if there is one. -/
def Task.taken (task : Task) (display : Nat) : List DisplayData :=
  match task.displays[display]? with
  | some feed => feed.taken
  | none => []

/-- The task and all that one of its displays has seen. -/
structure Watch where
  task : Task
  /-- The frames that were offered to it, oldest first. -/
  offers : List Offer := []
  /-- The frames that it has taken, oldest first. -/
  received : List DisplayData := []

namespace Watch

/-- What an event does, with the display at place `display` watched. -/
def step (display : Nat) (watch : Watch) : DisplayEvent → Watch
  | .task event =>
    { watch with
      task := (watch.task.step event).1
      offers := watch.offers ++ watch.task.offers display event }
  | .receive other =>
    { watch with
      task := watch.task.modifyDisplay other fun feed => feed.receive.2
      received := watch.received ++ if other = display then watch.task.taken display else [] }
  | .resize other capacity => { watch with task := watch.task.modifyDisplay other (·.resize capacity) }
  | .dropReceiver other => { watch with task := watch.task.modifyDisplay other (·.dropReceiver) }

/-- What a row of events does to the task of a new machine, with the display at place `display` watched. -/
def run (display : Nat) (machine : Machine) (events : List DisplayEvent) : Watch :=
  events.foldl (step display) { task := { machine := machine } }

/-- The invariant of a run: nothing has been seen of a display that is not there yet. -/
structure Faithful (display : Nat) (watch : Watch) : Prop where
  absent : watch.task.displays[display]? = none → watch.offers = [] ∧ watch.received = []
  present : ∀ feed, watch.task.displays[display]? = some feed →
    Tracks watch.task.machine feed watch.offers watch.received

namespace Faithful

variable {display : Nat} {watch next : Watch}

theorem start (display : Nat) (machine : Machine) : Faithful display { task := { machine := machine } } where
  absent _ := ⟨rfl, rfl⟩
  present _ h := nomatch h

/-- What changes the feeds one by one keeps the invariant if it does so at the feed that is watched. -/
theorem map (faithful : Faithful display watch) (f : DisplayFeed → DisplayFeed)
    (hget : next.task.displays[display]? = watch.task.displays[display]?.map f)
    (hnone : watch.task.displays[display]? = none → next.offers = watch.offers ∧ next.received = watch.received)
    (hsome : ∀ feed, watch.task.displays[display]? = some feed →
      Tracks watch.task.machine feed watch.offers watch.received →
        Tracks next.task.machine (f feed) next.offers next.received) : Faithful display next := by
  refine ⟨fun habsent => ?_, fun feed hpresent => ?_⟩
  · rw [hget, Option.map_eq_none_iff] at habsent
    rw [(hnone habsent).1, (hnone habsent).2]
    exact faithful.absent habsent
  · rw [hget, Option.map_eq_some_iff] at hpresent
    obtain ⟨before, hbefore, rfl⟩ := hpresent
    exact hsome before hbefore (faithful.present before hbefore)

/-- An event on which a frame is run. -/
theorem renders (faithful : Faithful display watch) {event : TaskEvent} (h : watch.task.rendersOn event = true) :
    Faithful display (watch.step display (.task event)) := by
  obtain ⟨hmachine, hdisplays⟩ := watch.task.step_of_rendersOn h
  have hoffers : ∀ feed, watch.task.displays[display]? = some feed → watch.task.offers display event =
      if feed.attached then [⟨watch.task.machine, feed⟩] else [] := by
    intro feed hfeed
    simp only [Task.offers, hfeed, h, true_and]
  have hnone : watch.task.displays[display]? = none →
      watch.offers ++ watch.task.offers display event = watch.offers ∧ watch.received = watch.received := by
    intro hfeed
    simp [Task.offers, hfeed]
  have hframe : ∀ feed, watch.task.displays[display]? = some feed →
      Tracks watch.task.machine feed watch.offers watch.received →
        Tracks (watch.task.step event).1.machine (feed.offerFrame watch.task.machine.renderFrame).1
          (watch.offers ++ watch.task.offers display event) watch.received := by
    intro feed hfeed tracks
    rw [hmachine, hoffers feed hfeed]
    exact tracks.offerFrame
  rcases hdisplays with hdisplays | hdisplays
  · refine faithful.map (fun feed => (feed.offerFrame watch.task.machine.renderFrame).1) ?_ hnone hframe
    change (watch.task.step event).1.displays[display]? = _
    rw [hdisplays, Task.displaysAfter, List.getElem?_map]
  · refine faithful.map (fun feed => (feed.offerFrame watch.task.machine.renderFrame).1.detach) ?_ hnone
      fun feed hfeed tracks => (hframe feed hfeed tracks).detach
    change (watch.task.step event).1.displays[display]? = _
    rw [hdisplays, Task.displaysAfter, List.map_map, List.getElem?_map]
    rfl

/-- A new display joins behind the others. -/
theorem attach (faithful : Faithful display watch) {channel : Channel DisplayData} (hnew : channel.items = [])
    (hmachine : next.task.machine.Continues watch.task.machine)
    (hdisplays : next.task.displays = watch.task.displays ++ [{ channel := channel }])
    (hoffers : next.offers = watch.offers) (hreceived : next.received = watch.received) : Faithful display next := by
  refine ⟨fun habsent => ?_, fun feed hpresent => ?_⟩
  · rw [hdisplays, List.getElem?_eq_none_iff, List.length_append] at habsent
    rw [hoffers, hreceived]
    exact faithful.absent (List.getElem?_eq_none_iff.mpr (by omega))
  · rw [hdisplays, List.getElem?_append] at hpresent
    rw [hoffers, hreceived]
    split at hpresent
    · exact (faithful.present feed hpresent).continues hmachine
    · rename_i hbeyond
      obtain ⟨ho, hr⟩ := faithful.absent (List.getElem?_eq_none_iff.mpr (Nat.le_of_not_lt hbeyond))
      obtain rfl := List.mem_singleton.mp (List.mem_of_getElem? hpresent)
      rw [ho, hr]
      exact .new _ hnew

/-- An event on which no frame is run; a display that it attaches is new. -/
theorem idles (faithful : Faithful display watch) {event : TaskEvent} (h : watch.task.rendersOn event = false)
    (hnew : ∀ channel, event = .command (.addDisplay channel) → channel.items = []) :
    Faithful display (watch.step display (.task event)) := by
  obtain ⟨hmachine, hdisplays⟩ := watch.task.idles_step h
  have hoffers : (watch.step display (.task event)).offers = watch.offers := by
    change watch.offers ++ watch.task.offers display event = watch.offers
    unfold Task.offers
    cases watch.task.displays[display]? <;> simp [h]
  rcases hdisplays with hsame | hdetached | ⟨channel, hevent, hjoined⟩
  · refine faithful.map id ?_ (fun _ => ⟨hoffers, rfl⟩) fun feed _ tracks => ?_
    · change (watch.task.step event).1.displays[display]? = _
      rw [hsame, Option.map_id, id]
    · rw [hoffers]
      exact tracks.continues hmachine
  · refine faithful.map DisplayFeed.detach ?_ (fun _ => ⟨hoffers, rfl⟩) fun feed _ tracks => ?_
    · change (watch.task.step event).1.displays[display]? = _
      rw [hdetached, List.getElem?_map]
    · rw [hoffers]
      exact (tracks.continues hmachine).detach
  · exact faithful.attach (hnew channel hevent) hmachine hjoined hoffers rfl

/-- Something happens at the receiving end of a display. -/
theorem modify (faithful : Faithful display watch) (other : Nat) (f : DisplayFeed → DisplayFeed)
    (hf : ∀ {machine feed offers received}, Tracks machine feed offers received → Tracks machine (f feed) offers received) :
    Faithful display { watch with task := watch.task.modifyDisplay other f } := by
  refine faithful.map (fun feed => if other = display then f feed else feed) ?_ (fun _ => ⟨rfl, rfl⟩)
    fun feed _ tracks => ?_
  · exact List.getElem?_modify f other _ display
  · split
    · exact hf tracks
    · exact tracks

/-- A display takes a frame. -/
theorem receive (faithful : Faithful display watch) (other : Nat) :
    Faithful display (watch.step display (.receive other)) := by
  refine faithful.map (fun feed => if other = display then feed.receive.2 else feed) ?_ (fun hfeed => ⟨rfl, ?_⟩)
    fun feed hfeed tracks => ?_
  · exact List.getElem?_modify (fun feed : DisplayFeed => feed.receive.2) other _ display
  · change watch.received ++ _ = _
    simp [Task.taken, hfeed]
  · change Tracks watch.task.machine _ watch.offers (watch.received ++ _)
    split
    · simp only [Task.taken, hfeed]
      exact tracks.receive
    · rw [List.append_nil]
      exact tracks

end Faithful

/-- Every display is attached with a channel in which nothing waits. -/
def OpensEmpty (events : List DisplayEvent) : Prop :=
  ∀ channel, DisplayEvent.task (.command (.addDisplay channel)) ∈ events → channel.items = []

/-- An event keeps the invariant. -/
theorem Faithful.step {display : Nat} {watch : Watch} (faithful : Faithful display watch) (event : DisplayEvent)
    (hnew : OpensEmpty [event]) : Faithful display (watch.step display event) := by
  cases event with
  | task event =>
    by_cases h : watch.task.rendersOn event = true
    · exact faithful.renders h
    · refine faithful.idles (eq_false_of_ne_true h) ?_
      rintro channel rfl
      exact hnew channel (List.mem_singleton_self _)
  | receive other => exact faithful.receive other
  | resize other capacity => exact faithful.modify other _ fun tracks => tracks.resize capacity
  | dropReceiver other => exact faithful.modify other _ fun tracks => tracks.dropReceiver

/-- A run keeps the invariant. -/
theorem faithful_run (display : Nat) (machine : Machine) {events : List DisplayEvent} (hnew : OpensEmpty events) :
    Faithful display (run display machine events) := by
  refine List.foldlRecOn events (step display) (Faithful.start display machine) fun watch faithful event hevent => ?_
  refine faithful.step event fun channel hin => hnew channel ?_
  rw [List.mem_singleton.mp hin]
  exact hevent

/-- A display keeps up with the machine by drawing what is dirty. Whatever happens to the task of a machine and at the receiving
ends of its displays, the frames that a display has taken are, in order, those that got through to it; if it copies the dirty
cells of each into the picture that it keeps, whatever that was at first, then after each it keeps all of the frame. And of
two frames that are offered to it one after the other, the second is the first after a reset or the next number; if the first
got through, then a cell is dirty in the second only if a byte of the cell changed in the one or the other, or if the flash
phase flips and the cell shows a flashing attribute. -/
theorem display_keeps_up (display : Nat) (machine : Machine) {events : List DisplayEvent} (hnew : OpensEmpty events) :
    let watch := run display machine events
    watch.received <+: watch.offers.filterMap Offer.sent? ∧
      (∀ seen data rest, watch.received = seen ++ data :: rest →
        ∀ picture, drawn picture (seen ++ [data]) = data.screen.picture) ∧
      ∀ earlier first second rest, watch.offers = earlier ++ first :: second :: rest → second.data.frame ≠ 1 →
        second.data.frame = first.data.frame + 1 ∧
          (first.outcome = .sent → ∀ cell (h : cell < 768), second.data.screen.dirty[cell] = true →
            (∃ address ∈ first.machine.changes ++ second.machine.changes, address ∈ bytesOfCell cell) ∨
              (second.shown.board.shadow.flips = true ∧ second.shown.showsFlash cell = true)) := by
  intro watch
  have faithful : Faithful display watch := faithful_run display machine hnew
  have hall : Row watch.offers ∧ watch.received <+: watch.offers.filterMap Offer.sent? := by
    cases hfeed : watch.task.displays[display]? with
    | none =>
      rw [(faithful.absent hfeed).1, (faithful.absent hfeed).2]
      exact ⟨.nil, List.nil_prefix⟩
    | some feed =>
      have tracks := faithful.present feed hfeed
      exact ⟨tracks.row, (List.prefix_append _ _).trans tracks.queue⟩
  obtain ⟨row, hreceived⟩ := hall
  refine ⟨hreceived, fun seen data rest hsplit picture => ?_, fun earlier first second rest hsplit hframe => ?_⟩
  · rw [hsplit] at hreceived
    exact row.drawn_eq hreceived picture
  · rw [hsplit] at row
    have follows := row.follows_of_split
    refine ⟨follows.frame hframe, fun hsent cell hc hdirty => ?_⟩
    exact (follows.cause_of_dirty hsent hc hdirty).resolve_left hframe

/-- A display with room for one frame takes the first frame when two have been run, and the third. -/
def slowDisplay : List DisplayEvent :=
  [.task (.command (.addDisplay { capacity := 1 })), .task (.command (.renderFrame false)),
    .task (.command (.renderFrame false)), .receive 0, .task (.command (.renderFrame false)), .receive 0]

/-- A frame that a running task runs without a notice. -/
theorem step_renderFrame (display : Nat) {watch : Watch} (hphase : watch.task.phase = .running)
    (hnotice : watch.task.notice = none) : watch.step display (.task (.command (.renderFrame false))) =
      { watch with
        task :=
          { watch.task with
            machine := watch.task.machine.renderFrame
            displays := watch.task.displaysAfter watch.task.machine.renderFrame
            speakers := watch.task.speakers.map fun feed => (feed.offerFrame watch.task.machine.renderFrame).1 }
        offers := watch.offers ++ watch.task.offers display (.command (.renderFrame false)) } := by
  have hserve : (watch.task.serve (.renderFrame false)).1 = watch.task.renderFrame.1 := by
    simp only [Task.serve, hphase, Task.execute]
  have hnone : (if watch.task.machine.atRomReady then none else watch.task.notice) = watch.task.notice := by
    rw [hnotice, ite_self]
  rw [step, Task.step, hserve, Task.renderFrame_fst, hnone]

theorem length_received_slowDisplay (machine : Machine) : (run 0 machine slowDisplay).received.length = 2 := by
  rw [run, slowDisplay, List.foldl_cons, List.foldl_cons, step_renderFrame, List.foldl_cons, step_renderFrame,
    List.foldl_cons, List.foldl_cons, step_renderFrame]
  all_goals rfl

/-- A frame is offered three times and gets through twice; what is drawn of the third repairs what the second left out. -/
theorem display_keeps_up_slowDisplay : ∃ machine, Machine.create { rom := List.replicate 16384 0 } = .ok machine ∧
    OpensEmpty slowDisplay ∧ (run 0 machine slowDisplay).received.length = 2 ∧
      ∀ first second, (run 0 machine slowDisplay).received = [first, second] → ∀ picture : Picture,
        picture.draw first.screen = first.screen.picture ∧
          (picture.draw first.screen).draw second.screen = second.screen.picture := by
  refine ⟨_, Machine.create_eq_ok_iff.mpr ⟨List.length_replicate, rfl⟩, ?_⟩
  generalize Machine.reset _ = machine
  have hnew : OpensEmpty slowDisplay := by
    intro channel hin
    obtain rfl : channel = { capacity := 1 } := by simpa [slowDisplay] using hin
    rfl
  refine ⟨hnew, length_received_slowDisplay machine, fun first second hreceived picture => ?_⟩
  have hdrawn := (display_keeps_up 0 machine hnew).2.1
  exact ⟨hdrawn [] first [second] hreceived picture, hdrawn [first] second [] hreceived picture⟩

end Watch

end ZxSpectrum
