import Mathlib.Data.List.Chain
import ZxSpectrum.Proofs.ChangeLogs

/-!
# Change logs and history

The history of a value is a list of changes with absolute times, and `valueAt` reads it. Within a frame a log tells the
history so far (`Tells`): recording a change that is later than all others adds it to both (`Tells.record`). A closed log
shows the part of the history that lies in the frame (`Tells.shows`), and what it carries over tells the rest
(`Tells.endFrame`), from which the log of the next frame begins (`Carries.beginFrame`).
-/

namespace ZxSpectrum

open Ula

/-- The value at a time: that of the last change that is not later. -/
def valueAt (initial : UInt8) (events : List Event) (time : Nat) : UInt8 :=
  ((events.filter (·.tstate ≤ time)).getLast?.map (·.value)).getD initial

/-! ## Reading a history -/

section valueAt

variable {initial : UInt8} {events : List Event} {time : Nat}

@[simp] theorem valueAt_nil (initial : UInt8) (time : Nat) : valueAt initial [] time = initial := rfl

/-- A later part of a history begins with the value that the earlier part ends with. -/
theorem valueAt_append (initial : UInt8) (events later : List Event) (time : Nat) :
    valueAt initial (events ++ later) time = valueAt (valueAt initial events time) later time := by
  unfold valueAt
  rw [List.filter_append, List.getLast?_append]
  cases (later.filter (·.tstate ≤ time)).getLast? <;> rfl

theorem valueAt_singleton (initial : UInt8) (event : Event) (time : Nat) :
    valueAt initial [event] time = if event.tstate ≤ time then event.value else initial := by
  unfold valueAt
  by_cases h : event.tstate ≤ time
  · simp [h]
  · simp [h]

theorem valueAt_cons (initial : UInt8) (event : Event) (events : List Event) (time : Nat) :
    valueAt initial (event :: events) time =
      valueAt (if event.tstate ≤ time then event.value else initial) events time := by
  rw [← List.singleton_append, valueAt_append, valueAt_singleton]

/-- Changes that are still to come do not count. -/
theorem valueAt_of_lt (h : ∀ event ∈ events, time < event.tstate) : valueAt initial events time = initial := by
  have hnone : events.filter (·.tstate ≤ time) = [] := by
    rw [List.filter_eq_nil_iff]
    intro event he
    have := h event he
    simp only [decide_eq_true_eq]
    omega
  rw [valueAt, hnone]
  rfl

/-- Once all changes have been made the last one counts. -/
theorem valueAt_of_le (h : ∀ event ∈ events, event.tstate ≤ time) :
    valueAt initial events time = (events.getLast?.map (·.value)).getD initial := by
  have hall : events.filter (·.tstate ≤ time) = events := by
    rw [List.filter_eq_self]
    exact fun event he => decide_eq_true (h event he)
  rw [valueAt, hall]

/-- A history whose times are counted from somewhere else reads the same. -/
theorem valueAt_map {moved : Event → Event} {other : Nat} (hvalue : ∀ event, (moved event).value = event.value)
    (htime : ∀ event ∈ events, (moved event).tstate ≤ other ↔ event.tstate ≤ time) :
    valueAt initial (events.map moved) other = valueAt initial events time := by
  induction events generalizing initial with
  | nil => rfl
  | cons event rest ih =>
    rw [List.map_cons, valueAt_cons, valueAt_cons, hvalue, ih fun other ho => htime other (List.mem_cons_of_mem _ ho)]
    simp only [htime event List.mem_cons_self]

end valueAt

namespace EventLog

variable {log : EventLog} {event : Event}

/-! ## Tidy logs -/

/-- Each entry is later than the one before it and has another value. -/
structure Tidy (log : EventLog) : Prop where
  times : log.events.Pairwise (·.tstate < ·.tstate)
  values : log.events.IsChain (·.value ≠ ·.value)

theorem tidy_constant (value : UInt8) : Tidy (constant value) :=
  ⟨List.pairwise_singleton _ _, List.isChain_singleton _⟩

/-- No entry is later than the newest one. -/
theorem Tidy.le_last (tidy : Tidy log) : ∀ event ∈ log.events, event.tstate ≤ log.last.tstate := by
  obtain ⟨earlier, hearlier⟩ := List.getLast?_eq_some_iff.mp (getLast?_events log)
  have htimes := tidy.times
  rw [hearlier] at htimes ⊢
  intro event he
  rcases List.mem_append.mp he with he | he
  · exact Nat.le_of_lt ((List.pairwise_append.mp htimes).2.2 event he log.last List.mem_cons_self)
  · rw [List.mem_singleton.mp he]

/-- After its newest entry a log has the value of that one. -/
theorem Tidy.valueAt_of_last_le (tidy : Tidy log) {initial : UInt8} {time : Nat} (h : log.last.tstate ≤ time) :
    valueAt initial log.events time = log.last.value := by
  rw [valueAt_of_le fun event he => Nat.le_trans (tidy.le_last event he) h, getLast?_events]
  rfl

/-- A change at this time takes back none but the value at time 0: it is later than the newest entry, or there is no other
entry than that at time 0. -/
def Fits (log : EventLog) (time : Nat) : Prop := log.last.tstate < time ∨ log.changes = []

/-- A change that fits is no change, or it is one of the value at time 0, or it is a new entry. -/
theorem record_cases (fits : Fits log event.tstate) :
    (log.last.value = event.value ∧ log.record event = log) ∨
    (log.events = [⟨0, log.start⟩] ∧ (log.record event).events = [event] ∧ event.tstate = 0) ∨
    (log.last.tstate < event.tstate ∧ log.last.value ≠ event.value ∧ (log.record event).events = log.events ++ [event]) := by
  unfold record
  by_cases hvalue : log.last.value = event.value
  · exact Or.inl ⟨hvalue, if_pos hvalue⟩
  · rw [if_neg hvalue]
    by_cases htime : log.last.tstate = event.tstate
    · -- Only the entry at time 0 can have the time of a change that fits.
      have hnone : log.changes = [] := fits.resolve_left (by omega)
      have hlast : log.last = ⟨0, log.start⟩ := by rw [last, hnone]; rfl
      have hzero : event.tstate = 0 := by rw [← htime, hlast]
      rw [if_pos htime]
      refine Or.inr (Or.inl ⟨by rw [events, hnone]; rfl, ?_, hzero⟩)
      obtain ⟨time, value⟩ := event
      obtain rfl : time = 0 := hzero
      rw [setLast, hnone]
      simp [events]
    · have hlt : log.last.tstate < event.tstate := by
        rcases fits with h | hnone
        · exact h
        · have hlast : log.last = ⟨0, log.start⟩ := by rw [last, hnone]; rfl
          rw [hlast] at htime ⊢
          exact Nat.pos_of_ne_zero fun h => htime h.symm
      rw [if_neg htime]
      exact Or.inr (Or.inr ⟨hlt, hvalue, by simp [events]⟩)

theorem last_of_events {log : EventLog} {earlier : List Event} {newest : Event} (h : log.events = earlier ++ [newest]) :
    log.last = newest := by
  have hlast := getLast?_events log
  rw [h, List.getLast?_concat] at hlast
  exact (Option.some.inj hlast).symm

theorem Tidy.record (tidy : Tidy log) (fits : Fits log event.tstate) : Tidy (log.record event) := by
  rcases record_cases fits with ⟨-, hsame⟩ | ⟨-, hfirst, -⟩ | ⟨htime, hvalue, hnew⟩
  · rw [hsame]
    exact tidy
  · refine ⟨?_, ?_⟩
    · rw [hfirst]
      exact List.pairwise_singleton _ _
    · rw [hfirst]
      exact List.isChain_singleton _
  · refine ⟨?_, ?_⟩
    · rw [hnew, List.pairwise_append]
      refine ⟨tidy.times, List.pairwise_singleton _ _, fun other ho new hn => ?_⟩
      rw [List.mem_singleton.mp hn]
      exact Nat.lt_of_le_of_lt (tidy.le_last other ho) htime
    · rw [hnew, List.isChain_append]
      refine ⟨tidy.values, List.isChain_singleton _, fun newest hnewest new hn => ?_⟩
      rw [getLast?_events, Option.mem_some_iff] at hnewest
      rw [List.head?_singleton, Option.mem_some_iff] at hn
      rw [← hnewest, ← hn]
      exact hvalue

/-- Recording a change makes it. -/
theorem Tidy.valueAt_record (tidy : Tidy log) (fits : Fits log event.tstate) (initial : UInt8) (time : Nat) :
    valueAt initial (log.record event).events time = valueAt initial (log.events ++ [event]) time := by
  rw [valueAt_append, valueAt_singleton]
  rcases record_cases fits with ⟨hvalue, hsame⟩ | ⟨hold, hfirst, hzero⟩ | ⟨-, -, hnew⟩
  · rw [hsame]
    by_cases htime : event.tstate ≤ time
    · have hlast : log.last.tstate ≤ time := by
        rcases fits with h | hnone
        · omega
        · rw [last, hnone]
          exact Nat.zero_le _
      rw [if_pos htime, tidy.valueAt_of_last_le hlast, hvalue]
    · rw [if_neg htime]
  · rw [hfirst, hold, valueAt_singleton, if_pos (by omega), if_pos (by omega)]
  · rw [hnew, valueAt_append, valueAt_singleton]

/-- After a change that fits, every later one does. -/
theorem Fits.record (fits : Fits log event.tstate) {time : Nat} (h : event.tstate < time) : Fits (log.record event) time := by
  rcases record_cases fits with ⟨-, hsame⟩ | ⟨-, hfirst, -⟩ | ⟨-, -, hnew⟩
  · rw [hsame]
    exact fits.imp (fun hlt => Nat.lt_trans hlt h) id
  · rw [Fits, last_of_events (hfirst.trans (List.nil_append _).symm)]
    exact Or.inl h
  · rw [Fits, last_of_events hnew]
    exact Or.inl h

/-- Replaying changes that fit one after the other makes them. -/
theorem Tidy.foldl_record {replayed : List Event} (tidy : Tidy log) (hsorted : replayed.Pairwise (·.tstate < ·.tstate))
    (hfits : ∀ first ∈ replayed.head?, Fits log first.tstate) :
    Tidy (replayed.foldl EventLog.record log) ∧ ∀ initial time,
      valueAt initial (replayed.foldl EventLog.record log).events time = valueAt initial (log.events ++ replayed) time := by
  induction replayed generalizing log with
  | nil => exact ⟨tidy, fun initial time => by rw [List.append_nil]; rfl⟩
  | cons event rest ih =>
    obtain ⟨hfirst, hrest⟩ := List.pairwise_cons.mp hsorted
    have fits := hfits event rfl
    have hnext : ∀ next ∈ rest.head?, Fits (log.record event) next.tstate := by
      intro next hn
      exact fits.record (hfirst next (List.mem_of_mem_head? hn))
    obtain ⟨htidy, hvalue⟩ := ih (tidy.record fits) hrest hnext
    refine ⟨htidy, fun initial time => ?_⟩
    rw [List.foldl_cons, hvalue, valueAt_append, tidy.valueAt_record fits, ← valueAt_append, List.append_assoc,
      List.singleton_append]

/-! ## Logs and histories -/

/-- A log of the frame that began at the absolute time `start` tells the history so far, and none of it is ahead of the
clock. -/
structure Tells (initial : UInt8) (history : List Event) (start : Nat) (log : EventLog) (clock : Nat) : Prop where
  tidy : Tidy log
  clock : log.last.tstate ≤ clock
  value : ∀ time, valueAt initial log.events time = valueAt initial history (start + time)

/-- What a closed log carries over tells the history from the absolute time `start` on, at which the next frame begins, and
none of it is ahead of the clock. -/
structure Carries (initial : UInt8) (history : List Event) (start : Nat) (log : EventLog) (clock : Nat) : Prop where
  sorted : log.carried.Pairwise (·.tstate < ·.tstate)
  clock : ∀ event ∈ log.carried, event.tstate ≤ clock
  value : ∀ time, valueAt log.boundary log.carried time = valueAt initial history (start + time)

/-- A closed log shows the part of the history that lies in its frame. -/
structure Shows (initial : UInt8) (history : List Event) (start : Nat) (log : EventLog) : Prop where
  value : ∀ time < tstatesPerFrame, valueAt initial log.events time = valueAt initial history (start + time)
  times : log.events.Pairwise (·.tstate < ·.tstate)
  values : log.events.dropLast.IsChain (·.value ≠ ·.value)

section

variable {initial : UInt8} {history : List Event} {start clock : Nat}

/-- Nothing carried over is the whole of an empty history. -/
theorem carries_nil (h : log.carried = []) (start clock : Nat) : Carries log.boundary [] start log clock where
  sorted := by rw [h]; exact List.Pairwise.nil
  clock := by rw [h]; exact fun event he => absurd he List.not_mem_nil
  value time := by rw [h]; rfl

theorem Tells.wait (tells : Tells initial history start log clock) {later : Nat} (h : clock ≤ later) :
    Tells initial history start log later :=
  ⟨tells.tidy, Nat.le_trans tells.clock h, tells.value⟩

/-- A change ahead of the clock is added to the history. -/
theorem Tells.record (tells : Tells initial history start log clock) {later : Nat} (hfrom : clock < event.tstate)
    (hto : event.tstate ≤ later) :
    Tells initial (history ++ [⟨start + event.tstate, event.value⟩]) start (log.record event) later := by
  have fits : Fits log event.tstate := Or.inl (Nat.lt_of_le_of_lt tells.clock hfrom)
  refine ⟨tells.tidy.record fits, ?_, fun time => ?_⟩
  · rcases record_cases fits with ⟨-, hsame⟩ | ⟨-, hfirst, -⟩ | ⟨-, -, hnew⟩
    · rw [hsame]
      exact Nat.le_trans tells.clock (by omega)
    · rw [last_of_events (hfirst.trans (List.nil_append _).symm)]
      exact hto
    · rw [last_of_events hnew]
      exact hto
  · rw [tells.tidy.valueAt_record fits, valueAt_append, valueAt_append, tells.value, valueAt_singleton, valueAt_singleton]
    simp only [Nat.add_le_add_iff_left]

/-- A frame begins with what was carried over. -/
theorem Carries.beginFrame (carries : Carries initial history start log clock) :
    Tells initial history start log.beginFrame clock := by
  have hfits : ∀ first ∈ log.carried.head?, Fits (constant log.boundary) first.tstate := fun _ _ => Or.inr rfl
  obtain ⟨htidy, hvalue⟩ := (tidy_constant log.boundary).foldl_record carries.sorted hfits
  refine ⟨htidy, ?_, fun time => ?_⟩
  · -- The newest entry is the one at time 0 or a change, and these are some of those carried over.
    have hlast : log.beginFrame.last ∈ log.beginFrame.events := List.mem_of_getLast? (getLast?_events _)
    rcases List.mem_cons.mp hlast with h | h
    · rw [h]
      exact Nat.zero_le _
    · have htime : log.beginFrame.last.tstate ∈ log.beginFrame.times := List.mem_map_of_mem h
      obtain ⟨event, he, heq⟩ := List.mem_map.mp ((times_beginFrame log).subset htime)
      rw [← heq]
      exact carries.clock event he
  · rw [← carries.value time]
    have hboundary : valueAt initial (constant log.boundary).events time = log.boundary := by
      rw [events_constant, valueAt_singleton, if_pos (Nat.zero_le _)]
    exact (hvalue initial time).trans (by rw [valueAt_append, hboundary])

/-- The entries of a log in order, up to the end of the frame and past it. -/
theorem events_eq_append (log : EventLog) :
    log.events = (⟨0, log.start⟩ :: log.changes.reverse.takeWhile inFrame) ++ log.late := by
  rw [events, List.cons_append, late, List.takeWhile_append_dropWhile]

theorem Tidy.le_of_mem_late (tidy : Tidy log) : ∀ event ∈ log.late, tstatesPerFrame ≤ event.tstate := by
  have htimes : log.times.Pairwise (· ≤ ·) := by
    rw [EventLog.times, List.pairwise_map]
    exact (List.pairwise_cons.mp tidy.times).2.imp Nat.le_of_lt
  exact (closesInOrder_of_pairwise htimes).2

/-- The value with which the frame ends. -/
theorem valueAt_boundary (log : EventLog) (initial : UInt8) {time : Nat} (h : tstatesPerFrame ≤ time + 1) :
    valueAt initial (⟨0, log.start⟩ :: log.changes.reverse.takeWhile inFrame) time = log.endFrame.boundary := by
  have hall : ∀ event ∈ (⟨0, log.start⟩ :: log.changes.reverse.takeWhile inFrame : List Event), event.tstate ≤ time := by
    intro event he
    rcases List.mem_cons.mp he with rfl | he
    · exact Nat.zero_le _
    · have hlt : event.tstate < tstatesPerFrame :=
        of_decide_eq_true (List.all_eq_true.mp List.all_takeWhile event he)
      omega
  rw [valueAt_of_le hall, List.getLast?_cons]
  rfl

theorem Tells.shows (tells : Tells initial history start log clock) : Shows initial history start log.endFrame := by
  have hsplit := events_eq_append log
  have htimes := tells.tidy.times
  have hvalues := tells.tidy.values
  rw [hsplit] at htimes hvalues
  have hclosed : log.endFrame.events =
      (⟨0, log.start⟩ :: log.changes.reverse.takeWhile inFrame) ++ [⟨tstatesPerFrame, log.endFrame.boundary⟩] :=
    events_endFrame log
  refine ⟨fun time ht => ?_, ?_, ?_⟩
  · have hlate : valueAt initial log.events time =
        valueAt initial (⟨0, log.start⟩ :: log.changes.reverse.takeWhile inFrame) time := by
      rw [hsplit, valueAt_append, valueAt_of_lt]
      intro event he
      have := tells.tidy.le_of_mem_late event he
      omega
    rw [← tells.value, hlate, hclosed, valueAt_append, valueAt_singleton, if_neg (Nat.not_le.mpr ht)]
  · rw [hclosed, List.pairwise_append]
    refine ⟨(List.pairwise_append.mp htimes).1, List.pairwise_singleton _ _, fun event he closing hc => ?_⟩
    rw [List.mem_singleton.mp hc]
    rcases List.mem_cons.mp he with rfl | he
    · exact Nat.zero_lt_succ _
    · exact of_decide_eq_true (List.all_eq_true.mp List.all_takeWhile event he)
  · rw [hclosed, List.dropLast_concat]
    exact (List.isChain_append.mp hvalues).1

/-- Closing a log after less than a whole frame more carries the rest of the history over. -/
theorem Tells.endFrame (tells : Tells initial history start log clock) (hclock : clock < 2 * tstatesPerFrame) :
    Carries initial history (start + tstatesPerFrame) log.endFrame (wrapFrame clock) := by
  have hcarried : log.endFrame.carried = log.late.map toNextFrame := rfl
  have hlate := tells.tidy.le_of_mem_late
  have hsorted : log.late.Pairwise (·.tstate < ·.tstate) := by
    have htimes := tells.tidy.times
    rw [events_eq_append] at htimes
    exact (List.pairwise_append.mp htimes).2.1
  refine ⟨?_, fun event he => ?_, fun time => ?_⟩
  · rw [hcarried, List.pairwise_map]
    refine hsorted.imp_of_mem fun {earlier later} he hl hlt => ?_
    have hearlier := hlate earlier he
    rw [tstate_toNextFrame hearlier, tstate_toNextFrame (hlate later hl)]
    omega
  · rw [hcarried] at he
    obtain ⟨original, ho, rfl⟩ := List.mem_map.mp he
    have hpast := hlate original ho
    have hmem : original ∈ log.events := by
      rw [events_eq_append]
      exact List.mem_append_right _ ho
    have hle : original.tstate ≤ clock := Nat.le_trans (tells.tidy.le_last original hmem) tells.clock
    have hwrap : wrapFrame clock = clock - tstatesPerFrame := by
      rw [wrapFrame, Nat.mod_eq_sub_mod (by omega), Nat.mod_eq_of_lt (by omega)]
    rw [tstate_toNextFrame hpast]
    omega
  · have hmoved : valueAt log.endFrame.boundary (log.late.map toNextFrame) time =
        valueAt log.endFrame.boundary log.late (tstatesPerFrame + time) := by
      refine valueAt_map value_toNextFrame fun event he => ?_
      have hpast := hlate event he
      rw [tstate_toNextFrame hpast]
      omega
    rw [hcarried, hmoved, Nat.add_assoc, ← tells.value, events_eq_append, valueAt_append,
      valueAt_boundary log initial (by omega)]

/-- The last entry of a closed log is the value with which the frame ends. -/
theorem Tells.last_endFrame (tells : Tells initial history start log clock) :
    log.endFrame.last = ⟨tstatesPerFrame, valueAt initial history (start + (tstatesPerFrame - 1))⟩ := by
  have hclosed := events_endFrame log
  have htime : tstatesPerFrame - 1 < tstatesPerFrame := by decide
  rw [← List.cons_append] at hclosed
  rw [← tells.shows.value _ htime, hclosed, valueAt_append, valueAt_singleton, if_neg (Nat.not_le.mpr htime),
    valueAt_boundary log initial (by decide)]
  exact last_of_events hclosed

/-- A closed log has entries between its first and its last one unless the value was the same all through the frame. -/
theorem Tells.length_le_two_iff (tells : Tells initial history start log clock) : log.endFrame.events.length ≤ 2 ↔
    ∃ value, ∀ time < tstatesPerFrame, valueAt initial history (start + time) = value := by
  have shows := tells.shows
  have hclosed := events_endFrame log
  cases hinside : log.changes.reverse.takeWhile inFrame with
  | nil =>
    rw [hinside, List.nil_append] at hclosed
    refine iff_of_true (by rw [hclosed]; exact Nat.le_refl 2) ⟨log.start, fun time ht => ?_⟩
    rw [← shows.value time ht, hclosed, valueAt_cons, if_pos (Nat.zero_le _), valueAt_singleton,
      if_neg (Nat.not_le.mpr ht)]
  | cons event rest =>
    rw [hinside, List.cons_append] at hclosed
    refine iff_of_false (by rw [hclosed]; simp) ?_
    rintro ⟨value, hconstant⟩
    have hlt : event.tstate < tstatesPerFrame := by
      have hmem : event ∈ log.changes.reverse.takeWhile inFrame := by rw [hinside]; exact List.mem_cons_self
      exact of_decide_eq_true (List.all_eq_true.mp List.all_takeWhile event hmem)
    have htimes := shows.times
    have hvalues := shows.values
    rw [hclosed, List.pairwise_cons, List.pairwise_cons] at htimes
    -- The first change gives the value at its time, and the start the value at time 0.
    have hfirst : valueAt initial log.endFrame.events 0 = log.start := by
      rw [hclosed, valueAt_cons, if_pos (Nat.le_refl 0), valueAt_of_lt htimes.1]
    have hsecond : valueAt initial log.endFrame.events event.tstate = event.value := by
      rw [hclosed, valueAt_cons, valueAt_cons, if_pos (Nat.le_refl _), valueAt_of_lt htimes.2.1]
    have hne : log.start ≠ event.value := by
      have hdrop : log.endFrame.events.dropLast = ⟨0, log.start⟩ :: event :: rest := by
        rw [hclosed, ← List.cons_append, ← List.cons_append, List.dropLast_concat]
      rw [hdrop, List.isChain_cons_cons] at hvalues
      exact hvalues.1
    rw [shows.value 0 (by decide), hconstant 0 (by decide)] at hfirst
    rw [shows.value _ hlt, hconstant _ hlt] at hsecond
    exact hne (hfirst.symm.trans hsecond)

end

end EventLog

end ZxSpectrum
