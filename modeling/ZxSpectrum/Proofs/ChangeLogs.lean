import ZxSpectrum.Ports

/-!
# Change logs of a frame

A log of a frame begins at time 0 and ends at the end of the frame, whatever was recorded (`spans_endFrame`). Whether its
entries are in order, and whether the changes that it carries over really lie past the end, depends on the times of what was
recorded only (`closesInOrder_iff`). Recording adds at most one time, at the end (`times_record`), so that a log in order can
be spoilt by nothing but a change that is recorded before one that was carried over (`closesInOrder_append_iff`).
-/

namespace ZxSpectrum

open Ula

/-- Entries in the order of their times. -/
def InOrder (events : List Event) : Prop := events.Pairwise fun earlier later => earlier.tstate ≤ later.tstate

/-- Entries from time 0 to the end of the frame, with all others in between and no value above `bound`. -/
structure Spans (bound : UInt8) (events : List Event) : Prop where
  ends : ∃ first middle final, events = ⟨0, first⟩ :: (middle ++ [⟨tstatesPerFrame, final⟩]) ∧
    ∀ event ∈ middle, event.tstate < tstatesPerFrame
  values : ∀ event ∈ events, event.value ≤ bound

namespace EventLog

/-- The times of the changes, oldest first. -/
def times (log : EventLog) : List Nat := log.changes.reverse.map (·.tstate)

/-- The changes that closing the log carries over, oldest first. -/
def late (log : EventLog) : List Event := log.changes.reverse.dropWhile inFrame

/-- Closing the log leaves its entries in order and carries over nothing from within the frame, so that no time of a change
carried over falls below 0 and wraps. -/
def ClosesInOrder (log : EventLog) : Prop :=
  InOrder log.endFrame.events ∧ ∀ event ∈ log.late, tstatesPerFrame ≤ event.tstate

/-! ## Values -/

/-- No value of the log is above `bound`. -/
structure Within (bound : UInt8) (log : EventLog) : Prop where
  events : ∀ event ∈ log.events, event.value ≤ bound
  carried : ∀ event ∈ log.carried, event.value ≤ bound
  boundary : log.boundary ≤ bound

theorem within_constant {bound value : UInt8} (h : value ≤ bound) : Within bound (constant value) where
  events event he := by
    rw [events_constant, List.mem_singleton] at he
    rw [he]
    exact h
  carried event he := absurd he List.not_mem_nil
  boundary := h

/-- An entry of a log with another newest value is an entry of the log, or has that value. -/
theorem mem_events_setLast {log : EventLog} {value : UInt8} {event : Event} (h : event ∈ (log.setLast value).events) :
    event ∈ log.events ∨ event.value = value := by
  obtain ⟨start, changes, carried, boundary⟩ := log
  cases changes with
  | nil =>
    simp only [setLast, events, List.reverse_nil, List.mem_singleton] at h
    exact Or.inr (by rw [h])
  | cons newest earlier =>
    simp only [setLast, events, List.reverse_cons, List.mem_cons, List.mem_append, List.not_mem_nil, or_false] at h ⊢
    rcases h with h | h | h
    · exact Or.inl (Or.inl h)
    · exact Or.inl (Or.inr (Or.inl h))
    · exact Or.inr (by rw [h])

theorem Within.record {bound : UInt8} {log : EventLog} (within : Within bound log) {event : Event}
    (h : event.value ≤ bound) : Within bound (log.record event) := by
  unfold EventLog.record
  split
  · exact within
  · split
    · refine ⟨fun other ho => ?_, ?_, ?_⟩
      · rcases mem_events_setLast ho with ho | ho
        · exact within.events other ho
        · rw [ho]
          exact h
      · unfold setLast
        split <;> exact within.carried
      · unfold setLast
        split <;> exact within.boundary
    · refine ⟨fun other ho => ?_, within.carried, within.boundary⟩
      simp only [EventLog.events, List.reverse_cons, List.mem_cons, List.mem_append, List.not_mem_nil, or_false] at ho
      rcases ho with ho | ho | ho
      · exact within.events other (by simp [EventLog.events, ho])
      · exact within.events other (by simp [EventLog.events, ho])
      · rw [ho]
        exact h

theorem Within.foldl_record {bound : UInt8} {log : EventLog} (within : Within bound log) {replayed : List Event}
    (h : ∀ event ∈ replayed, event.value ≤ bound) : Within bound (replayed.foldl EventLog.record log) := by
  induction replayed generalizing log with
  | nil => exact within
  | cons event rest ih =>
    exact ih (within.record (h event List.mem_cons_self)) fun other ho => h other (List.mem_cons_of_mem _ ho)

theorem Within.beginFrame {bound : UInt8} {log : EventLog} (within : Within bound log) : Within bound log.beginFrame :=
  (within_constant within.boundary).foldl_record within.carried

/-- Carrying a change over keeps its value. -/
theorem value_toNextFrame (event : Event) : (toNextFrame event).value = event.value := by
  obtain ⟨tstate, value⟩ := event
  change (toNextFrame ⟨tstate, value⟩).value = value
  rfl

/-- The entries of a closed log. -/
theorem events_endFrame (log : EventLog) : log.endFrame.events =
    ⟨0, log.start⟩ :: (log.changes.reverse.takeWhile inFrame ++ [⟨tstatesPerFrame, log.endFrame.boundary⟩]) := by
  simp [events, endFrame]

theorem Within.endFrame {bound : UInt8} {log : EventLog} (within : Within bound log) : Within bound log.endFrame := by
  have hinside : ∀ event ∈ log.changes.reverse.takeWhile inFrame, event.value ≤ bound := by
    intro event he
    exact within.events event (List.mem_cons_of_mem _ (List.takeWhile_subset _ he))
  have hboundary : log.endFrame.boundary ≤ bound := by
    change ((log.changes.reverse.takeWhile inFrame).getLast?.getD ⟨0, log.start⟩).value ≤ bound
    cases hl : (log.changes.reverse.takeWhile inFrame).getLast? with
    | none => exact within.events _ List.mem_cons_self
    | some event => exact hinside event (List.mem_of_getLast? hl)
  refine ⟨fun event he => ?_, fun event he => ?_, hboundary⟩
  · rw [events_endFrame, List.mem_cons, List.mem_append, List.mem_singleton] at he
    rcases he with he | he | he
    · rw [he]
      exact within.events _ List.mem_cons_self
    · exact hinside event he
    · rw [he]
      exact hboundary
  · obtain ⟨late, hl, rfl⟩ := List.mem_map.mp he
    rw [value_toNextFrame]
    exact within.events late (List.mem_cons_of_mem _ (List.dropWhile_subset _ hl))

/-- A closed log spans the frame, whatever was recorded. -/
theorem spans_endFrame {bound : UInt8} {log : EventLog} (within : Within bound log) :
    Spans bound log.endFrame.events := by
  refine ⟨⟨log.start, log.changes.reverse.takeWhile inFrame, log.endFrame.boundary, events_endFrame log, ?_⟩,
    within.endFrame.events⟩
  intro event he
  have hall := List.all_eq_true.mp List.all_takeWhile event he
  exact of_decide_eq_true hall

/-! ## Times -/

theorem times_setLast (log : EventLog) (value : UInt8) : (log.setLast value).times = log.times := by
  obtain ⟨start, changes, carried, boundary⟩ := log
  cases changes with
  | nil => rfl
  | cons newest earlier => simp [setLast, times]

/-- Recording adds the time of the change at the end, or no time. -/
theorem times_record (log : EventLog) (event : Event) :
    (log.record event).times = log.times ∨ (log.record event).times = log.times ++ [event.tstate] := by
  unfold record
  split
  · exact Or.inl rfl
  · split
    · exact Or.inl (times_setLast log event.value)
    · exact Or.inr (by simp [times])

/-- The times of a log that replays changes are some of theirs, in the same order. -/
theorem times_foldl_record (replayed : List Event) (log : EventLog) :
    ∃ added, (replayed.foldl record log).times = log.times ++ added ∧ added.Sublist (replayed.map (·.tstate)) := by
  induction replayed generalizing log with
  | nil => exact ⟨[], by simp, List.Sublist.refl _⟩
  | cons event rest ih =>
    obtain ⟨added, htimes, hsub⟩ := ih (log.record event)
    rw [List.foldl_cons, htimes]
    rcases times_record log event with h | h
    · exact ⟨added, by rw [h], hsub.cons _⟩
    · refine ⟨event.tstate :: added, ?_, hsub.cons_cons _⟩
      rw [h, List.append_assoc, List.singleton_append]

/-- A frame begins with some of the times that were carried over. -/
theorem times_beginFrame (log : EventLog) : log.beginFrame.times.Sublist (log.carried.map (·.tstate)) := by
  obtain ⟨added, htimes, hsub⟩ := times_foldl_record log.carried (constant log.boundary)
  rw [beginFrame, htimes]
  exact hsub

/-- The times that closing the log carries over. -/
theorem dropWhile_times (log : EventLog) : log.times.dropWhile (· < tstatesPerFrame) = log.late.map (·.tstate) := by
  rw [times, List.dropWhile_map]
  rfl

/-- What is carried over are the times past the end, counted from there, if no earlier ones stand among them. -/
theorem times_carried {log : EventLog} (h : ∀ time ∈ log.times.dropWhile (· < tstatesPerFrame), tstatesPerFrame ≤ time) :
    log.endFrame.carried.map (·.tstate) = (log.times.dropWhile (· < tstatesPerFrame)).map (· - tstatesPerFrame) := by
  have hcarried : log.endFrame.carried = log.late.map toNextFrame := rfl
  rw [dropWhile_times] at h ⊢
  rw [hcarried, List.map_map, List.map_map]
  refine List.map_congr_left fun event he => ?_
  rw [Function.comp_apply, Function.comp_apply, tstate_toNextFrame (h _ (List.mem_map_of_mem he))]

/-! ## Order -/

/-- Whether the entries of a closed log are in order is a matter of its times within the frame. -/
theorem inOrder_endFrame_iff (log : EventLog) : InOrder log.endFrame.events ↔
    (log.times.takeWhile (· < tstatesPerFrame)).Pairwise (· ≤ ·) := by
  have hinside : log.times.takeWhile (· < tstatesPerFrame) =
      (log.changes.reverse.takeWhile inFrame).map (·.tstate) := by
    rw [times, List.takeWhile_map]
    rfl
  rw [hinside, List.pairwise_map]
  unfold InOrder
  rw [events_endFrame, List.pairwise_cons, List.pairwise_append]
  constructor
  · exact fun h => h.2.1
  · intro hinner
    refine ⟨fun event _ => Nat.zero_le _, hinner, List.pairwise_singleton _ _, fun event he last hl => ?_⟩
    have hall := List.all_eq_true.mp List.all_takeWhile event he
    rw [List.mem_singleton.mp hl]
    exact Nat.le_of_lt (of_decide_eq_true hall)

/-- Whether a log closes in order is a matter of its times. -/
theorem closesInOrder_iff (log : EventLog) : log.ClosesInOrder ↔
    (log.times.takeWhile (· < tstatesPerFrame)).Pairwise (· ≤ ·) ∧
      ∀ time ∈ log.times.dropWhile (· < tstatesPerFrame), tstatesPerFrame ≤ time := by
  rw [dropWhile_times, ClosesInOrder, inOrder_endFrame_iff]
  simp only [List.mem_map, forall_exists_index, and_imp, forall_apply_eq_imp_iff₂]

/-- What follows the first time past the end in a list in order is past the end too. -/
theorem le_of_mem_dropWhile {times : List Nat} (h : times.Pairwise (· ≤ ·)) {limit time : Nat}
    (ht : time ∈ times.dropWhile (· < limit)) : limit ≤ time := by
  induction times with
  | nil => simp at ht
  | cons first rest ih =>
    obtain ⟨hfirst, hrest⟩ := List.pairwise_cons.mp h
    by_cases hlt : first < limit
    · rw [List.dropWhile_cons_of_pos (by simpa using hlt)] at ht
      exact ih hrest ht
    · rw [List.dropWhile_cons_of_neg (by simpa using hlt)] at ht
      rcases List.mem_cons.mp ht with rfl | hin
      · exact Nat.le_of_not_lt hlt
      · exact Nat.le_trans (Nat.le_of_not_lt hlt) (hfirst time hin)

/-- Times that begin after others make up one list in order with them. -/
theorem pairwise_append_of_head {old fresh : List Nat} (hold : old.Pairwise (· ≤ ·)) (hfresh : fresh.Pairwise (· ≤ ·))
    (hhead : ∀ first ∈ fresh.head?, ∀ time ∈ old, time ≤ first) : (old ++ fresh).Pairwise (· ≤ ·) := by
  rw [List.pairwise_append]
  refine ⟨hold, hfresh, fun time ht later hl => ?_⟩
  cases fresh with
  | nil => simp at hl
  | cons first rest =>
    have hfirst := hhead first rfl time ht
    rcases List.mem_cons.mp hl with rfl | hin
    · exact hfirst
    · exact Nat.le_trans hfirst ((List.pairwise_cons.mp hfresh).1 later hin)

/-- A log in order closes in order. -/
theorem closesInOrder_of_pairwise {log : EventLog} (h : log.times.Pairwise (· ≤ ·)) : log.ClosesInOrder := by
  rw [closesInOrder_iff]
  exact ⟨h.sublist (List.takeWhile_sublist _), fun time ht => le_of_mem_dropWhile h ht⟩

/-- A log that began in order, and to which only changes past the end of the frame were added, closes in order. -/
theorem closesInOrder_append_of_late {log : EventLog} {old fresh : List Nat} (htimes : log.times = old ++ fresh)
    (hold : old.Pairwise (· ≤ ·)) (hlate : ∀ time ∈ fresh, tstatesPerFrame ≤ time) : log.ClosesInOrder := by
  have htake : fresh.takeWhile (· < tstatesPerFrame) = [] := by
    cases fresh with
    | nil => rfl
    | cons first rest => exact List.takeWhile_cons_of_neg (by simpa using hlate first List.mem_cons_self)
  rw [closesInOrder_iff, htimes]
  refine ⟨?_, fun time ht => ?_⟩
  · rw [List.takeWhile_append]
    split
    · rw [htake, List.append_nil]
      exact hold
    · exact hold.sublist (List.takeWhile_sublist _)
  · rw [List.dropWhile_append] at ht
    split at ht
    · exact hlate time (List.dropWhile_subset _ ht)
    · rcases List.mem_append.mp ht with ht | ht
      · exact le_of_mem_dropWhile hold ht
      · exact hlate time ht

/-- A log that closes in order had nothing added before both the end of the frame and some time that it began with. -/
theorem le_of_closesInOrder_append {log : EventLog} {old rest : List Nat} {first : Nat}
    (htimes : log.times = old ++ first :: rest) (closes : log.ClosesInOrder) (hin : first < tstatesPerFrame) :
    ∀ time ∈ old, time ≤ first := by
  rw [closesInOrder_iff, htimes] at closes
  obtain ⟨hinner, hlate⟩ := closes
  intro time ht
  by_cases hall : old.all (fun time => time < tstatesPerFrame) = true
  · -- All old times are within the frame, so the first new one stands behind them in the closed log.
    rw [List.takeWhile_append_of_pos (List.all_eq_true.mp hall), List.takeWhile_cons_of_pos (by simpa using hin),
      List.pairwise_append] at hinner
    exact hinner.2.2 time ht first List.mem_cons_self
  · -- Some old time is past the end, so the first new one is carried over with it.
    have hdrop : first ∈ (old ++ first :: rest).dropWhile (· < tstatesPerFrame) := by
      rw [List.dropWhile_append]
      have hany := List.any_dropWhile (p := fun time => decide (time < tstatesPerFrame)) (l := old)
      rw [eq_false_of_ne_true hall] at hany
      have hne : (old.dropWhile fun time => decide (time < tstatesPerFrame)).isEmpty = false := by
        cases hd : old.dropWhile fun time => decide (time < tstatesPerFrame) with
        | nil => simp [hd] at hany
        | cons time rest => rfl
      simp [hne]
    exact absurd hin (Nat.not_lt.mpr (hlate first hdrop))

/-- A log that began in order, and to which changes were added in order, closes in order unless the first of these lies before
both the end of the frame and some time that the log began with. -/
theorem closesInOrder_append_iff {log : EventLog} {old fresh : List Nat} (htimes : log.times = old ++ fresh)
    (hold : old.Pairwise (· ≤ ·)) (hfresh : fresh.Pairwise (· ≤ ·)) :
    log.ClosesInOrder ↔ ∀ first ∈ fresh.head?, tstatesPerFrame ≤ first ∨ ∀ time ∈ old, time ≤ first := by
  constructor
  · intro closes first hhead
    obtain ⟨rest, rfl⟩ := List.head?_eq_some_iff.mp hhead
    by_cases hpast : tstatesPerFrame ≤ first
    · exact Or.inl hpast
    · exact Or.inr (le_of_closesInOrder_append htimes closes (Nat.lt_of_not_le hpast))
  · intro hfits
    by_cases hpast : ∃ first ∈ fresh.head?, tstatesPerFrame ≤ first
    · obtain ⟨first, hhead, hle⟩ := hpast
      obtain ⟨rest, rfl⟩ := List.head?_eq_some_iff.mp hhead
      refine closesInOrder_append_of_late htimes hold fun time ht => ?_
      rcases List.mem_cons.mp ht with rfl | hin
      · exact hle
      · exact Nat.le_trans hle ((List.pairwise_cons.mp hfresh).1 time hin)
    · refine closesInOrder_of_pairwise (htimes ▸ pairwise_append_of_head hold hfresh fun first hhead => ?_)
      rcases hfits first hhead with hle | hafter
      · exact absurd ⟨first, hhead, hle⟩ hpast
      · exact hafter

end EventLog

end ZxSpectrum
