import Mathlib.Data.List.DropRight
import ZxSpectrum.Proofs.DisplayRows

/-!
# Missed frames

A feed with all that has been offered to it and all that its display has taken (`FeedRun`). Whatever the room in its channel and
however offers and receptions take turns, the frames that get through are the `deliveries` of the offers: each with what was dirty
in it and in the frames missed since the one before, and otherwise as it was offered (`missed_frames_merged`). The invariant is
`Merges`: what waits in the feed for the next frame is what was dirty in the frames offered since one got through.
-/

namespace ZxSpectrum

/-! ## What should get through -/

/-- A frame that was offered, and what became of it. -/
structure Offered where
  data : DisplayData
  outcome : Outcome

/-- The cells that are dirty in one of some frames. -/
def dirtyTogether (offers : List Offered) : Vector Bool 768 :=
  Vector.ofFn fun cell => offers.any fun offered => offered.data.screen.dirty.get cell

/-- The offers since the last that got through. -/
def sinceSent (offers : List Offered) : List Offered := offers.rtakeWhile fun offered => decide (offered.outcome ≠ .sent)

/-- A frame with what was dirty in the frames offered since one got through. -/
def Offered.merged (offered : Offered) (earlier : List Offered) : DisplayData :=
  { offered.data with
    screen := { offered.data.screen with dirty := dirtyTogether (sinceSent earlier ++ [offered]) } }

/-- What gets through of an offer. -/
def Offered.through (offered : Offered) (earlier : List Offered) : List DisplayData :=
  if offered.outcome = .sent then [offered.merged earlier] else []

/-- The frames that get through of some offers that follow on earlier ones. -/
def deliveriesAfter (earlier : List Offered) : List Offered → List DisplayData
  | [] => []
  | offered :: later => offered.through earlier ++ deliveriesAfter (earlier ++ [offered]) later

/-- The frames that get through, in the order in which they were offered. -/
def deliveries (offers : List Offered) : List DisplayData := deliveriesAfter [] offers

section Deliveries

variable {offers : List Offered} {offered : Offered}

theorem getElem_dirtyTogether (offers : List Offered) {cell : Nat} (h : cell < 768) :
    (dirtyTogether offers)[cell] = offers.any fun offered => offered.data.screen.dirty[cell] := by
  rw [dirtyTogether, Vector.getElem_ofFn]
  rfl

theorem dirtyTogether_singleton (offered : Offered) : dirtyTogether [offered] = offered.data.screen.dirty := by
  refine Vector.ext fun cell hc => ?_
  rw [getElem_dirtyTogether _ hc, List.any_cons, List.any_nil, Bool.or_false]

theorem dirtyTogether_concat (offers : List Offered) (offered : Offered) : dirtyTogether (offers ++ [offered]) =
    Vector.zipWith (· || ·) offered.data.screen.dirty (dirtyTogether offers) := by
  refine Vector.ext fun cell hc => ?_
  rw [Vector.getElem_zipWith, getElem_dirtyTogether _ hc, getElem_dirtyTogether _ hc, List.any_append, List.any_cons,
    List.any_nil, Bool.or_false, Bool.or_comm]

theorem sinceSent_concat_of_sent (h : offered.outcome = .sent) : sinceSent (offers ++ [offered]) = [] := by
  rw [sinceSent, List.rtakeWhile_concat_neg _ _ _ (by simp [h])]

theorem sinceSent_concat_of_not_sent (h : offered.outcome ≠ .sent) :
    sinceSent (offers ++ [offered]) = sinceSent offers ++ [offered] := by
  rw [sinceSent, List.rtakeWhile_concat_pos _ _ _ (by simp [h]), sinceSent]

theorem deliveriesAfter_append (earlier offers more : List Offered) : deliveriesAfter earlier (offers ++ more) =
    deliveriesAfter earlier offers ++ deliveriesAfter (earlier ++ offers) more := by
  induction offers generalizing earlier with
  | nil => rw [List.append_nil]; rfl
  | cons offered rest ih =>
    rw [List.cons_append, deliveriesAfter, deliveriesAfter, ih, List.append_assoc, List.append_assoc]
    rfl

theorem through_of_not_sent (h : offered.outcome ≠ .sent) (earlier : List Offered) : offered.through earlier = [] :=
  if_neg h

theorem deliveries_concat (offers : List Offered) (offered : Offered) :
    deliveries (offers ++ [offered]) = deliveries offers ++ offered.through offers := by
  rw [deliveries, deliveriesAfter_append, deliveriesAfter, deliveriesAfter, List.append_nil]
  rfl

end Deliveries

/-! ## A feed and what happens to it -/

inductive FeedEvent where
  | offer (data : DisplayData)
  /-- The display takes the frame that has waited longest, if there is one. -/
  | receive
  /-- The room of the channel changes. Where no frame can wait there is room for one while the receiver waits for it. -/
  | resize (capacity : Nat)
  /-- The receiver goes away. -/
  | close

/-- The frame that an event offers. -/
def FeedEvent.offered? : FeedEvent → Option DisplayData
  | offer data => some data
  | _ => none

def FeedEvent.closes : FeedEvent → Bool
  | close => true
  | _ => false

/-- A feed with the frames that were offered to it and those that its display has taken, oldest first. -/
structure FeedRun where
  feed : DisplayFeed
  offers : List Offered := []
  received : List DisplayData := []

namespace FeedRun

/-- A frame that is offered next. -/
def offered (run : FeedRun) (data : DisplayData) : Offered := ⟨data, (run.feed.offer data).1⟩

def step (run : FeedRun) : FeedEvent → FeedRun
  | .offer data => { run with feed := (run.feed.offer data).2, offers := run.offers ++ [run.offered data] }
  | .receive => { run with feed := run.feed.receive.2, received := run.received ++ run.feed.taken }
  | .resize capacity => { run with feed := run.feed.resize capacity }
  | .close => { run with feed := run.feed.dropReceiver }

/-- What happens to a new feed whose channel has some room. -/
def after (capacity : Nat) (events : List FeedEvent) : FeedRun :=
  events.foldl step { feed := { channel := { capacity := capacity } } }

/-- The invariant of a run. -/
structure Merges (run : FeedRun) : Prop where
  /-- What is dirty in the frames missed since one got through waits for the next frame. -/
  pending : run.feed.channel.receiverGone = false → run.feed.missedDirty =
    if sinceSent run.offers = [] then none else some (dirtyTogether (sinceSent run.offers))
  delivered : run.feed.Delivered (deliveries run.offers) run.received
  sent : run.feed.sent = (deliveries run.offers).length
  lastFrame : run.feed.lastFrame = run.offers.getLast?.map (·.data.frame)

variable {run : FeedRun} {data : DisplayData}

/-- Nothing has happened to a new feed. -/
theorem Merges.new (capacity : Nat) : Merges { feed := { channel := { capacity := capacity } } } where
  pending _ := rfl
  delivered := ⟨List.prefix_refl _, fun _ => rfl⟩
  sent := rfl
  lastFrame := rfl

theorem offered_closed_iff (run : FeedRun) (data : DisplayData) :
    (run.offered data).outcome = .closed ↔ run.feed.channel.receiverGone = true :=
  run.feed.channel.offer_closed_iff (run.feed.complete data)

theorem receiverGone_of_sent (h : (run.offered data).outcome = .sent) : run.feed.channel.receiverGone = false :=
  ((run.feed.channel.offer_sent_iff (run.feed.complete data)).mp h).1

theorem receiverGone_offer (run : FeedRun) (data : DisplayData) :
    (run.feed.offer data).2.channel.receiverGone = run.feed.channel.receiverGone :=
  run.feed.channel.receiverGone_offer (run.feed.complete data)

/-- While the receiver is there, a frame is offered with what was dirty in the frames missed before. -/
theorem Merges.complete_eq (merges : run.Merges) (hthere : run.feed.channel.receiverGone = false) (data : DisplayData) :
    run.feed.complete data = (run.offered data).merged run.offers := by
  have hdata : (run.offered data).data = data := rfl
  unfold DisplayFeed.complete
  rw [merges.pending hthere, Offered.merged]
  by_cases hnone : sinceSent run.offers = []
  · rw [if_pos hnone, hnone, List.nil_append, dirtyTogether_singleton, hdata]
  · rw [if_neg hnone, dirtyTogether_concat, hdata]
    rfl

/-- What gets through waits behind the others. -/
theorem Merges.items_offer (merges : run.Merges) (data : DisplayData) : (run.feed.offer data).2.channel.items =
    run.feed.channel.items ++ (run.offered data).through run.offers := by
  have hitems : (run.feed.offer data).2.channel.items = run.feed.channel.items ++
      if (run.offered data).outcome = .sent then [run.feed.complete data] else [] :=
    run.feed.channel.offer_items (run.feed.complete data)
  rw [hitems, Offered.through]
  by_cases h : (run.offered data).outcome = .sent
  · rw [if_pos h, if_pos h, merges.complete_eq (receiverGone_of_sent h)]
  · rw [if_neg h, if_neg h]

/-- What is missed adds to what waits for the next frame, and a frame that gets through takes it all along. -/
theorem Merges.pending_offer (merges : run.Merges) (hthere : run.feed.channel.receiverGone = false) (data : DisplayData) :
    (run.feed.offer data).2.missedDirty = if sinceSent (run.offers ++ [run.offered data]) = [] then none
      else some (dirtyTogether (sinceSent (run.offers ++ [run.offered data]))) := by
  have hmissed : (run.feed.offer data).2.missedDirty =
      if (run.offered data).outcome = .missed then some (run.feed.complete data).screen.dirty else none := rfl
  rw [hmissed, merges.complete_eq hthere]
  cases hcase : (run.offered data).outcome with
  | sent => rw [sinceSent_concat_of_sent hcase, if_neg (by decide), if_pos rfl]
  | missed =>
    rw [sinceSent_concat_of_not_sent (by rw [hcase]; decide), if_pos rfl, if_neg (List.concat_ne_nil _ _)]
    rfl
  | closed => exact absurd ((run.offered_closed_iff data).mp hcase) (Bool.eq_false_iff.mp hthere)

/-- A frame is offered. -/
theorem Merges.offer (merges : run.Merges) (data : DisplayData) : (run.step (.offer data)).Merges := by
  constructor
  case pending => exact fun hthere => merges.pending_offer ((run.receiverGone_offer data).symm.trans hthere) data
  case delivered =>
    have hthrough : (run.offered data).through run.offers = [] ∨ run.feed.channel.receiverGone = false := by
      by_cases hsent : (run.offered data).outcome = .sent
      · exact Or.inr (receiverGone_of_sent hsent)
      · exact Or.inl (through_of_not_sent hsent _)
    change (run.feed.offer data).2.Delivered (deliveries (run.offers ++ [run.offered data])) run.received
    rw [deliveries_concat]
    exact merges.delivered.offer (run.receiverGone_offer data) (merges.items_offer data) hthrough
  case sent =>
    change run.feed.sent + (if (run.offered data).outcome = .sent then 1 else 0) =
      (deliveries (run.offers ++ [run.offered data])).length
    rw [deliveries_concat, List.length_append, merges.sent, Offered.through]
    split <;> rfl
  case lastFrame =>
    change (run.feed.offer data).2.lastFrame = (run.offers ++ [run.offered data]).getLast?.map (·.data.frame)
    rw [DisplayFeed.lastFrame_offer, List.getLast?_concat]
    rfl

/-- An event keeps the invariant. -/
theorem Merges.step (merges : run.Merges) (event : FeedEvent) : (run.step event).Merges := by
  cases event with
  | offer data => exact merges.offer data
  | receive =>
    have hpending := fun hthere => merges.pending (run.feed.receiverGone_receive.symm.trans hthere)
    exact ⟨hpending, merges.delivered.receive, merges.sent, merges.lastFrame⟩
  | resize capacity => exact ⟨merges.pending, merges.delivered.resize capacity, merges.sent, merges.lastFrame⟩
  | close =>
    exact ⟨fun hthere => absurd hthere.symm Bool.false_ne_true, merges.delivered.dropReceiver, merges.sent, merges.lastFrame⟩

/-- A run keeps the invariant. -/
theorem merges_after (capacity : Nat) (events : List FeedEvent) : (after capacity events).Merges :=
  List.foldlRecOn events step (Merges.new capacity) fun _ merges event _ => merges.step event

/-! ## What is counted -/

theorem receiverGone_step (run : FeedRun) (event : FeedEvent) : (run.step event).feed.channel.receiverGone =
    (run.feed.channel.receiverGone || event.closes) := by
  have hstays : (run.feed.channel.receiverGone || false) = run.feed.channel.receiverGone := Bool.or_false _
  cases event with
  | offer data => exact (run.receiverGone_offer data).trans hstays.symm
  | receive => exact run.feed.receiverGone_receive.trans hstays.symm
  | resize capacity => exact hstays.symm
  | close => exact (Bool.or_true _).symm

/-- A frame that is offered counts while the receiver is there, and nothing else does. -/
theorem counts_step (run : FeedRun) (event : FeedEvent) : (run.step event).feed.sent + (run.step event).feed.missed =
    run.feed.sent + run.feed.missed +
      if run.feed.channel.receiverGone then 0 else ([event].filterMap FeedEvent.offered?).length := by
  cases event with
  | offer data =>
    have hclosed := run.offered_closed_iff data
    rw [show (run.step (.offer data)).feed = (run.feed.offer data).2 from rfl, run.feed.counts_offer data]
    exact congrArg _ (if_congr hclosed rfl rfl)
  | receive | resize | close => exact congrArg (_ + ·) (ite_self 0).symm

/-- Once the receiver is gone nothing counts any more. -/
theorem counts_foldl (run : FeedRun) (events : List FeedEvent) :
    (events.foldl step run).feed.sent + (events.foldl step run).feed.missed = run.feed.sent + run.feed.missed +
      if run.feed.channel.receiverGone then 0
      else ((events.takeWhile (!·.closes)).filterMap FeedEvent.offered?).length := by
  induction events generalizing run with
  | nil => exact congrArg (_ + ·) (ite_self 0).symm
  | cons event events ih =>
    rw [List.foldl_cons, ih, run.counts_step, run.receiverGone_step, List.takeWhile_cons]
    cases hgone : run.feed.channel.receiverGone with
    | true => rfl
    | false =>
      cases hcloses : event.closes with
      | true =>
        have hnone : event.offered? = none := by
          cases event <;> first | rfl | exact absurd hcloses Bool.false_ne_true
        simp [hnone]
      | false =>
        have hcons : (event :: events.takeWhile (!·.closes)).filterMap FeedEvent.offered? =
            [event].filterMap FeedEvent.offered? ++ (events.takeWhile (!·.closes)).filterMap FeedEvent.offered? :=
          List.filterMap_append (l := [event])
        simp [hcons, Nat.add_assoc]

theorem map_data_foldl (run : FeedRun) (events : List FeedEvent) : (events.foldl step run).offers.map (·.data) =
    run.offers.map (·.data) ++ events.filterMap FeedEvent.offered? := by
  induction events generalizing run with
  | nil => exact (List.append_nil _).symm
  | cons event events ih =>
    rw [List.foldl_cons, ih]
    cases event with
    | offer data => simp [step, offered, FeedEvent.offered?]
    | receive | resize | close => rfl

/-! ## Missed frames are merged -/

/-- What gets through and what is counted. Whatever the room in the channel and however offers, receptions and changes of room
take turns, the frames that the display has taken, and then those that wait, are the beginning of the deliveries: each frame
that got through with what was dirty in it and in the frames missed since the one before, and otherwise as it was offered.
While the receiver is there they are all of the deliveries. So many are counted as sent, with the missed ones as many as were
offered before the receiver went; and the changes since the last frame are enough for a frame if the one offered last, sent
or missed, is the one before it. -/
theorem missed_frames_merged (capacity : Nat) (events : List FeedEvent) :
    let run := after capacity events
    run.offers.map (·.data) = events.filterMap FeedEvent.offered? ∧
      run.received ++ run.feed.channel.items <+: deliveries run.offers ∧
      (run.feed.channel.receiverGone = false → run.received ++ run.feed.channel.items = deliveries run.offers) ∧
      run.feed.sent = (deliveries run.offers).length ∧
      run.feed.sent + run.feed.missed = ((events.takeWhile (!·.closes)).filterMap FeedEvent.offered?).length ∧
      ∀ frame, run.feed.wantsDiff frame = true ↔ ∃ last ∈ run.offers.getLast?, last.data.frame = frame - 1 := by
  intro run
  have merges : run.Merges := merges_after capacity events
  have hcounts : run.feed.sent + run.feed.missed = _ := counts_foldl _ events
  refine ⟨map_data_foldl _ events, merges.delivered.queue, merges.delivered.kept, merges.sent, ?_, fun frame => ?_⟩
  · rw [hcounts]
    exact Nat.zero_add _
  · rw [DisplayFeed.wantsDiff, merges.lastFrame, beq_iff_eq, Option.map_eq_some_iff]
    rfl

/-- A frame with one dirty cell. -/
def oneCell (frame : UInt32) (cell : Fin 768) : DisplayData where
  screen :=
    { dirty := Vector.ofFn fun place => place == cell
      bitmap := Vector.replicate 6144 0
      colours := Vector.replicate 6144 0
      flash := false }
  border := 7
  borderEvents := none
  frame := frame

theorem getElem_dirty_oneCell (frame : UInt32) (dirty : Fin 768) {cell : Nat} (hc : cell < 768) :
    (oneCell frame dirty).screen.dirty[cell] = decide (cell = dirty) := by
  rw [oneCell, Vector.getElem_ofFn, Bool.eq_iff_iff, beq_iff_eq, decide_eq_true_iff, Fin.ext_iff]

/-- A display with room for one frame takes the first of three frames, and then the one after them. -/
def twoMissed : List FeedEvent :=
  [.offer (oneCell 1 10), .offer (oneCell 2 20), .offer (oneCell 3 30), .receive, .offer (oneCell 4 40), .receive]

theorem offers_twoMissed : (after 1 twoMissed).offers =
    [⟨oneCell 1 10, .sent⟩, ⟨oneCell 2 20, .missed⟩, ⟨oneCell 3 30, .missed⟩, ⟨oneCell 4 40, .sent⟩] := rfl

theorem missed_frames_merged_twoMissed : (after 1 twoMissed).feed.channel.receiverGone = false ∧
    (after 1 twoMissed).received ++ (after 1 twoMissed).feed.channel.items = deliveries (after 1 twoMissed).offers ∧
    ∃ first second, deliveries (after 1 twoMissed).offers = [first, second] ∧ first.frame = 1 ∧ second.frame = 4 ∧
      ∀ cell (hc : cell < 768), second.screen.dirty[cell] = true ↔ cell ∈ [20, 30, 40] := by
  have hthere : (after 1 twoMissed).feed.channel.receiverGone = false := rfl
  refine ⟨hthere, (missed_frames_merged 1 twoMissed).2.2.1 hthere, ?_⟩
  rw [offers_twoMissed]
  refine ⟨_, _, rfl, rfl, rfl, fun cell hc => ?_⟩
  change (dirtyTogether [⟨oneCell 2 20, .missed⟩, ⟨oneCell 3 30, .missed⟩, ⟨oneCell 4 40, .sent⟩])[cell] = true ↔ _
  rw [getElem_dirtyTogether _ hc]
  simp only [List.any_cons, List.any_nil, getElem_dirty_oneCell, Bool.or_false, Bool.or_eq_true, decide_eq_true_eq,
    List.mem_cons, List.not_mem_nil, or_false]
  rfl

end FeedRun

end ZxSpectrum
