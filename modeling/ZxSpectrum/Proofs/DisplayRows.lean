import Mathlib.Data.List.Chain
import ZxSpectrum.Feed
import ZxSpectrum.Proofs.DirtyCells

/-!
# Frames offered to a display

A display copies the dirty cells of every frame that it gets into the picture that it keeps. The frames that are offered to
it form a row (`Row`): the feed remembers of the frame before whether it was offered and, if it was missed, what was dirty in
it. Whatever the display kept at first, after each frame that gets through it keeps all of that frame (`Row.drawn_sent`), and
what is dirty in a frame after one that got through has a cause in these two frames (`Follows.cause_of_dirty`).
-/

namespace ZxSpectrum

open Ula Ula.Shadow

/-! ## Drawing -/

namespace Ula.Picture

variable {cell : Nat} {picture other last : Picture}

theorem AgreeOn.trans (h : picture.AgreeOn cell other) (h' : other.AgreeOn cell last) : picture.AgreeOn cell last := by
  intro place hp hcell
  exact ⟨(h place hp hcell).1.trans (h' place hp hcell).1, (h place hp hcell).2.trans (h' place hp hcell).2⟩

/-- The picture once the dirty cells of a frame have been copied into it: eight bytes of the bitmap and eight of colours each. -/
def draw (picture : Picture) (image : ScreenImage) : Picture where
  bitmap := Vector.ofFn fun place =>
    have := cellOfPlace_lt place.isLt
    if image.dirty[cellOfPlace place] then image.bitmap[place] else picture.bitmap[place]
  colours := Vector.ofFn fun place =>
    have := cellOfPlace_lt place.isLt
    if image.dirty[cellOfPlace place] then image.colours[place] else picture.colours[place]

/-- A picture that looks like a frame where that is not dirty is all of the frame once that is drawn. -/
theorem draw_eq {image : ScreenImage}
    (h : ∀ cell (hc : cell < 768), image.dirty[cell] = false → picture.AgreeOn cell image.picture) :
    picture.draw image = image.picture := by
  have hplace : ∀ place (hp : place < 6144), (picture.draw image).bitmap[place] = image.bitmap[place] ∧
      (picture.draw image).colours[place] = image.colours[place] := by
    intro place hp
    have hc := cellOfPlace_lt hp
    simp only [draw, Vector.getElem_ofFn]
    by_cases hdirty : image.dirty[cellOfPlace place] = true
    · simp [hdirty]
    · rw [if_neg hdirty, if_neg hdirty]
      exact h _ hc (eq_false_of_ne_true hdirty) place hp rfl
  unfold ScreenImage.picture
  rw [← Vector.ext fun place hp => (hplace place hp).1, ← Vector.ext fun place hp => (hplace place hp).2]

end Ula.Picture

/-! ## Machines between frames -/

namespace Machine

/-- A picture is the same with all cells dirty or with few. -/
theorem picture_displayData (machine : Machine) (diff : Bool) :
    (machine.displayData diff).screen.picture = machine.picture := by
  simp only [displayData, picture, ScreenImage.picture, Board.composeScreen, compose]

/-- Two machines between the same two frames: screen memory, what was captured of it and the number of the frame agree. -/
structure SameScreen (machine other : Machine) : Prop where
  memory : machine.board.memory = other.board.memory
  frame : machine.board.shadow.frame = other.board.shadow.frame
  bitmap : machine.board.shadow.bitmap = other.board.shadow.bitmap
  attributes : machine.board.shadow.attributes = other.board.shadow.attributes

/-- The machine stands where the other one stood, as far as the screen is concerned, or at its start. -/
def Continues (machine other : Machine) : Prop := machine.board.shadow.frame = 0 ∨ machine.SameScreen other

variable {machine other before : Machine}

theorem SameScreen.picture_eq (same : machine.SameScreen other) : machine.picture = other.picture := by
  simp only [picture, ScreenImage.picture, Board.composeScreen, compose, shownBitmap, shownAttribute, same.memory,
    same.frame, same.bitmap, same.attributes]

theorem SameScreen.showsCapture_eq (same : machine.SameScreen other) (cell : Nat) :
    machine.board.shadow.showsCapture cell = other.board.shadow.showsCapture cell := by
  simp only [showsCapture, same.bitmap, same.attributes]

theorem SameScreen.refl (machine : Machine) : machine.SameScreen machine := ⟨rfl, rfl, rfl, rfl⟩

theorem Continues.refl (machine : Machine) : machine.Continues machine := Or.inr (.refl machine)

theorem Continues.trans (h : machine.Continues other) (h' : other.Continues before) : machine.Continues before := by
  rcases h with hzero | same
  · exact Or.inl hzero
  · rcases h' with hzero | same'
    · exact Or.inl (same.frame.trans hzero)
    · exact Or.inr ⟨same.memory.trans same'.memory, same.frame.trans same'.frame, same.bitmap.trans same'.bitmap,
        same.attributes.trans same'.attributes⟩

end Machine

/-! ## Offers -/

/-- Completing a frame changes nothing but what is dirty in it. -/
theorem DisplayFeed.picture_complete (feed : DisplayFeed) (data : DisplayData) :
    (feed.complete data).screen.picture = data.screen.picture := by
  unfold complete
  split <;> rfl

/-- A frame that is offered to a display: the machine before the frame and the feed before the offer. -/
structure Offer where
  machine : Machine
  feed : DisplayFeed

namespace Offer

/-- The machine after the frame. -/
def shown (offer : Offer) : Machine := offer.machine.renderFrame

/-- As much of the frame as the feed wants. -/
def wanted (offer : Offer) : DisplayData :=
  offer.shown.displayData (offer.feed.wantsDiff offer.shown.board.shadow.frame)

/-- The frame as it gets to the display, if it does. -/
def data (offer : Offer) : DisplayData := offer.feed.complete offer.wanted

def outcome (offer : Offer) : Outcome := (offer.feed.offer offer.wanted).1

/-- The frame, if it gets through. -/
def sent? (offer : Offer) : Option DisplayData := if offer.outcome = .sent then some offer.data else none

variable {first second offer : Offer} {cell : Nat}

theorem frame_data (offer : Offer) : offer.data.frame = offer.shown.board.shadow.frame :=
  DisplayFeed.frame_complete _ _

/-- Every frame comes complete, whatever is dirty in it. -/
theorem picture_data (offer : Offer) : offer.data.screen.picture = offer.shown.picture := by
  rw [data, DisplayFeed.picture_complete, wanted, Machine.picture_displayData]

/-- What is dirty in a frame: everything, unless the feed was offered the frame before, and otherwise what the frame changes
and what was dirty in those that were missed. -/
theorem dirty_data_iff (offer : Offer) (hc : cell < 768) : offer.data.screen.dirty[cell] = true ↔
    offer.feed.wantsDiff offer.shown.board.shadow.frame = false ∨
      (offer.shown.board.composeScreen true).dirty[cell] = true ∨
        ∃ missed, offer.feed.missedDirty = some missed ∧ missed[cell] = true := by
  have hwanted : offer.wanted.screen.dirty[cell] = true ↔
      offer.feed.wantsDiff offer.shown.board.shadow.frame = false ∨
        (offer.shown.board.composeScreen true).dirty[cell] = true := by
    unfold wanted
    cases offer.feed.wantsDiff offer.shown.board.shadow.frame <;>
      simp [Machine.displayData, Board.composeScreen, compose]
  unfold data DisplayFeed.complete
  split
  · rename_i missed hmissed
    simp [DisplayData.addDirty, hmissed, hwanted, or_assoc]
  · rename_i hmissed
    simp [hmissed, hwanted]

/-- The first frame for a display: nothing was offered to it before. -/
structure IsFirst (offer : Offer) : Prop where
  lastFrame : offer.feed.lastFrame = none
  missedDirty : offer.feed.missedDirty = none

/-- The next frame for a display: its feed keeps what became of the frame before. -/
structure Follows (first second : Offer) : Prop where
  reachable : first.outcome ≠ .closed
  machine : second.machine.Continues first.shown
  lastFrame : second.feed.lastFrame = some first.data.frame
  missedDirty : second.feed.missedDirty = if first.outcome = .missed then some first.data.screen.dirty else none

/-- In the first frame for a display everything is dirty. -/
theorem IsFirst.dirty (isFirst : IsFirst offer) (hc : cell < 768) : offer.data.screen.dirty[cell] = true := by
  refine (dirty_data_iff offer hc).mpr (Or.inl ?_)
  rw [DisplayFeed.wantsDiff, isFirst.lastFrame]
  rfl

/-- The second of two frames in a row is a first one of the machine, or the machine had the screen of the first. -/
theorem Follows.sameScreen (follows : Follows first second) (h : second.data.frame ≠ 1) :
    second.machine.SameScreen first.shown := by
  rcases follows.machine with hzero | same
  · refine absurd ?_ h
    rw [frame_data, shown, Machine.frame_renderFrame, hzero]
    rfl
  · exact same

/-- The frames of a machine are numbered one after the other. -/
theorem Follows.frame (follows : Follows first second) (h : second.data.frame ≠ 1) :
    second.data.frame = first.data.frame + 1 := by
  rw [frame_data, frame_data, ← (follows.sameScreen h).frame]
  exact Machine.frame_renderFrame second.machine

/-- In a first frame of the machine everything is dirty. -/
theorem dirty_of_frame (hc : cell < 768) (h : offer.data.frame = 1) : offer.data.screen.dirty[cell] = true := by
  rw [frame_data] at h
  exact (dirty_data_iff offer hc).mpr (Or.inr (Or.inl ((Machine.dirty_renderFrame_iff offer.machine hc).mpr (Or.inl h))))

/-- Where the second of two frames is not dirty, it looks like the first. -/
theorem Follows.agreeOn (follows : Follows first second) (hc : cell < 768)
    (hclean : second.data.screen.dirty[cell] = false) : first.shown.picture.AgreeOn cell second.shown.picture := by
  have hframe : second.data.frame ≠ 1 := fun h => by simp [dirty_of_frame hc h] at hclean
  have hcauses := mt (dirty_data_iff second hc).mpr (Bool.eq_false_iff.mp hclean)
  rw [← (follows.sameScreen hframe).picture_eq]
  exact Machine.agreeOn_renderFrame hc (Bool.eq_false_iff.mpr fun hdirty => hcauses (Or.inr (Or.inl hdirty)))

/-- Where the second of two frames is not dirty and the first was missed, that was not dirty either. -/
theorem Follows.clean_of_missed (follows : Follows first second) (hmissed : first.outcome = .missed) (hc : cell < 768)
    (hclean : second.data.screen.dirty[cell] = false) : first.data.screen.dirty[cell] = false := by
  have hcauses := mt (dirty_data_iff second hc).mpr (Bool.eq_false_iff.mp hclean)
  have hkept : second.feed.missedDirty = some first.data.screen.dirty := by
    rw [follows.missedDirty, if_pos hmissed]
  exact Bool.eq_false_iff.mpr fun hdirty => hcauses (Or.inr (Or.inr ⟨_, hkept, hdirty⟩))

/-- Why a cell is dirty in a frame after one that got through: the frame is the first of the machine, one of the nine bytes of
the cell changes in the one frame or the other, or the flash phase flips and the cell shows a flashing attribute. -/
theorem Follows.cause_of_dirty (follows : Follows first second) (hsent : first.outcome = .sent) (hc : cell < 768)
    (hdirty : second.data.screen.dirty[cell] = true) : second.data.frame = 1 ∨
      (∃ address ∈ first.machine.changes ++ second.machine.changes, address ∈ bytesOfCell cell) ∨
        (second.shown.board.shadow.flips = true ∧ second.shown.showsFlash cell = true) := by
  by_cases hframe : second.data.frame = 1
  · exact Or.inl hframe
  have same := follows.sameScreen hframe
  have hdiff : second.feed.wantsDiff second.shown.board.shadow.frame = true := by
    rw [DisplayFeed.wantsDiff, follows.lastFrame, ← frame_data, follows.frame hframe, UInt32.add_sub_cancel, beq_self_eq_true]
  have hnone : second.feed.missedDirty = none := by
    rw [follows.missedDirty, hsent]
    rfl
  have hcauses := (dirty_data_iff second hc).mp hdirty
  simp only [hdiff, hnone, reduceCtorEq, false_and, exists_false, or_false, Bool.true_eq_false, false_or] at hcauses
  rcases (Machine.dirty_renderFrame_iff second.machine hc).mp hcauses with h | hcapture | ⟨address, hin, hcell⟩ | hflash
  · exact absurd ((frame_data second).trans h) hframe
  · rw [same.showsCapture_eq] at hcapture
    obtain ⟨address, hin, hcell⟩ := Machine.change_of_showsCapture hc hcapture
    exact Or.inr (Or.inl ⟨address, List.mem_append_left _ hin, hcell⟩)
  · exact Or.inr (Or.inl ⟨address, List.mem_append_right _ hin, hcell⟩)
  · exact Or.inr (Or.inr hflash)

end Offer

/-! ## Rows of offers -/

/-- The frames that have been offered to a display, oldest first. -/
structure Row (offers : List Offer) : Prop where
  first : ∀ offer ∈ offers.head?, offer.IsFirst
  follows : offers.IsChain Offer.Follows

/-- What a display keeps that kept `picture` at first. -/
def drawn (picture : Picture) (frames : List DisplayData) : Picture :=
  frames.foldl (fun picture data => picture.draw data.screen) picture

/-- A frame that gets through is all that the display keeps, if it kept what the frame leaves as it was. -/
theorem drawn_concat_of_sent {offer : Offer} (hsent : offer.outcome = .sent) {picture : Picture} {earlier : List Offer}
    (h : ∀ cell (hc : cell < 768), offer.data.screen.dirty[cell] = false →
      (drawn picture (earlier.filterMap Offer.sent?)).AgreeOn cell offer.shown.picture) :
    drawn picture ((earlier ++ [offer]).filterMap Offer.sent?) = offer.shown.picture := by
  have hlast : [offer].filterMap Offer.sent? = [offer.data] := by simp [Offer.sent?, hsent]
  rw [List.filterMap_append, hlast, drawn, List.foldl_append, ← offer.picture_data]
  rw [← offer.picture_data] at h
  exact Picture.draw_eq h

/-- A frame that does not get through leaves what the display keeps. -/
theorem filterMap_concat_of_not_sent {offer : Offer} (h : offer.outcome ≠ .sent) (earlier : List Offer) :
    (earlier ++ [offer]).filterMap Offer.sent? = earlier.filterMap Offer.sent? := by
  simp [Offer.sent?, h]

namespace Row

variable {earlier later : List Offer} {offer : Offer}

theorem nil : Row [] := ⟨fun _ h => (Option.not_mem_none _ h).elim, List.IsChain.nil⟩

/-- The beginning of a row is a row. -/
theorem left (row : Row (earlier ++ later)) : Row earlier := by
  refine ⟨fun offer h => row.first offer ?_, (List.isChain_append.mp row.follows).1⟩
  rw [List.head?_append, Option.mem_def.mp h]
  rfl

/-- A frame goes on with a row as the first of it, or as one that follows the last. -/
theorem concat_iff : Row (earlier ++ [offer]) ↔
    Row earlier ∧ (earlier = [] → offer.IsFirst) ∧ ∀ last ∈ earlier.getLast?, last.Follows offer := by
  constructor
  · intro row
    refine ⟨row.left, ?_, fun last h => (List.isChain_append.mp row.follows).2.2 last h offer rfl⟩
    rintro rfl
    exact row.first offer rfl
  · rintro ⟨row, hfirst, hlast⟩
    refine ⟨fun other h => ?_, ?_⟩
    · cases earlier with
      | nil =>
        obtain rfl : offer = other := Option.some.inj h
        exact hfirst rfl
      | cons head rest => exact row.first other h
    · rw [List.isChain_append]
      refine ⟨row.follows, List.isChain_singleton _, fun last h next hnext => ?_⟩
      obtain rfl : offer = next := Option.some.inj hnext
      exact hlast last h

variable {cell : Nat}

/-- Where a frame is not dirty, the display shows it already. -/
theorem agreeOn_drawn (row : Row (earlier ++ [offer])) (picture : Picture) (hc : cell < 768)
    (hclean : offer.data.screen.dirty[cell] = false) :
    (drawn picture (earlier.filterMap Offer.sent?)).AgreeOn cell offer.shown.picture := by
  -- From the end of the row: a frame that was missed leaves its dirty cells to the next one, so what that has clean was clean
  -- in both.
  induction earlier using List.reverseRecOn generalizing offer cell with
  | nil =>
    have hfirst := (concat_iff.mp row).2.1 rfl
    rw [hfirst.dirty hc] at hclean
    exact absurd hclean.symm Bool.false_ne_true
  | append_singleton earlier last ih =>
    obtain ⟨hrow, -, hfollows⟩ := concat_iff.mp row
    have follows : last.Follows offer := hfollows last (by simp)
    by_cases hsent : last.outcome = .sent
    · rw [drawn_concat_of_sent hsent fun cell hc hclean => ih hrow hc hclean]
      exact follows.agreeOn hc hclean
    · have hmissed : last.outcome = .missed := by
        cases hout : last.outcome with
        | sent => exact absurd hout hsent
        | missed => rfl
        | closed => exact absurd hout follows.reachable
      rw [filterMap_concat_of_not_sent hsent]
      exact (ih hrow hc (follows.clean_of_missed hmissed hc hclean)).trans (follows.agreeOn hc hclean)

/-- After a frame that got through the display keeps all of it. -/
theorem drawn_sent (row : Row (earlier ++ [offer])) (hsent : offer.outcome = .sent) (picture : Picture) :
    drawn picture ((earlier ++ [offer]).filterMap Offer.sent?) = offer.shown.picture :=
  drawn_concat_of_sent hsent fun _ hc hclean => row.agreeOn_drawn picture hc hclean

/-- However far a display has come with the frames that got through, it keeps all of the last that it has drawn. -/
theorem drawn_eq {offers : List Offer} (row : Row offers) {seen rest : List DisplayData} {data : DisplayData}
    (h : seen ++ data :: rest <+: offers.filterMap Offer.sent?) (picture : Picture) :
    drawn picture (seen ++ [data]) = data.screen.picture := by
  obtain ⟨more, hmore⟩ := h
  rw [List.append_assoc, List.cons_append, eq_comm, List.filterMap_eq_append_iff] at hmore
  obtain ⟨before, after, rfl, hbefore, hafter⟩ := hmore
  obtain ⟨skipped, offer, later, rfl, hskipped, hsent, -⟩ := List.filterMap_eq_cons_iff.mp hafter
  rw [← List.append_assoc, List.append_cons] at row
  have hthrough : offer.outcome = .sent ∧ offer.data = data := by simpa [Offer.sent?] using hsent
  have hfirst : (before ++ skipped ++ [offer]).filterMap Offer.sent? = seen ++ [data] := by
    simp [List.filterMap_append, hbefore, hsent, List.filterMap_eq_nil_iff.mpr hskipped]
  rw [← hfirst, row.left.drawn_sent hthrough.1, ← offer.picture_data, hthrough.2]

/-- Neighbours in a row follow each other. -/
theorem follows_of_split {first second : Offer} (row : Row (earlier ++ first :: second :: later)) :
    first.Follows second :=
  (List.isChain_cons_cons.mp (List.isChain_append.mp row.follows).2.1).1

end Row

/-! ## The feed between offers -/

namespace Offer

/-- The feed after the offer; it is detached if its receiver is gone. -/
def after (offer : Offer) : DisplayFeed :=
  { (offer.feed.offer offer.wanted).2 with attached := offer.outcome != .closed }

theorem offerFrame_fst (offer : Offer) (h : offer.feed.attached = true) :
    (offer.feed.offerFrame offer.shown).1 = offer.after := by
  unfold DisplayFeed.offerFrame
  rw [if_pos h]
  rfl

/-- As long as the receiver is there, the next frame follows. -/
theorem follows_after (offer : Offer) (h : offer.outcome ≠ .closed) : offer.Follows ⟨offer.shown, offer.after⟩ where
  reachable := h
  machine := .refl _
  lastFrame := rfl
  missedDirty := rfl

/-- A frame that gets through waits behind the others. -/
theorem items_after (offer : Offer) :
    offer.after.channel.items = offer.feed.channel.items ++ [offer].filterMap Offer.sent? := by
  have hsent : [offer].filterMap Offer.sent? = if offer.outcome = .sent then [offer.data] else [] := by
    by_cases h : offer.outcome = .sent <;> simp [sent?, h]
  rw [hsent]
  exact offer.feed.channel.offer_items offer.data

/-- A frame gets through only if the receiver is there. -/
theorem receiverGone_of_sent (offer : Offer) (h : offer.outcome = .sent) : offer.feed.channel.receiverGone = false :=
  ((offer.feed.channel.offer_sent_iff offer.data).mp h).1

theorem receiverGone_after (offer : Offer) :
    offer.after.channel.receiverGone = offer.feed.channel.receiverGone :=
  offer.feed.channel.receiverGone_offer offer.data

end Offer

/-- The feed once nothing is offered to it any more. -/
def DisplayFeed.detach (feed : DisplayFeed) : DisplayFeed := { feed with attached := false }

/-- The feed with more or less room in its channel. -/
def DisplayFeed.resize (feed : DisplayFeed) (capacity : Nat) : DisplayFeed :=
  { feed with channel := { feed.channel with capacity := capacity } }

/-- What a display takes when it receives. -/
def DisplayFeed.taken (feed : DisplayFeed) : List DisplayData :=
  match feed.receive.1 with
  | .item data => [data]
  | _ => []

theorem DisplayFeed.receiverGone_receive (feed : DisplayFeed) :
    feed.receive.2.channel.receiverGone = feed.channel.receiverGone := by
  change (feed.channel.receive feed.attached).2.receiverGone = _
  unfold Channel.receive
  split
  · rfl
  · split <;> rfl

/-- What a display takes waited before what waits still. -/
theorem DisplayFeed.taken_append_items (feed : DisplayFeed) :
    feed.taken ++ feed.receive.2.channel.items = feed.channel.items := by
  unfold DisplayFeed.taken DisplayFeed.receive Channel.receive
  by_cases hgone : feed.channel.receiverGone = true
  · rw [if_pos hgone]
    rfl
  · rw [if_neg hgone]
    cases hitems : feed.channel.items with
    | nil => cases feed.attached <;> simp [hitems]
    | cons item rest => rfl

/-- What was sent was taken or waits, in order, and nothing is lost while the receiver is there. -/
structure DisplayFeed.Delivered (feed : DisplayFeed) (sent received : List DisplayData) : Prop where
  queue : received ++ feed.channel.items <+: sent
  kept : feed.channel.receiverGone = false → received ++ feed.channel.items = sent

namespace DisplayFeed.Delivered

variable {feed next : DisplayFeed} {sent received : List DisplayData}

/-- What is sent next waits behind the others. -/
theorem offer (delivered : feed.Delivered sent received) {more : List DisplayData}
    (hgone : next.channel.receiverGone = feed.channel.receiverGone)
    (hitems : next.channel.items = feed.channel.items ++ more)
    (hmore : more = [] ∨ feed.channel.receiverGone = false) : next.Delivered (sent ++ more) received := by
  have hsame : received ++ next.channel.items = received ++ feed.channel.items ++ more := by
    rw [hitems, List.append_assoc]
  refine ⟨?_, fun hthere => ?_⟩
  · rw [hsame]
    rcases hmore with rfl | hthere
    · rw [List.append_nil, List.append_nil]
      exact delivered.queue
    · exact ⟨[], by rw [List.append_nil, delivered.kept hthere]⟩
  · rw [hsame, delivered.kept (hgone.symm.trans hthere)]

/-- A display takes a frame. -/
theorem receive (delivered : feed.Delivered sent received) : feed.receive.2.Delivered sent (received ++ feed.taken) := by
  have hsame : received ++ feed.taken ++ feed.receive.2.channel.items = received ++ feed.channel.items := by
    rw [List.append_assoc, feed.taken_append_items]
  refine ⟨?_, fun hthere => ?_⟩
  · rw [hsame]
    exact delivered.queue
  · rw [hsame, delivered.kept (feed.receiverGone_receive.symm.trans hthere)]

/-- Room comes or goes. -/
theorem resize (delivered : feed.Delivered sent received) (capacity : Nat) :
    (feed.resize capacity).Delivered sent received := ⟨delivered.queue, delivered.kept⟩

/-- The receiver goes, and what waited is lost. -/
theorem dropReceiver (delivered : feed.Delivered sent received) : feed.dropReceiver.Delivered sent received := by
  refine ⟨?_, fun hthere => absurd hthere.symm Bool.false_ne_true⟩
  exact (List.append_nil received).symm ▸ (List.prefix_append _ _).trans delivered.queue

end DisplayFeed.Delivered

/-- What holds of a feed between events, with the frames that were offered to it and those that its display took: the offers
form a row, with the next one too as long as the display is attached; what was sent was taken or waits, and nothing is lost
while the receiver is there. -/
structure Tracks (machine : Machine) (feed : DisplayFeed) (offers : List Offer) (received : List DisplayData) : Prop where
  row : Row offers
  next : feed.attached = true → Row (offers ++ [⟨machine, feed⟩])
  queue : received ++ feed.channel.items <+: offers.filterMap Offer.sent?
  kept : feed.channel.receiverGone = false → received ++ feed.channel.items = offers.filterMap Offer.sent?

namespace Tracks

variable {machine later : Machine} {feed other : DisplayFeed} {offers : List Offer} {received : List DisplayData}

/-- A new feed with nothing in its channel. -/
theorem new (machine : Machine) {channel : Channel DisplayData} (h : channel.items = []) :
    Tracks machine { channel := channel } [] [] where
  row := .nil
  next _ := Row.concat_iff.mpr ⟨.nil, fun _ => ⟨rfl, rfl⟩, fun _ hlast => absurd hlast (Option.not_mem_none _)⟩
  queue := by rw [h]; exact List.prefix_refl _
  kept _ := by rw [h]; rfl

/-- Row and next offer do not depend on the channel, nor on more of the machine than its screen. -/
theorem row_of_continues (row : Row (offers ++ [⟨machine, feed⟩])) (hmachine : later.Continues machine)
    (hlast : other.lastFrame = feed.lastFrame) (hmissed : other.missedDirty = feed.missedDirty) :
    Row (offers ++ [⟨later, other⟩]) := by
  obtain ⟨hrow, hfirst, hfollows⟩ := Row.concat_iff.mp row
  refine Row.concat_iff.mpr ⟨hrow, fun hnil => ?_, fun last hin => ?_⟩
  · exact ⟨hlast.trans (hfirst hnil).lastFrame, hmissed.trans (hfirst hnil).missedDirty⟩
  · have follows := hfollows last hin
    exact ⟨follows.reachable, hmachine.trans follows.machine, hlast.trans follows.lastFrame,
      hmissed.trans follows.missedDirty⟩

/-- Between frames the machine may change as far as the screen goes on. -/
theorem continues (tracks : Tracks machine feed offers received) (h : later.Continues machine) :
    Tracks later feed offers received :=
  { tracks with next := fun hattached => row_of_continues (tracks.next hattached) h rfl rfl }

/-- A display that is detached. -/
theorem detach (tracks : Tracks machine feed offers received) : Tracks machine feed.detach offers received :=
  { tracks with next := fun hattached => absurd hattached Bool.false_ne_true }

theorem delivered (tracks : Tracks machine feed offers received) :
    feed.Delivered (offers.filterMap Offer.sent?) received := ⟨tracks.queue, tracks.kept⟩

/-- A frame that is offered joins the row, and waits if it gets through. -/
theorem after (tracks : Tracks machine feed offers received) (hattached : feed.attached = true) :
    Tracks machine.renderFrame (Offer.after ⟨machine, feed⟩) (offers ++ [⟨machine, feed⟩]) received := by
  have row := tracks.next hattached
  generalize hoffer : (⟨machine, feed⟩ : Offer) = offer at row ⊢
  have hfeed : offer.feed = feed := by rw [← hoffer]
  have hshown : offer.shown = machine.renderFrame := by rw [← hoffer]; rfl
  have hthrough : [offer].filterMap Offer.sent? = [] ∨ feed.channel.receiverGone = false := by
    by_cases hsent : offer.outcome = .sent
    · exact Or.inr (hfeed ▸ offer.receiverGone_of_sent hsent)
    · exact Or.inl (filterMap_concat_of_not_sent hsent [])
  have delivered : offer.after.Delivered ((offers ++ [offer]).filterMap Offer.sent?) received := by
    rw [List.filterMap_append]
    exact tracks.delivered.offer (hfeed ▸ offer.receiverGone_after) (hfeed ▸ offer.items_after) hthrough
  refine ⟨row, fun hopen => ?_, delivered.queue, delivered.kept⟩
  have hreachable : offer.outcome ≠ .closed := by simpa [Offer.after] using hopen
  rw [Row.concat_iff, ← hshown]
  refine ⟨row, fun hnil => absurd hnil (by simp), fun last hlast => ?_⟩
  obtain rfl : offer = last := by simpa using hlast
  exact offer.follows_after hreachable

/-- A frame is run, and offered if the display is attached. -/
theorem offerFrame (tracks : Tracks machine feed offers received) :
    Tracks machine.renderFrame (feed.offerFrame machine.renderFrame).1
      (offers ++ if feed.attached then [⟨machine, feed⟩] else []) received := by
  by_cases hattached : feed.attached = true
  · have hafter := Offer.offerFrame_fst ⟨machine, feed⟩ hattached
    rw [if_pos hattached]
    exact hafter ▸ tracks.after hattached
  · have hsame : (feed.offerFrame machine.renderFrame).1 = feed := by
      unfold DisplayFeed.offerFrame
      rw [if_neg hattached]
    rw [hsame, if_neg hattached, List.append_nil]
    exact { tracks with next := fun h => absurd h hattached }

/-- What happens at the receiving end changes the channel only. -/
theorem withChannel (tracks : Tracks machine feed offers received) {channel : Channel DisplayData}
    {taken : List DisplayData}
    (delivered : DisplayFeed.Delivered { feed with channel := channel } (offers.filterMap Offer.sent?) taken) :
    Tracks machine { feed with channel := channel } offers taken where
  row := tracks.row
  next hattached := row_of_continues (tracks.next hattached) (.refl machine) rfl rfl
  queue := delivered.queue
  kept := delivered.kept

theorem receive (tracks : Tracks machine feed offers received) :
    Tracks machine feed.receive.2 offers (received ++ feed.taken) := tracks.withChannel tracks.delivered.receive

theorem resize (tracks : Tracks machine feed offers received) (capacity : Nat) :
    Tracks machine (feed.resize capacity) offers received := tracks.withChannel (tracks.delivered.resize capacity)

theorem dropReceiver (tracks : Tracks machine feed offers received) :
    Tracks machine feed.dropReceiver offers received := tracks.withChannel tracks.delivered.dropReceiver

end Tracks

end ZxSpectrum
