/-!
# Bounded channels

A channel holds the items that its receiver has not taken yet. Offering an item never waits: an item for which there is no
room is missed, and once the receiver is gone nothing gets through. `offer_sent_iff` says when an item gets through.
-/

namespace ZxSpectrum

/-- What became of an item that was offered. -/
inductive Outcome where
  | sent
  /-- There was no room. -/
  | missed
  /-- The receiver is gone. -/
  | closed
deriving DecidableEq, Repr

/-- An outcome adds one to the count of what got through or to that of what did not, unless the receiver is gone. -/
theorem Outcome.counts_add (outcome : Outcome) (sent missed : Nat) :
    (sent + if outcome = .sent then 1 else 0) + (missed + if outcome = .missed then 1 else 0) =
      sent + missed + if outcome = .closed then 0 else 1 := by
  cases outcome <;> simp <;> omega

/-- What a receiver gets when it does not wait. -/
inductive Received (α : Type) where
  | item (value : α)
  | empty
  /-- Nothing is left and nothing will come. -/
  | disconnected
  /-- The receiver itself is gone. -/
  | dropped

structure Channel (α : Type) where
  /-- How many items may wait. With 0 every item is missed, since nobody waits for one. -/
  capacity : Nat
  /-- The items that wait, oldest first. -/
  items : List α := []
  receiverGone : Bool := false

namespace Channel

variable {α : Type}

/-- Offers an item without waiting. -/
def offer (channel : Channel α) (item : α) : Outcome × Channel α :=
  if channel.receiverGone then (.closed, channel)
  else if channel.items.length < channel.capacity then (.sent, { channel with items := channel.items ++ [item] })
  else (.missed, channel)

/-- Takes the oldest item without waiting; `attached` says whether items may still be offered. -/
def receive (channel : Channel α) (attached : Bool) : Received α × Channel α :=
  if channel.receiverGone then (.dropped, channel)
  else
    match channel.items with
    | item :: rest => (.item item, { channel with items := rest })
    | [] => (if attached then .empty else .disconnected, channel)

/-- The channel once its receiver is gone; what waited is lost. -/
def dropReceiver (channel : Channel α) : Channel α := { channel with items := [], receiverGone := true }

theorem offer_sent_iff (channel : Channel α) (item : α) :
    (channel.offer item).1 = .sent ↔ channel.receiverGone = false ∧ channel.items.length < channel.capacity := by
  unfold offer
  cases channel.receiverGone <;> simp
  split <;> simp_all

theorem offer_closed_iff (channel : Channel α) (item : α) :
    (channel.offer item).1 = .closed ↔ channel.receiverGone = true := by
  unfold offer
  cases channel.receiverGone <;> simp
  split <;> simp

/-- An offer leaves the receiver where it is. -/
@[simp] theorem receiverGone_offer (channel : Channel α) (item : α) :
    (channel.offer item).2.receiverGone = channel.receiverGone := by
  unfold offer
  split
  · rfl
  · split <;> rfl

/-- An item that gets through waits behind the others; otherwise the channel stays as it is. -/
theorem offer_items (channel : Channel α) (item : α) :
    (channel.offer item).2.items = channel.items ++ if (channel.offer item).1 = .sent then [item] else [] := by
  unfold offer
  cases channel.receiverGone <;> simp
  split <;> simp

end Channel

end ZxSpectrum
