import ZxSpectrum.Channel
import ZxSpectrum.Log
import ZxSpectrum.Machine

/-!
# Feeds of displays and loudspeakers

A feed is the sending end of a channel with its bookkeeping. Every frame is offered to every feed and none is waited for.
A display draws only the dirty cells of a frame, so the dirty cells of the frames that it missed are added to the next one
that gets through.
-/

namespace ZxSpectrum

/-- The cells that are dirty in one grid or the other. -/
def DisplayData.addDirty (data : DisplayData) (more : Vector Bool 768) : DisplayData :=
  { data with screen := { data.screen with dirty := Vector.zipWith (· || ·) data.screen.dirty more } }

structure DisplayFeed where
  channel : Channel DisplayData
  /-- Whether frames are offered to it. -/
  attached : Bool := true
  /-- The frame offered last, whether it got through or not. -/
  lastFrame : Option UInt32 := none
  sent : Nat := 0
  missed : Nat := 0
  /-- The dirty cells of the frames missed since one got through. -/
  missedDirty : Option (Vector Bool 768) := none

namespace DisplayFeed

/-- Whether the changes since the last frame are enough for it: it has been offered the frame before. -/
def wantsDiff (feed : DisplayFeed) (frame : UInt32) : Bool := feed.lastFrame == some (frame - 1)

/-- The frame as it is offered: the dirty cells of the frames missed before are dirty in it too. -/
def complete (feed : DisplayFeed) (data : DisplayData) : DisplayData :=
  match feed.missedDirty with
  | some missed => data.addDirty missed
  | none => data

/-- Offers a frame. -/
def offer (feed : DisplayFeed) (data : DisplayData) : Outcome × DisplayFeed :=
  let data := feed.complete data
  let (outcome, channel) := feed.channel.offer data
  (outcome,
    { channel := channel
      attached := feed.attached
      lastFrame := some data.frame
      sent := feed.sent + if outcome = .sent then 1 else 0
      missed := feed.missed + if outcome = .missed then 1 else 0
      missedDirty := if outcome = .missed then some data.screen.dirty else none })

/-- Takes a frame at the receiving end. -/
def receive (feed : DisplayFeed) : Received DisplayData × DisplayFeed :=
  let (received, channel) := feed.channel.receive feed.attached
  (received, { feed with channel := channel })

/-- The feed once its receiving end is gone. -/
def dropReceiver (feed : DisplayFeed) : DisplayFeed := { feed with channel := feed.channel.dropReceiver }

/-- What is logged when a frame has been offered. -/
def offerLog (outcome : Outcome) (frame : UInt32) : List LogRecord :=
  if outcome = .missed then [⟨.trace, .display, s!"display missed frame {frame.toNat}"⟩] else []

/-- Offers the frame that the machine has just run, as much of it as the feed wants. A feed that is not attached is left
alone, and one whose receiver is gone is detached. -/
def offerFrame (machine : Machine) (feed : DisplayFeed) : DisplayFeed × List LogRecord :=
  if feed.attached then
    let data := machine.displayData (feed.wantsDiff machine.board.shadow.frame)
    let (outcome, feed) := feed.offer data
    ({ feed with attached := outcome != .closed }, offerLog outcome data.frame)
  else (feed, [])

/-- Only the dirty grid of a frame changes when it is completed. -/
@[simp] theorem frame_complete (feed : DisplayFeed) (data : DisplayData) :
    (feed.complete data).frame = data.frame := by
  unfold complete
  split <;> rfl

/-- The frame offered last is remembered, whatever became of it. -/
@[simp] theorem lastFrame_offer (feed : DisplayFeed) (data : DisplayData) :
    (feed.offer data).2.lastFrame = some data.frame := congrArg some (feed.frame_complete data)

/-- Every frame offered counts as sent or as missed, unless the receiver is gone. -/
theorem counts_offer (feed : DisplayFeed) (data : DisplayData) :
    (feed.offer data).2.sent + (feed.offer data).2.missed =
      feed.sent + feed.missed + if (feed.offer data).1 = .closed then 0 else 1 :=
  Outcome.counts_add _ feed.sent feed.missed

end DisplayFeed

structure AudioFeed where
  channel : Channel AudioData
  /-- Whether frames are offered to it. -/
  attached : Bool := true
  sent : Nat := 0
  missed : Nat := 0

namespace AudioFeed

/-- Offers a frame. -/
def offer (feed : AudioFeed) (data : AudioData) : Outcome × AudioFeed :=
  let (outcome, channel) := feed.channel.offer data
  (outcome,
    { channel := channel
      attached := feed.attached
      sent := feed.sent + if outcome = .sent then 1 else 0
      missed := feed.missed + if outcome = .missed then 1 else 0 })

/-- Takes a frame at the receiving end. -/
def receive (feed : AudioFeed) : Received AudioData × AudioFeed :=
  let (received, channel) := feed.channel.receive feed.attached
  (received, { feed with channel := channel })

/-- The feed once its receiving end is gone. -/
def dropReceiver (feed : AudioFeed) : AudioFeed := { feed with channel := feed.channel.dropReceiver }

/-- What is logged when a frame has been offered. -/
def offerLog (outcome : Outcome) : List LogRecord :=
  if outcome = .missed then [⟨.trace, .audio, "audio receiver missed a frame"⟩] else []

/-- Offers the frame that the machine has just run, unless the feed is detached; one whose receiver is gone becomes so. -/
def offerFrame (machine : Machine) (feed : AudioFeed) : AudioFeed × List LogRecord :=
  if feed.attached then
    let (outcome, feed) := feed.offer machine.audioData
    ({ feed with attached := outcome != .closed }, offerLog outcome)
  else (feed, [])

/-- Every frame offered counts as sent or as missed, unless the receiver is gone. -/
theorem counts_offer (feed : AudioFeed) (data : AudioData) :
    (feed.offer data).2.sent + (feed.offer data).2.missed =
      feed.sent + feed.missed + if (feed.offer data).1 = .closed then 0 else 1 :=
  Outcome.counts_add _ feed.sent feed.missed

end AudioFeed

end ZxSpectrum
