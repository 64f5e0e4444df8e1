import ZxSpectrum.Ula.Timing

/-!
# Change logs

An `EventLog` holds the changes of one value during a frame, each with its time. Its view `events` begins with the value
at time 0, and once the frame is closed it ends with an entry at the end of the frame. Changes that an instruction made
past the end of the frame are carried over and replayed when the next frame begins.
-/

namespace ZxSpectrum

/-- A value from some time of the frame on. -/
structure Event where
  tstate : Nat
  value : UInt8
deriving DecidableEq, Repr

structure EventLog where
  /-- The value at time 0. -/
  start : UInt8
  /-- Later changes, newest first. -/
  changes : List Event := []
  /-- Changes of the next frame that have been made already, oldest first. -/
  carried : List Event := []
  /-- The value with which the next frame begins. -/
  boundary : UInt8
deriving DecidableEq

namespace EventLog

/-- A log in which the value never changes. -/
def constant (value : UInt8) : EventLog := { start := value, boundary := value }

/-- The entries, oldest first. -/
def events (log : EventLog) : List Event := ⟨0, log.start⟩ :: log.changes.reverse

/-- The newest entry. -/
def last (log : EventLog) : Event := log.changes.head?.getD ⟨0, log.start⟩

/-- Replaces the newest entry. -/
def setLast (log : EventLog) (value : UInt8) : EventLog :=
  match log.changes with
  | [] => { log with start := value }
  | event :: earlier => { log with changes := { event with value := value } :: earlier }

/-- Notes a value at a time, if it differs from the newest entry's. Of two changes at one time only the second counts. -/
def record (log : EventLog) (event : Event) : EventLog :=
  if log.last.value = event.value then log
  else if log.last.tstate = event.tstate then log.setLast event.value
  else { log with changes := event :: log.changes }

/-- Begins a frame: the changes carried over are replayed. -/
def beginFrame (log : EventLog) : EventLog := log.carried.foldl record (constant log.boundary)

/-- An entry that belongs to the frame. -/
def inFrame (event : Event) : Bool := event.tstate < Ula.tstatesPerFrame

/-- The same change, seen from the start of the next frame. The difference is one of words of 32 bits: a change before the end of
its frame, which is carried over only behind one from past the end, wraps to a time far ahead. -/
def toNextFrame (event : Event) : Event :=
  { event with
    tstate :=
      if Ula.tstatesPerFrame ≤ event.tstate then event.tstate - Ula.tstatesPerFrame
      else event.tstate + (4294967296 - Ula.tstatesPerFrame) }

/-- Closes the frame: changes past its end are carried over, and the last entry is the value at the end. -/
def endFrame (log : EventLog) : EventLog :=
  let inside := log.changes.reverse.takeWhile inFrame
  let late := log.changes.reverse.dropWhile inFrame
  let boundary := (inside.getLast?.getD ⟨0, log.start⟩).value
  { start := log.start
    changes := ⟨Ula.tstatesPerFrame, boundary⟩ :: inside.reverse
    carried := late.map toNextFrame
    boundary := boundary }

@[simp] theorem events_constant (value : UInt8) : (constant value).events = [⟨0, value⟩] := rfl

theorem tstate_toNextFrame {event : Event} (h : Ula.tstatesPerFrame ≤ event.tstate) :
    (toNextFrame event).tstate = event.tstate - Ula.tstatesPerFrame := if_pos h

/-- The newest entry is the last one of the view. -/
theorem getLast?_events (log : EventLog) : log.events.getLast? = some log.last := by
  cases h : log.changes <;> simp [events, last, h, List.getLast?_cons]

end EventLog

end ZxSpectrum
