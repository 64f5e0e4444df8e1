import ZxSpectrum.Proofs.ChangeHistory
import ZxSpectrum.Proofs.EventOrder

/-!
# Ports over many frames

What the ports emit on a signal, with absolute times, is the history of the signal. Frame after frame of any accesses at any
times, the closed logs show that history and nothing else (`closedLogs_show_history`), as long as no frame runs on for a
whole frame past its end.

`Signal.written` and `Signal.heard` say what an access emits, and an access moves log and history in step
(`EventLog.Tells.output`, `EventLog.Tells.input`). The level that is heard is the one last written (`Board.beeper_played`).
-/

namespace ZxSpectrum

open Ula

/-! ## What the ports emit -/

namespace Signal

/-- What a write to a port emits: the colour or the level in the byte. -/
def written (signal : Signal) (port : UInt16) (value : UInt8) : Option UInt8 :=
  if isUlaPort port then
    match signal with
    | .border => some (value &&& 0x07)
    | .beeper => some ((value >>> 3) &&& 0x03)
  else none

/-- What a read of a port emits: while a tape is heard, the level last written (`Board.beeper_played`), with bit 1 forced on while
the tape input is high. -/
def heard (signal : Signal) (ports : Ports) (port : UInt16) : Option UInt8 :=
  if isUlaPort port then
    match signal, ports.tapeEar with
    | .beeper, some ear =>
      if ports.tapeNoise && !ports.acceleratedLoad then
        some (if ear then ports.beeper ||| 0x02 else ports.beeper)
      else none
    | _, _ => none
  else none

theorem log_write_eq (signal : Signal) (ports : Ports) (port : UInt16) (value : UInt8) (time : Nat) :
    signal.log (ports.write port value time) =
      (signal.written port value).elim (signal.log ports) fun level => (signal.log ports).record ⟨time, level⟩ := by
  unfold Ports.write written
  by_cases hport : isUlaPort port = true
  · rw [if_pos hport, if_pos hport]
    cases signal <;> rfl
  · rw [if_neg hport, if_neg hport]
    rfl

theorem log_read_eq (signal : Signal) (ports : Ports) (port : UInt16) (time : Nat) :
    signal.log (ports.read port time).2 =
      (signal.heard ports port).elim (signal.log ports) fun level => (signal.log ports).record ⟨time, level⟩ := by
  unfold Ports.read heard
  by_cases hport : isUlaPort port = true
  · rw [if_pos hport, if_pos hport]
    unfold Ports.noteRead
    cases signal with
    | border =>
      dsimp only
      cases ports.tapeEar with
      | none => rfl
      | some ear =>
        dsimp only
        split <;> rfl
    | beeper =>
      dsimp only
      cases ports.tapeEar with
      | none => rfl
      | some ear =>
        dsimp only
        by_cases hheard : (ports.tapeNoise && !ports.acceleratedLoad) = true
        · rw [if_pos hheard, if_pos hheard]
          rfl
        · rw [if_neg hheard, if_neg hheard]
          rfl
  · rw [if_neg hport, if_neg hport]
    rfl

end Signal

/-- The change that an access at a time makes, if it emits a value. -/
def emission (time : Nat) (value : Option UInt8) : List Event := (value.map (⟨time, ·⟩)).toList

/-- The same changes, seen from `time` earlier. -/
def delayed (time : Nat) (events : List Event) : List Event :=
  events.map fun event => { event with tstate := time + event.tstate }

theorem delayed_append (time : Nat) (events later : List Event) :
    delayed time (events ++ later) = delayed time events ++ delayed time later := List.map_append

/-- The history of a run: what its first frames emit, with absolute times. -/
def history (emitted : Nat → List Event) : Nat → List Event
  | 0 => []
  | frames + 1 => history emitted frames ++ delayed (frames * tstatesPerFrame) (emitted frames)

/-- Later frames do not change what the history says about earlier ones. -/
theorem valueAt_history (emitted : Nat → List Event) (initial : UInt8) {frames total time : Nat} (h : frames ≤ total)
    (ht : time < frames * tstatesPerFrame) :
    valueAt initial (history emitted total) time = valueAt initial (history emitted frames) time := by
  induction total, h using Nat.le_induction with
  | base => rfl
  | succ total hle ih =>
    have hmul : frames * tstatesPerFrame ≤ total * tstatesPerFrame := Nat.mul_le_mul_right _ hle
    rw [history, valueAt_append, ih]
    refine valueAt_of_lt fun event he => ?_
    obtain ⟨original, -, rfl⟩ := List.mem_map.mp he
    change time < total * tstatesPerFrame + original.tstate
    omega

/-- A port is accessed after the clock at which the access begins. -/
theorem Ula.lt_beforePort (port : UInt16) (clock : Nat) : clock < beforePort port clock := by
  have h := clock_le_contend 1 clock
  unfold beforePort access
  split <;> omega

/-! ## One access -/

namespace EventLog

variable {initial : UInt8} {past : List Event} {start : Nat} {signal : Signal} {board : Board}

/-- An access ahead of the clock adds what it emits to the history. -/
theorem Tells.access {log : EventLog} {clock time later : Nat} (tells : Tells initial past start log clock)
    (hfrom : clock < time) (hto : time ≤ later) (value : Option UInt8) :
    Tells initial (past ++ delayed start (emission time value)) start
      (value.elim log fun level => log.record ⟨time, level⟩) later := by
  cases value with
  | none =>
    rw [show delayed start (emission time none) = [] from rfl, List.append_nil]
    exact tells.wait (Nat.le_trans (Nat.le_of_lt hfrom) hto)
  | some level => exact tells.record hfrom hto

theorem Tells.output (tells : Tells initial past start (signal.log board.ports) board.clock) (port : UInt16)
    (value : UInt8) :
    Tells initial (past ++ delayed start (emission (beforePort port board.clock) (signal.written port value))) start
      (signal.log (Bus.output port value board).ports) (Bus.output port value board).clock := by
  have haccess := tells.access (lt_beforePort port board.clock) (clock_le_afterPort port _) (signal.written port value)
  rw [← Signal.log_write_eq] at haccess
  exact haccess

theorem Tells.input (tells : Tells initial past start (signal.log board.ports) board.clock) (port : UInt16) :
    Tells initial (past ++ delayed start (emission (beforePort port board.clock) (signal.heard board.ports port))) start
      (signal.log (Bus.input port board).2.ports) (Bus.input port board).2.clock := by
  have haccess := tells.access (lt_beforePort port board.clock) (clock_le_afterPort port _)
    (signal.heard board.ports port)
  rw [← Signal.log_read_eq] at haccess
  exact haccess

end EventLog

/-! ## Frames of accesses -/

namespace Board

/-- What happens to the ports in the course of a frame. The tape input and its speed change between accesses. -/
inductive PortAction where
  | advance (time : Nat)
  | read (port : UInt16)
  | write (port : UInt16) (value : UInt8)
  | setTape (ear : Option Bool)
  | accelerate (on : Bool)

/-- The board after an action. -/
def act (board : Board) : PortAction → Board
  | .advance time => Bus.idle time board
  | .read port => (Bus.input port board).2
  | .write port value => Bus.output port value board
  | .setTape ear => { board with ports := { board.ports with tapeEar := ear } }
  | .accelerate on => { board with ports := { board.ports with acceleratedLoad := on } }

/-- What an action emits on a signal. -/
def emits (signal : Signal) (board : Board) : PortAction → List Event
  | .read port => emission (beforePort port board.clock) (signal.heard board.ports port)
  | .write port value => emission (beforePort port board.clock) (signal.written port value)
  | _ => []

/-- What a list of actions emits. -/
def emitsAll (signal : Signal) : List PortAction → Board → List Event
  | [], _ => []
  | action :: rest, board => board.emits signal action ++ emitsAll signal rest (board.act action)

/-- A frame begins: what was carried over is replayed, and the clock keeps what the last frame ran over. -/
def openFrame (board : Board) : Board := { board.beginFrame with clock := wrapFrame board.clock }

/-- A frame ends: the logs are closed. -/
def closeFrame (board : Board) : Board := { board with ports := board.ports.endFrame }

/-- A frame with some actions in it. -/
def playFrame (actions : List PortAction) (board : Board) : Board := (actions.foldl act board.openFrame).closeFrame

/-- The board after the first frames of a run. -/
def played (frames : Nat → List PortAction) (board : Board) : Nat → Board
  | 0 => board
  | count + 1 => playFrame (frames count) (played frames board count)

/-- What a frame of a run emits. -/
def emitted (signal : Signal) (frames : Nat → List PortAction) (board : Board) (frame : Nat) : List Event :=
  emitsAll signal (frames frame) (played frames board frame).openFrame

/-! ### The level last written -/

/-- The level that an action writes to the beeper. -/
def PortAction.level : PortAction → Option UInt8
  | .write port value => Signal.beeper.written port value
  | _ => none

/-- Only writes change the level of the beeper. -/
theorem beeper_act (board : Board) (action : PortAction) :
    (board.act action).ports.beeper = action.level.getD board.ports.beeper := by
  cases action with
  | read port => exact Ports.beeper_read _ _ _
  | write port value =>
    change (board.ports.write port value (beforePort port board.clock)).beeper =
      (Signal.beeper.written port value).getD board.ports.beeper
    unfold Ports.write Signal.written
    by_cases hport : isUlaPort port = true
    · rw [if_pos hport, if_pos hport]
      rfl
    · rw [if_neg hport, if_neg hport]
      rfl
  | _ => rfl

/-- After any actions the level is the one last written. -/
theorem beeper_foldl_act (actions : List PortAction) (board : Board) : (actions.foldl act board).ports.beeper =
    (actions.filterMap PortAction.level).getLast?.getD board.ports.beeper := by
  induction actions generalizing board with
  | nil => rfl
  | cons action rest ih =>
    rw [List.foldl_cons, ih, beeper_act, List.filterMap_cons]
    cases action.level with
    | none => rfl
    | some level =>
      rw [List.getLast?_cons]
      rfl

/-- Frames begin and end with the level as it is, so that in the course of a run, too, it is the one last written. -/
theorem beeper_played (frames : Nat → List PortAction) (board : Board) (count : Nat) (done : List PortAction) :
    (done.foldl act (played frames board count).openFrame).ports.beeper =
      (((List.range count).flatMap frames ++ done).filterMap PortAction.level).getLast?.getD board.ports.beeper := by
  induction count generalizing done with
  | zero => exact beeper_foldl_act done board.openFrame
  | succ count ih =>
    have hbefore : (played frames board (count + 1)).openFrame.ports.beeper =
        (((List.range count).flatMap frames ++ frames count).filterMap PortAction.level).getLast?.getD board.ports.beeper :=
      ih (frames count)
    rw [beeper_foldl_act, hbefore, List.range_succ, List.flatMap_append, List.flatMap_singleton,
      List.filterMap_append (l := _ ++ frames count), List.getLast?_append, Option.getD_or]

/-! ### History and logs -/

variable {initial : UInt8} {past : List Event} {start : Nat} {signal : Signal}

/-- Every action moves log and history in step. -/
theorem tells_act {board : Board} (tells : EventLog.Tells initial past start (signal.log board.ports) board.clock)
    (action : PortAction) : EventLog.Tells initial (past ++ delayed start (board.emits signal action)) start
      (signal.log (board.act action).ports) (board.act action).clock := by
  cases action with
  | advance time =>
    rw [show delayed start (board.emits signal (.advance time)) = [] from rfl, List.append_nil]
    exact tells.wait (Nat.le_add_right _ _)
  | read port => exact tells.input port
  | write port value => exact tells.output port value
  | setTape ear =>
    rw [show delayed start (board.emits signal (.setTape ear)) = [] from rfl, List.append_nil]
    cases signal <;> exact tells
  | accelerate on =>
    rw [show delayed start (board.emits signal (.accelerate on)) = [] from rfl, List.append_nil]
    cases signal <;> exact tells

theorem tells_foldl_act (actions : List PortAction) {board : Board}
    (tells : EventLog.Tells initial past start (signal.log board.ports) board.clock) :
    EventLog.Tells initial (past ++ delayed start (emitsAll signal actions board)) start
      (signal.log (actions.foldl act board).ports) (actions.foldl act board).clock := by
  induction actions generalizing past board with
  | nil =>
    rw [show delayed start (emitsAll signal [] board) = [] from rfl, List.append_nil]
    exact tells
  | cons action rest ih =>
    rw [emitsAll, delayed_append, ← List.append_assoc]
    exact ih (tells_act tells action)

theorem log_openFrame (signal : Signal) (board : Board) :
    signal.log board.openFrame.ports = (signal.log board.ports).beginFrame := by
  cases signal <;> rfl

theorem log_closeFrame (signal : Signal) (board : Board) :
    signal.log board.closeFrame.ports = (signal.log board.ports).endFrame := by
  cases signal <;> rfl

/-- The log of a frame tells the history so far when all actions have been done. -/
theorem tells_frame (actions : List PortAction) {board : Board}
    (carries : EventLog.Carries initial past start (signal.log board.ports) (wrapFrame board.clock)) :
    EventLog.Tells initial (past ++ delayed start (emitsAll signal actions board.openFrame)) start
      (signal.log (actions.foldl act board.openFrame).ports) (actions.foldl act board.openFrame).clock := by
  refine tells_foldl_act actions ?_
  rw [log_openFrame]
  exact carries.beginFrame

variable {board : Board} {frames : Nat → List PortAction}

/-- Frame after frame, what is carried over tells the rest of the history. -/
theorem carries_played (h : (signal.log board.ports).carried = []) (count : Nat)
    (hclock : ∀ k < count, (played frames board (k + 1)).clock < 2 * tstatesPerFrame) :
    EventLog.Carries (signal.log board.ports).boundary (history (emitted signal frames board) count)
      (count * tstatesPerFrame) (signal.log (played frames board count).ports)
      (wrapFrame (played frames board count).clock) := by
  induction count with
  | zero =>
    rw [Nat.zero_mul]
    exact EventLog.carries_nil h _ _
  | succ count ih =>
    have tells := tells_frame (frames count) (ih fun k hk => hclock k (Nat.lt_succ_of_lt hk))
    rw [Nat.succ_mul, history, played, playFrame, log_closeFrame]
    exact tells.endFrame (hclock count (Nat.lt_succ_self count))

/-- No change of the border or the beeper is lost, made twice or moved into another frame: in a run from a state in which
nothing is carried over, with no frame running on for a whole frame past its end, every closed log shows the history of the
signal at each time of its frame, with times that increase and no change to the same value. The level with which a read is heard
(`Signal.heard`) is at any time the one last written. -/
theorem closedLogs_show_history (signal : Signal) (board : Board) (frames : Nat → List PortAction) (count : Nat)
    (h : (signal.log board.ports).carried = [])
    (hclock : ∀ k < count, (played frames board (k + 1)).clock < 2 * tstatesPerFrame) :
    (∀ k < count, EventLog.Shows (signal.log board.ports).boundary (history (emitted signal frames board) count)
      (k * tstatesPerFrame) (signal.log (played frames board (k + 1)).ports)) ∧
    ∀ k done, (done.foldl act (played frames board k).openFrame).ports.beeper =
      (((List.range k).flatMap frames ++ done).filterMap PortAction.level).getLast?.getD board.ports.beeper := by
  refine ⟨fun k hk => ?_, beeper_played frames board⟩
  have tells := tells_frame (frames k) (carries_played h k fun j hj => hclock j (Nat.lt_trans hj hk))
  have shows := tells.shows
  rw [← log_closeFrame] at shows
  refine ⟨fun time ht => ?_, shows.times, shows.values⟩
  have hlt : k * tstatesPerFrame + time < (k + 1) * tstatesPerFrame := by
    rw [Nat.succ_mul]
    omega
  rw [valueAt_history _ _ (Nat.succ_le_of_lt hk) hlt]
  exact shows.value time ht

/-- Two frames: the first sets the border exactly at its end, the second sets it twice and listens to a tape. -/
def boundaryFrames : Nat → List PortAction
  | 0 => [.advance 69887, .write 0x00FE 0x12]
  | _ => [.write 0x00FE 0x05, .setTape (some true), .advance 1000, .read 0x00FE, .write 0x00FE 0x12]

/-- The change at the end of the first frame shows in the second one. -/
theorem boundaryFrames_show_history : (Signal.border.log ({} : Board).ports).carried = [] ∧
    (∀ k < 2, (played boundaryFrames {} (k + 1)).clock < 2 * tstatesPerFrame) ∧
    ∀ k < 2, EventLog.Shows 7 (history (emitted .border boundaryFrames {}) 2) (k * tstatesPerFrame)
      (Signal.border.log (played boundaryFrames {} (k + 1)).ports) := by
  have hclock : ∀ k < 2, (played boundaryFrames {} (k + 1)).clock < 2 * tstatesPerFrame := by decide
  exact ⟨rfl, hclock, (closedLogs_show_history .border {} boundaryFrames 2 rfl hclock).1⟩

example : (Signal.border.log (played boundaryFrames {} 2).ports).events =
    [⟨0, 2⟩, ⟨4, 5⟩, ⟨1012, 2⟩, ⟨69888, 2⟩] := by decide

end Board

end ZxSpectrum
