import ZxSpectrum.Proofs.InstructionTimes
import ZxSpectrum.Proofs.PortHistory

/-!
# The border that a display is shown

`displayData` shows the colour that the ports hold when the last instruction of a frame is over, and the changes that the
closed log of the frame lists. The list is missing exactly in frames with one colour all through, but the colour is that of
the end of the frame only as long as no change past the end has been carried over (`borderData_run`): an `OUT` on the border
between two frames shows its colour one frame early (`border_straddling_ne`).

What a program emits follows the run of the program (`BusProgram.emits`), so that the histories of the ports are those of
machines too (`Tells.run`).
-/

namespace ZxSpectrum

open Ula

/-! ## What programs emit -/

/-- What a program emits on a signal. -/
def BusProgram.emits {α : Type} (signal : Signal) : BusProgram α → Board → List Event
  | .done _, _ => []
  | .idle time next, board => next.emits signal (Bus.idle time board)
  | .contend address time next, board => next.emits signal (Bus.contend address time board)
  | .peek address next, board => (next (Bus.peek address board)).emits signal board
  | .poke address value next, board => next.emits signal (Bus.poke address value board)
  | .input port next, board =>
    emission (beforePort port board.clock) (signal.heard board.ports port) ++
      (next (Bus.input port board).1).emits signal (Bus.input port board).2
  | .output port value next, board =>
    emission (beforePort port board.clock) (signal.written port value) ++ next.emits signal (Bus.output port value board)

namespace EventLog

/-- A program moves log and history in step. -/
theorem Tells.run {α : Type} {initial : UInt8} {start : Nat} {signal : Signal} (program : BusProgram α) :
    ∀ {past : List Event} {board : Board}, Tells initial past start (signal.log board.ports) board.clock →
      Tells initial (past ++ delayed start (program.emits signal board)) start
        (signal.log (program.run board).2.ports) (program.run board).2.clock := by
  induction program with
  | done result =>
    intro past board tells
    rw [show delayed start ((BusProgram.done result).emits signal board) = [] from rfl, List.append_nil]
    exact tells
  | idle time next ih => exact fun tells => ih (tells.wait (Nat.le_add_right _ _))
  | contend address time next ih => exact fun tells => ih (tells.wait (clock_le_access address time _))
  | peek address next ih => exact fun tells => ih _ tells
  | poke address value next ih =>
    intro past board tells
    obtain ⟨hclock, hports⟩ := Board.clock_poke address value board
    rw [← hclock, ← hports] at tells
    exact ih tells
  | input port next ih =>
    intro past board tells
    rw [BusProgram.emits, delayed_append, ← List.append_assoc]
    exact ih _ (tells.input port)
  | output port value next ih =>
    intro past board tells
    rw [BusProgram.emits, delayed_append, ← List.append_assoc]
    exact ih (tells.output port value)

/-! ## Newest entries -/

/-- Whatever is recorded is the newest value. -/
theorem value_last_record (log : EventLog) (event : Event) : (log.record event).last.value = event.value := by
  unfold record
  by_cases hvalue : log.last.value = event.value
  · rw [if_pos hvalue]
    exact hvalue
  · rw [if_neg hvalue]
    by_cases htime : log.last.tstate = event.tstate
    · rw [if_pos htime]
      unfold setLast last
      cases log.changes <;> rfl
    · rw [if_neg htime]
      rfl

theorem value_last_foldl_record (replayed : List Event) (log : EventLog) :
    (replayed.foldl record log).last.value = (replayed.getLast?.getD log.last).value := by
  induction replayed generalizing log with
  | nil => rfl
  | cons event rest ih =>
    rw [List.foldl_cons, ih, List.getLast?_cons]
    cases rest.getLast? with
    | none => exact value_last_record log event
    | some newest => rfl

/-- A frame begins with the value of the last change that was carried over, if there was one. -/
theorem value_last_beginFrame (log : EventLog) :
    log.beginFrame.last.value = ((log.carried.getLast?.map (·.value)).getD log.boundary) := by
  rw [beginFrame, value_last_foldl_record]
  cases log.carried.getLast? <;> rfl

/-- Closing a log keeps the newest value: it is that of the last change carried over, or that at the end of the frame. -/
theorem value_last_endFrame (log : EventLog) :
    log.last.value = ((log.endFrame.carried.getLast?.map (·.value)).getD log.endFrame.boundary) := by
  have hlast := getLast?_events log
  rw [events_eq_append, List.getLast?_append] at hlast
  have hcarried : log.endFrame.carried.getLast?.map (·.value) = log.late.getLast?.map (·.value) := by
    change ((log.late.map toNextFrame).getLast?).map (·.value) = _
    rw [List.getLast?_map, Option.map_map]
    exact congrArg (fun value => Option.map value log.late.getLast?) (funext value_toNextFrame)
  rw [hcarried]
  cases hlate : log.late.getLast? with
  | none =>
    rw [hlate, Option.none_or, List.getLast?_cons] at hlast
    rw [← Option.some.inj hlast]
    rfl
  | some newest =>
    rw [hlate, Option.some_or] at hlast
    rw [← Option.some.inj hlast]
    rfl

end EventLog

/-! ## Runs of a machine -/

/-- What a machine finds outside when a frame begins: keys, joystick and tape. -/
structure Inputs where
  keyboard : Keyboard := {}
  joystick : UInt8 := 0
  tapeEar : Option Bool := none
  acceleratedLoad : Bool := false

namespace Machine

/-- A machine as creation, a reset or a snapshot leaves it. -/
inductive Fresh : Machine → Prop
  | created {config : Config} {machine : Machine} (h : create config = .ok machine) : Fresh machine
  | reset (machine : Machine) : Fresh machine.reset
  | loaded {machine loaded : Machine} {snapshot : Snapshot} (h : machine.loadSnapshot snapshot = .ok loaded) : Fresh loaded

def withInputs (machine : Machine) (inputs : Inputs) : Machine :=
  machine.modifyPorts fun ports =>
    { ports with
      keyboard := inputs.keyboard, joystick := inputs.joystick, tapeEar := inputs.tapeEar
      acceleratedLoad := inputs.acceleratedLoad }

/-- The machine after some frames, with inputs for each of them. -/
def played (machine : Machine) (inputs : Nat → Inputs) : Nat → Machine
  | 0 => machine
  | frames + 1 => ((machine.played inputs frames).withInputs (inputs frames)).renderFrame

/-- A machine about to run a frame of such a run. -/
def beforeFrame (machine : Machine) (inputs : Nat → Inputs) (frame : Nat) : Machine :=
  (machine.played inputs frame).withInputs (inputs frame)

/-- What a machine emits on a signal in its next frame. -/
def emits (signal : Signal) (machine : Machine) : List Event := machine.frameProgram.emits signal machine.opened

/-- The border colour at a time of a frame, as far as the run has come when the frame is over. -/
def colourAt (machine : Machine) (inputs : Nat → Inputs) (frame time : Nat) : UInt8 :=
  valueAt machine.board.ports.border
    (history (fun frame => (machine.beforeFrame inputs frame).emits .border) (frame + 1))
    (frame * tstatesPerFrame + time)

variable {machine : Machine} {inputs : Nat → Inputs}

theorem Fresh.borderLog (fresh : Fresh machine) :
    machine.board.ports.borderLog = .constant machine.board.ports.border := by
  cases fresh with
  | created h =>
    obtain ⟨-, rfl⟩ := create_eq_ok_iff.mp h
    rfl
  | reset => rfl
  | loaded h =>
    obtain ⟨-, rfl⟩ := loadSnapshot_eq_ok_iff.mp h
    rfl

/-- The clock never goes back. -/
theorem keeps_clock (time : Nat) : Keeps fun board : Board => time ≤ board.clock where
  idle more h := Nat.le_trans h (Board.waits_idle more _).clock
  contend address more h := Nat.le_trans h (Board.waits_contend address more _).clock
  poke address value h := Nat.le_trans h (Nat.le_of_eq (Board.clock_poke address value _).1.symm)
  input port h := Nat.le_trans h (Board.waits_input port _).clock
  output port value h := Nat.le_trans h (Board.waits_output port value _).clock

/-! ## The colour of the ports -/

/-- The ports hold the newest colour of the log. -/
def HoldsNewest (board : Board) : Prop := board.ports.borderLog.last.value = board.ports.border

theorem keeps_holdsNewest : Keeps HoldsNewest where
  idle _ h := h
  contend _ _ h := h
  poke {board} address value h := by
    have hports : (Bus.poke address value board).ports = board.ports := (Board.clock_poke address value board).2
    rw [HoldsNewest, hports]
    exact h
  input {board} port h := by
    have hborder : (Bus.input port board).2.ports.border = board.ports.border := by
      change (board.ports.read port _).2.border = _
      unfold Ports.read Ports.noteRead
      split
      · dsimp only
        split
        · split <;> rfl
        · rfl
      · rfl
    have hlog : (Bus.input port board).2.ports.borderLog = board.ports.borderLog := by
      change Signal.border.log (board.ports.read port _).2 = _
      rw [Signal.log_read_eq]
      unfold Signal.heard
      split <;> rfl
    rw [HoldsNewest, hborder, hlog]
    exact h
  output {board} port value h := by
    change (board.ports.write port value _).borderLog.last.value = (board.ports.write port value _).border
    unfold Ports.write
    split
    · exact EventLog.value_last_record _ _
    · exact h

/-- Between frames the ports hold the colour of the last change carried over, if there is one. -/
def HoldsCarried (machine : Machine) : Prop :=
  machine.board.ports.border =
    (machine.board.ports.borderLog.carried.getLast?.map (·.value)).getD machine.board.ports.borderLog.boundary

theorem HoldsCarried.executed (holds : HoldsCarried machine) : HoldsNewest machine.executed.2 := by
  refine executed_of_keeps keeps_holdsNewest ?_
  change machine.board.ports.borderLog.beginFrame.last.value = machine.board.ports.border
  rw [EventLog.value_last_beginFrame]
  exact holds.symm

theorem HoldsCarried.renderFrame (holds : HoldsCarried machine) : HoldsCarried machine.renderFrame := by
  have hnewest := holds.executed
  unfold HoldsNewest at hnewest
  rw [EventLog.value_last_endFrame] at hnewest
  exact hnewest.symm

theorem Fresh.holdsCarried (fresh : Fresh machine) (frames : Nat) : HoldsCarried (machine.played inputs frames) := by
  induction frames with
  | zero =>
    unfold HoldsCarried
    rw [played, fresh.borderLog]
    rfl
  | succ frames ih =>
    have holds : HoldsCarried (machine.beforeFrame inputs frames) := ih
    exact holds.renderFrame

/-! ## History of the border -/

/-- A frame tells what it emits. -/
theorem tells_executed (machine : Machine) (signal : Signal) {initial : UInt8} {past : List Event} {start : Nat}
    (carries : EventLog.Carries initial past start (signal.log machine.board.ports) (wrapFrame machine.board.clock)) :
    EventLog.Tells initial (past ++ delayed start (machine.emits signal)) start (machine.executedLog signal)
      machine.executed.2.clock := by
  have tells : EventLog.Tells initial past start (signal.log machine.opened.ports) machine.opened.clock := by
    rw [log_opened]
    exact carries.beginFrame
  rw [executedLog, ← run_frameProgram]
  exact tells.run machine.frameProgram

/-- As long as frames end in time, what is carried over tells the history. -/
theorem Fresh.carries (fresh : Fresh machine) (frames : Nat)
    (hclock : ∀ k < frames, (machine.played inputs (k + 1)).board.clock < 2 * tstatesPerFrame) :
    EventLog.Carries machine.board.ports.border
      (history (fun frame => (machine.beforeFrame inputs frame).emits .border) frames) (frames * tstatesPerFrame)
      (Signal.border.log (machine.played inputs frames).board.ports)
      (wrapFrame (machine.played inputs frames).board.clock) := by
  induction frames with
  | zero =>
    have hlog : Signal.border.log machine.board.ports = .constant machine.board.ports.border := fresh.borderLog
    rw [Nat.zero_mul, played, hlog]
    have hnone : (EventLog.constant machine.board.ports.border).carried = [] := rfl
    exact EventLog.carries_nil hnone 0 _
  | succ frames ih =>
    have carries := ih fun k hk => hclock k (Nat.lt_succ_of_lt hk)
    have tells := tells_executed (machine.beforeFrame inputs frames) .border carries
    have hend : (machine.beforeFrame inputs frames).executed.2.clock < 2 * tstatesPerFrame :=
      hclock frames (Nat.lt_succ_self frames)
    rw [Nat.succ_mul, history, played]
    rw [show Signal.border.log ((machine.played inputs frames).withInputs (inputs frames)).renderFrame.board.ports =
      _ from log_renderFrame .border (machine.beforeFrame inputs frames)]
    exact tells.endFrame hend

/-- The changes are missing where the log has a first and a last entry only. -/
theorem borderEvents_eq_none_iff (machine : Machine) (diff : Bool) :
    (machine.displayData diff).borderEvents = none ↔ machine.board.ports.borderLog.events.length ≤ 2 := by
  unfold displayData
  by_cases h : 2 < machine.board.ports.borderLog.events.length
  · simp only [if_pos h, reduceCtorEq, false_iff]
    exact Nat.not_le.mpr h
  · simp only [if_neg h, true_iff]
    exact Nat.not_lt.mp h

/-- What a display is shown of the border after any frame of any run. The colour is that of the last entry of the list
exactly if the last change carried over into the next frame, if there is one, is back to it. Unless a frame before ended a
whole frame late, which takes an instruction with more than one index prefix (`clock_renderFrame_lt`): the colour is the one
in force when the last instruction of the frame is over; the last entry of the list has the one in force at the end of the
frame; the changes are missing exactly if the border had one colour all through the frame, and that is the colour shown if
no change was carried over. -/
theorem borderData_run (fresh : Fresh machine) (inputs : Nat → Inputs) (frame : Nat) (diff : Bool) :
    let ended := machine.played inputs (frame + 1)
    let shown := ended.displayData diff
    let log := ended.board.ports.borderLog
    let colour := machine.colourAt inputs frame
    (shown.border = log.last.value ↔ ∀ change ∈ log.carried.getLast?, change.value = log.last.value) ∧
    ((∀ k < frame, (machine.played inputs (k + 1)).board.clock < 2 * tstatesPerFrame) →
      shown.border = colour ended.board.clock ∧
      log.last = ⟨tstatesPerFrame, colour (tstatesPerFrame - 1)⟩ ∧
      (shown.borderEvents = none ↔ ∃ value, ∀ time < tstatesPerFrame, colour time = value) ∧
      (shown.borderEvents = none → log.carried = [] → ∀ time < tstatesPerFrame, colour time = shown.border)) := by
  intro ended shown log colour
  have hlog : log = ((machine.beforeFrame inputs frame).executedLog .border).endFrame :=
    log_renderFrame .border (machine.beforeFrame inputs frame)
  have hlast : log.last.value = log.boundary := by rw [hlog]; rfl
  have hshown : shown.border = (log.carried.getLast?.map (·.value)).getD log.boundary := fresh.holdsCarried (frame + 1)
  refine ⟨?_, fun hclock => ?_⟩
  · rw [hshown, hlast]
    cases log.carried.getLast? <;> simp
  · have tells : EventLog.Tells machine.board.ports.border
        (history (fun frame => (machine.beforeFrame inputs frame).emits .border) (frame + 1)) (frame * tstatesPerFrame)
        ((machine.beforeFrame inputs frame).executedLog .border) (machine.beforeFrame inputs frame).executed.2.clock :=
      tells_executed (machine.beforeFrame inputs frame) .border (fresh.carries frame hclock)
    have hborder : shown.border = ((machine.beforeFrame inputs frame).executedLog .border).last.value := by
      have holds : HoldsCarried (machine.beforeFrame inputs frame) := fresh.holdsCarried frame
      exact holds.executed.symm
    have hconstant : shown.borderEvents = none ↔ ∃ value, ∀ time < tstatesPerFrame, colour time = value := by
      have hmissing : shown.borderEvents = none ↔ log.events.length ≤ 2 := ended.borderEvents_eq_none_iff diff
      rw [hmissing, hlog]
      exact tells.length_le_two_iff
    have hend : log.last = ⟨tstatesPerFrame, colour (tstatesPerFrame - 1)⟩ := by
      rw [hlog]
      exact tells.last_endFrame
    refine ⟨?_, hend, hconstant, fun hnone hcarried time ht => ?_⟩
    · have hnow : valueAt machine.board.ports.border ((machine.beforeFrame inputs frame).executedLog .border).events
          (machine.beforeFrame inputs frame).executed.2.clock = _ := tells.tidy.valueAt_of_last_le tells.clock
      rw [hborder, ← hnow, tells.value]
      rfl
    · obtain ⟨value, hvalue⟩ := hconstant.mp hnone
      have hfinal : colour (tstatesPerFrame - 1) = log.boundary := by rw [← hlast, hend]
      rw [hshown, hcarried, hvalue time ht, ← hvalue (tstatesPerFrame - 1) (by decide)]
      exact hfinal

/-! ## A change between two frames -/

/-- RAM with `OUT (FE),A` and `HALT` from address 8000 on. -/
def straddlingRam : List UInt8 :=
  List.replicate 16384 0 ++ (0xD3 :: 0xFE :: 0x76 :: List.replicate 32765 0)

/-- That program eight T-states before the end of a frame, with a white border and interrupts off. -/
def straddlingSnapshot : Snapshot :=
  { cpu := { registers := { a := 2, pc := 0x8000 }, tstates := 69880 }, border := 7, ram := straddlingRam }

theorem length_straddlingRam : straddlingRam.length = Memory.ramSize := by
  rw [straddlingRam, List.length_append, List.length_replicate, List.length_cons, List.length_cons, List.length_cons,
    List.length_replicate]
  rfl

theorem problem?_straddlingSnapshot : straddlingSnapshot.problem? = none :=
  Snapshot.problem?_eq_none_iff.mpr ⟨length_straddlingRam, by decide⟩

/-- A machine that has taken the snapshot holds the program. -/
theorem get_straddlingRam (memory : Memory) : (memory.loadRam straddlingRam).get 0x8000 = 0xD3 ∧
    (memory.loadRam straddlingRam).get 0x8001 = 0xFE := by
  have hplace : ∀ k, straddlingRam[16384 + k]? = (0xD3 :: 0xFE :: 0x76 :: List.replicate 32765 0)[k]? := by
    intro k
    have hlength : (List.replicate 16384 (0 : UInt8)).length = 16384 := List.length_replicate
    rw [straddlingRam, List.getElem?_append_right (by omega), hlength, Nat.add_sub_cancel_left]
  have hfirst : (0x8000 : UInt16).toNat - Memory.romSize = 16384 + 0 := rfl
  have hsecond : (0x8001 : UInt16).toNat - Memory.romSize = 16384 + 1 := rfl
  rw [Memory.get_loadRam _ length_straddlingRam, Memory.get_loadRam _ length_straddlingRam,
    if_neg (show ¬ Memory.isRom 0x8000 = true by decide), if_neg (show ¬ Memory.isRom 0x8001 = true by decide), hfirst,
    hsecond, hplace, hplace]
  exact ⟨rfl, rfl⟩

/-- What is known of a machine that is about to run the program. -/
structure Straddles (machine : Machine) : Prop where
  cpu : machine.cpu = { regs := { a := 2, pc := 0x8000 } }
  clock : machine.board.clock = 69880
  opcode : machine.board.memory.get 0x8000 = 0xD3
  port : machine.board.memory.get 0x8001 = 0xFE
  log : machine.board.ports.borderLog = .constant 7

theorem straddles_restore (machine : Machine) : Straddles (machine.restore straddlingSnapshot) where
  cpu := rfl
  clock := rfl
  opcode := by
    rw [memory_restore]
    exact (get_straddlingRam _).1
  port := by
    rw [memory_restore]
    exact (get_straddlingRam _).2
  log := rfl

namespace Straddles

theorem clock_opened (straddles : Straddles machine) : machine.opened.clock = 69880 := by
  change wrapFrame machine.board.clock = 69880
  rw [straddles.clock]
  rfl

theorem acknowledged_eq (straddles : Straddles machine) :
    machine.acknowledged = ({ regs := { a := 2, pc := 0x8000 } }, machine.opened) := by
  rw [acknowledged, straddles.cpu, Cpu.run_interrupt_of_disabled rfl]

/-- The instruction begins within the frame; the port is written, and the instruction ends, after it. -/
theorem run_step (straddles : Straddles machine) : (Cpu.step { regs := { a := 2, pc := 0x8000 } }).run machine.opened =
    ({ regs := { a := 2, pc := 0x8002, r := 1 } },
      { machine.opened with clock := 69891, ports := machine.opened.ports.write 0x02FE 2 69888 }) := by
  have hop : machine.opened.memory.get 0x8000 = 0xD3 := straddles.opcode
  have harg : machine.opened.memory.get 0x8001 = 0xFE := straddles.port
  have hdecode : Decode.base (machine.opened.memory.get 0x8000) = .run .outputAccumulator := by
    rw [hop]
    rfl
  have hport : Word.ofBytes 2 (machine.opened.memory.get 0x8001) = 0x02FE := by
    rw [harg]
    rfl
  rw [Cpu.run_step { regs := { a := 2, pc := 0x8000 } } machine.opened .outputAccumulator hdecode,
    Cpu.access_of_le (show 0x8000 ≤ (0x8000 : UInt16).toNat by decide), straddles.clock_opened]
  exact Cpu.run_outputAccumulator { regs := { a := 2, pc := 0x8001, r := 1 } } { machine.opened with clock := 69884 }
    (show 0x8000 ≤ (0x8001 : UInt16).toNat by decide) hport (by decide) (by decide) (show delay 69888 = 0 by decide)

theorem executed_eq (straddles : Straddles machine) : machine.executed =
    ({ regs := { a := 2, pc := 0x8002, r := 1 } },
      { machine.opened with clock := 69891, ports := machine.opened.ports.write 0x02FE 2 69888 }) := by
  have hfuel : tstatesPerFrame - Bus.clock machine.opened = 7 + 1 := by
    change tstatesPerFrame - machine.opened.clock = 8
    rw [straddles.clock_opened]
    rfl
  have hlt : machine.opened.clock < tstatesPerFrame := by
    rw [straddles.clock_opened]
    decide
  rw [executed, straddles.acknowledged_eq, Cpu.runUntil, hfuel, Cpu.runFor_succ hlt, straddles.run_step]
  rfl

/-- No index prefix is executed in that frame: its only instruction has none. -/
theorem shortInstructions (straddles : Straddles machine) : machine.ShortInstructions := by
  intro count hcount
  rw [straddles.acknowledged_eq] at hcount ⊢
  cases count with
  | zero =>
    rintro ⟨hindex, -⟩
    have hop : machine.opened.memory.get 0x8000 = 0xD3 := straddles.opcode
    change IsIndexPrefix (machine.opened.memory.get 0x8000) at hindex
    rw [hop] at hindex
    exact absurd hindex (by decide)
  | succ count =>
    -- The clock is past the end after the first one, and never goes back.
    rw [Cpu.stepMany, straddles.run_step] at hcount
    have hlate : ∀ cpu : Cpu, ∀ board : Board, board.clock ≤ (cpu.stepMany count board).2.clock := by
      intro cpu board
      rw [← Cpu.run_steps]
      exact (keeps_clock board.clock).run (cpu.steps count) (Nat.le_refl _)
    have hend : 69891 < tstatesPerFrame := Nat.lt_of_le_of_lt (hlate { regs := { a := 2, pc := 0x8002, r := 1 } }
      { machine.opened with clock := 69891, ports := machine.opened.ports.write 0x02FE 2 69888 }) hcount
    exact absurd hend (by decide)

theorem borderLog_renderFrame (straddles : Straddles machine) : machine.renderFrame.board.ports.borderLog =
    { start := 7, changes := [⟨69888, 7⟩], carried := [⟨0, 2⟩], boundary := 7 } := by
  have hlog : machine.opened.ports.borderLog = .constant 7 := by
    change machine.board.ports.borderLog.beginFrame = _
    rw [straddles.log]
    rfl
  rw [renderFrame_board, straddles.executed_eq]
  change (machine.opened.ports.borderLog.record ⟨69888, 2⟩).endFrame = _
  rw [hlog]
  decide

theorem border_renderFrame (straddles : Straddles machine) : machine.renderFrame.board.ports.border = 2 := by
  have hborder : (machine.opened.ports.write 0x02FE 2 69888).border = 2 := rfl
  rw [renderFrame_board, straddles.executed_eq]
  exact hborder

/-- The frame is white all through but shown with the colour that is set just after it. -/
theorem displayData_renderFrame (straddles : Straddles machine) :
    (machine.renderFrame.displayData false).borderEvents = none ∧
    (machine.renderFrame.displayData false).border ≠ machine.renderFrame.board.ports.borderLog.last.value := by
  have hborder : (machine.renderFrame.displayData false).border = 2 := straddles.border_renderFrame
  refine ⟨?_, ?_⟩
  · rw [displayData, straddles.borderLog_renderFrame]
    rfl
  · rw [hborder, straddles.borderLog_renderFrame]
    decide

end Straddles

/-- On a blank ROM, the frame of that program shows the colour in force when its instruction is over, and has its changes
missing exactly if the border had one colour all through. -/
theorem borderData_run_straddling : ∃ old machine, create { rom := List.replicate 16384 0 } = .ok old ∧
    old.loadSnapshot straddlingSnapshot = .ok machine ∧
    ((machine.played (fun _ => {}) 1).displayData false).border =
      machine.colourAt (fun _ => {}) 0 (machine.played (fun _ => {}) 1).board.clock ∧
    (((machine.played (fun _ => {}) 1).displayData false).borderEvents = none ↔
      ∃ value, ∀ time < tstatesPerFrame, machine.colourAt (fun _ => {}) 0 time = value) := by
  refine ⟨_, _, create_eq_ok_iff.mpr ⟨List.length_replicate, rfl⟩,
    loadSnapshot_eq_ok_iff.mpr ⟨problem?_straddlingSnapshot, rfl⟩, ?_⟩
  generalize hold : reset _ = old
  have fresh : Fresh (old.restore straddlingSnapshot) :=
    .loaded (loadSnapshot_eq_ok_iff.mpr ⟨problem?_straddlingSnapshot, rfl⟩)
  have hshown := (borderData_run fresh (fun _ => {}) 0 false).2 fun k hk => absurd hk (Nat.not_lt_zero k)
  exact ⟨hshown.1, hshown.2.2.1⟩

/-- The colour shown need not be that of the end of the frame, nor that of a frame with one colour all through. -/
theorem border_straddling_ne : ∃ old machine, create { rom := List.replicate 16384 0 } = .ok old ∧
    old.loadSnapshot straddlingSnapshot = .ok machine ∧ machine.ShortInstructions ∧
    (machine.renderFrame.displayData false).borderEvents = none ∧
    (machine.renderFrame.displayData false).border ≠ machine.renderFrame.board.ports.borderLog.last.value := by
  refine ⟨_, _, create_eq_ok_iff.mpr ⟨List.length_replicate, rfl⟩,
    loadSnapshot_eq_ok_iff.mpr ⟨problem?_straddlingSnapshot, rfl⟩, ?_⟩
  generalize hold : reset _ = old
  have straddles : Straddles (old.restore straddlingSnapshot) := straddles_restore old
  exact ⟨straddles.shortInstructions, straddles.displayData_renderFrame⟩

end Machine

end ZxSpectrum
