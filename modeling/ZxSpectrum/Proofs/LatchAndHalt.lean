import Mathlib.Logic.Function.Iterate
import ZxSpectrum.Proofs.CarriedFields
import ZxSpectrum.Proofs.FramePrograms
import ZxSpectrum.Proofs.PrefixChains

/-!
# The latch and the halt flag

Two fields of the processor are no registers. The latch is filled before it is used, so that what it holds between
instructions does not matter (`step_relatch`). The halt flag is set only while the program counter stands at a `HALT`
(`Rests`), and executing that sets it again (`run_step_halt`). Both rest on what the opcode tables hold (`regular_decode`).
-/

namespace ZxSpectrum

open BusProgram

/-! ## The opcode tables -/

/-- What holds of the slot of an opcode in a page: `HALT` has one opcode, interrupt modes are at most 2, and only bit operations
on indexed bytes use the latch, whose page is entered in no other way. -/
def Slot.regular (page : Page) (opcode : UInt8) : Slot → Bool
  | .run .halt => page = .base && opcode = 0x76
  | .run (.im mode) => mode ≤ 2
  | .run instruction => page = .indexedBits || !instruction.operands.contains (.memory .latched)
  | .enter next => next ≠ .indexedBits
  | .enterIndexedBits _ => true
  | .again => page ≠ .indexedBits

/-- All opcodes of all pages are regular. -/
theorem Page.regular_decode (page : Page) (opcode : UInt8) : (page.decode opcode).regular page opcode = true := by
  have hall : ∀ page ∈ [Page.base, .bits, .extended, .index .ix, .index .iy, .indexedBits], ∀ n < 256,
      (page.decode (UInt8.ofNat n)).regular page (UInt8.ofNat n) = true := by
    decide +kernel
  have hpage : page ∈ [Page.base, .bits, .extended, .index .ix, .index .iy, .indexedBits] := by
    rcases page with _ | _ | _ | (_ | _) | _ <;> decide
  have hone := hall page hpage opcode.toNat opcode.toNat_lt
  rwa [UInt8.ofNat_toNat] at hone

namespace Cpu

/-! ## The latch -/

/-- The processor with another address in the latch. -/
def relatch (latch : UInt16) (cpu : Cpu) : Cpu := { cpu with latch := latch }

/-- An instruction that does not use the latch does the same whatever the latch holds. -/
theorem execute_relatch (instruction : Instruction) (h : .memory .latched ∉ instruction.operands) (latch : UInt16)
    (cpu : Cpu) : relatch 0 <$> instruction.execute (cpu.relatch latch) = relatch 0 <$> instruction.execute cpu := by
  by_cases hhalt : instruction = .halt
  · rw [hhalt]
    rfl
  by_cases him : ∃ mode, instruction = .im mode
  · obtain ⟨mode, rfl⟩ := him
    rfl
  have hother : ∀ mode, instruction ≠ .im mode := fun mode heq => him ⟨mode, heq⟩
  have hnew := instruction.execute_carry cpu.halted latch cpu.regs.im cpu hhalt hother fun hin => absurd hin h
  have hold := instruction.execute_carry cpu.halted cpu.latch cpu.regs.im cpu hhalt hother fun _ => rfl
  calc relatch 0 <$> instruction.execute (cpu.relatch latch)
      = relatch 0 <$> carry cpu.halted latch cpu.regs.im <$> instruction.execute cpu := congrArg _ hnew
    _ = relatch 0 <$> carry cpu.halted cpu.latch cpu.regs.im <$> instruction.execute cpu := by
        rw [Functor.map_map, Functor.map_map]
        rfl
    _ = relatch 0 <$> instruction.execute cpu := congrArg _ hold.symm

theorem fetch_relatch (latch : UInt16) (cpu : Cpu) :
    (cpu.relatch latch).fetch = Prod.map id (relatch latch) <$> cpu.fetch := rfl

/-- A bit operation on an indexed byte fills the latch. -/
theorem fetchIndexed_relatch (latch : UInt16) (cpu : Cpu) (i : IndexRegister) :
    (cpu.relatch latch).fetchIndexed i = cpu.fetchIndexed i := by
  cases i <;> rfl

/-- From any page but that of indexed bytes on, the latch does not matter. -/
theorem dispatch_relatch (latch : UInt16) (fuel : Nat) : ∀ (page : Page) (opcode : UInt8) (cpu : Cpu),
    page ≠ .indexedBits →
      relatch 0 <$> dispatch fuel page opcode (cpu.relatch latch) = relatch 0 <$> dispatch fuel page opcode cpu := by
  induction fuel with
  | zero => exact fun page opcode cpu _ => rfl
  | succ fuel ih =>
    intro page opcode cpu hpage
    have hregular := page.regular_decode opcode
    simp only [dispatch]
    cases hslot : page.decode opcode with
    | run instruction =>
      rw [hslot] at hregular
      refine execute_relatch instruction ?_ latch cpu
      unfold Slot.regular at hregular
      split at hregular <;> simp_all [Instruction.operands]
    | enter next =>
      rw [hslot] at hregular
      have hnext : next ≠ .indexedBits := of_decide_eq_true hregular
      simp only [fetch_relatch, map_bind, bind_map_left]
      exact bind_congr fun fetched => ih next fetched.1 fetched.2 hnext
    | enterIndexedBits i => simp only [fetchIndexed_relatch]
    | again => exact ih .base opcode cpu (by decide)

/-- An instruction does the same whatever the latch holds. -/
theorem step_relatch (latch : UInt16) (cpu : Cpu) : relatch 0 <$> (cpu.relatch latch).step = relatch 0 <$> cpu.step := by
  simp only [step, fetch_relatch, map_bind, bind_map_left]
  exact bind_congr fun fetched => dispatch_relatch latch pageLimit .base fetched.1 fetched.2 (by decide)

/-- The processor that takes an interrupt: out of its halt, and with interrupts disabled. -/
def interrupted (cpu : Cpu) : Cpu :=
  { (if cpu.halted then { cpu.skip 1 with halted := false } else cpu) with regs.iff1 := false, regs.iff2 := false }

/-- An interrupt pushes the program counter and goes on at its target. -/
theorem interrupt_of_enabled {cpu : Cpu} (h : cpu.regs.iff1 = true) : cpu.interrupt = (do
    let pushed ← cpu.interrupted.pushWord cpu.interrupted.regs.pc
    let counted : Cpu := { pushed with regs := pushed.regs.countRefresh }
    let target ← counted.interruptTarget
    wait interruptLength
    pure (true, counted.jumpTo target)) := by
  unfold interrupt
  rw [if_pos h]
  rfl

theorem interrupted_halted (cpu : Cpu) : cpu.interrupted.halted = false := by
  obtain ⟨regs, halted, latch⟩ := cpu
  cases halted <;> rfl

/-- A halted processor goes on behind its `HALT`. -/
theorem interrupted_of_halted {cpu : Cpu} (h : cpu.halted = true) : cpu.interrupted = { cpu with
    halted := false
    regs := { cpu.regs with iff1 := false, iff2 := false, pc := cpu.regs.pc + 1 } } := by
  unfold interrupted
  rw [if_pos h]
  rfl

theorem interrupted_im (cpu : Cpu) : cpu.interrupted.regs.im = cpu.regs.im := by
  obtain ⟨regs, halted, latch⟩ := cpu
  cases halted <;> rfl

theorem interrupted_relatch (latch : UInt16) (cpu : Cpu) :
    (cpu.relatch latch).interrupted = cpu.interrupted.relatch latch := by
  obtain ⟨regs, halted, old⟩ := cpu
  cases halted <;> rfl

theorem pushWord_relatch (latch : UInt16) (cpu : Cpu) (value : UInt16) :
    (cpu.relatch latch).pushWord value = relatch latch <$> cpu.pushWord value := rfl

/-- So does the acknowledgement of an interrupt. -/
theorem interrupt_relatch (latch : UInt16) (cpu : Cpu) :
    (cpu.relatch latch).interrupt = Prod.map id (relatch latch) <$> cpu.interrupt := by
  by_cases hiff : cpu.regs.iff1 = true
  · have hiff' : (cpu.relatch latch).regs.iff1 = true := hiff
    rw [interrupt_of_enabled hiff, interrupt_of_enabled hiff', interrupted_relatch]
    simp only [pushWord_relatch, map_bind, bind_map_left]
    rfl
  · have hiff' : ¬ (cpu.relatch latch).regs.iff1 = true := hiff
    unfold interrupt
    rw [if_neg hiff, if_neg hiff']
    rfl

/-! ## The halt flag -/

/-- A processor between instructions: the interrupt mode exists, and if it has halted, its next byte is `HALT`. -/
structure Rests (cpu : Cpu) (board : Board) : Prop where
  im : cpu.regs.im ≤ 2
  halt : cpu.halted = true → board.memory.get cpu.regs.pc = 0x76

/-- `HALT` stays where it is. -/
theorem run_step_halt {cpu : Cpu} {board : Board} (h : board.memory.get cpu.regs.pc = 0x76) : cpu.step.run board =
    ({ cpu with regs := cpu.regs.countRefresh, halted := true },
      { board with clock := Ula.access cpu.regs.pc 4 board.clock }) := by
  have hdecode : Decode.base (board.memory.get cpu.regs.pc) = .run .halt := by
    rw [h]
    rfl
  have hback : cpu.regs.pc + 1 - 1 = cpu.regs.pc := UInt16.add_sub_cancel _ _
  rw [run_step cpu board .halt hdecode]
  change (({ cpu with regs := { cpu.regs.countRefresh with pc := cpu.regs.pc + 1 - 1 }, halted := true } : Cpu), _) = _
  rw [hback]
  rfl

/-- A processor at a `HALT` goes on halting: only the refresh register and the clock count. -/
theorem stepMany_halt (count : Nat) (cpu : Cpu) (board : Board) (h : board.memory.get cpu.regs.pc = 0x76) :
    cpu.stepMany count board =
      ({ cpu with regs := Registers.countRefresh^[count] cpu.regs, halted := cpu.halted || decide (0 < count) },
        { board with clock := (Ula.access cpu.regs.pc 4)^[count] board.clock }) := by
  induction count generalizing cpu board with
  | zero =>
    obtain ⟨regs, halted, latch⟩ := cpu
    cases halted <;> rfl
  | succ count ih =>
    rw [stepMany, run_step_halt h]
    refine (ih { cpu with regs := cpu.regs.countRefresh, halted := true }
      { board with clock := Ula.access cpu.regs.pc 4 board.clock } h).trans ?_
    rw [Bool.true_or, decide_eq_true (Nat.succ_pos count), Bool.or_true]
    rfl

theorem iterate_countRefresh (count : Nat) (regs : Registers) :
    Registers.countRefresh^[count] regs = { regs with r := (Registers.countRefresh^[count] regs).r } := by
  induction count generalizing regs with
  | zero => rfl
  | succ count ih => exact ih regs.countRefresh

/-- So does one that executes up to some time. -/
theorem runFor_halt (limit fuel : Nat) (cpu : Cpu) (board : Board) (h : board.memory.get cpu.regs.pc = 0x76) :
    ∃ r halted clock, cpu.runFor limit fuel board = ({ cpu with regs.r := r, halted := halted }, { board with clock }) ∧
      (cpu.halted = true → halted = true) := by
  rw [runFor_eq_stepMany, stepMany_halt _ _ _ h, iterate_countRefresh]
  exact ⟨_, _, _, rfl, fun hhalted => by rw [hhalted, Bool.true_or]⟩

/-- An instruction other than `HALT` and `IM` leaves the halt flag and the interrupt mode alone. -/
theorem run_execute_fields (instruction : Instruction) (hhalt : instruction ≠ .halt)
    (him : ∀ mode, instruction ≠ .im mode) (cpu : Cpu) (board : Board) :
    ((instruction.execute cpu).run board).1.halted = cpu.halted ∧
      ((instruction.execute cpu).run board).1.regs.im = cpu.regs.im := by
  have hsame := instruction.execute_carry cpu.halted cpu.latch cpu.regs.im cpu hhalt him fun _ => rfl
  have hrun := congrArg (fun program => (program.run board).1) hsame
  simp only [map_eq_pure_bind, run_bind, run_pure] at hrun
  change ((instruction.execute cpu).run board).1 = _ at hrun
  rw [hrun]
  exact ⟨rfl, rfl⟩

/-- The rest of an instruction whose last fetched byte is `opcode` leaves a processor between instructions. -/
theorem rests_dispatch (fuel : Nat) : ∀ (page : Page) (opcode : UInt8) (cpu : Cpu) (board : Board),
    cpu.halted = false → cpu.regs.im ≤ 2 →
    (page ≠ .indexedBits → board.memory.get (cpu.regs.pc - 1) = opcode) →
      Rests ((dispatch fuel page opcode cpu).run board).1 ((dispatch fuel page opcode cpu).run board).2 := by
  induction fuel with
  | zero => exact fun page opcode cpu board hrunning him _ => ⟨him, fun h => by simp_all [dispatch]⟩
  | succ fuel ih =>
    intro page opcode cpu board hrunning him hopcode
    have hregular := page.regular_decode opcode
    rw [dispatch]
    cases hslot : page.decode opcode with
    | run instruction =>
      rw [hslot] at hregular
      by_cases hhalt : instruction = .halt
      · subst hhalt
        obtain ⟨hpage, hbyte⟩ : page = .base ∧ opcode = 0x76 := by simpa [Slot.regular] using hregular
        refine ⟨him, fun _ => ?_⟩
        rw [← hbyte, ← hopcode (by rw [hpage]; decide)]
        rfl
      by_cases hmode : ∃ mode, instruction = .im mode
      · obtain ⟨mode, rfl⟩ := hmode
        exact ⟨of_decide_eq_true hregular, fun hhalted => absurd hhalted (by simp [Instruction.execute, hrunning])⟩
      obtain ⟨hhalted, hmode⟩ := run_execute_fields instruction hhalt (fun mode heq => hmode ⟨mode, heq⟩) cpu board
      refine ⟨hmode ▸ him, fun h => ?_⟩
      rw [hhalted, hrunning] at h
      exact absurd h Bool.false_ne_true
    | enter next =>
      change Rests ((cpu.resume fuel next).run board).1 ((cpu.resume fuel next).run board).2
      rw [run_resume]
      refine ih next _ cpu.fetched { board with clock := Ula.access cpu.regs.pc 4 board.clock } hrunning him fun _ => ?_
      change board.memory.get (cpu.regs.pc + 1 - 1) = _
      rw [UInt16.add_sub_cancel]
    | enterIndexedBits i =>
      simp only [run_bind]
      exact ih .indexedBits _ _ _ hrunning him fun h => absurd rfl h
    | again =>
      rw [hslot] at hregular
      exact ih .base opcode cpu board hrunning him fun _ => hopcode (of_decide_eq_true hregular)

/-- A processor between instructions executes one more, and is between instructions again. -/
theorem Rests.step {cpu : Cpu} {board : Board} (rests : Rests cpu board) :
    Rests (cpu.step.run board).1 (cpu.step.run board).2 := by
  by_cases hhalted : cpu.halted = true
  · have hbyte := rests.halt hhalted
    rw [run_step_halt hbyte]
    exact ⟨rests.im, fun _ => hbyte⟩
  · change Rests ((cpu.resume pageLimit .base).run board).1 ((cpu.resume pageLimit .base).run board).2
    rw [run_resume]
    refine rests_dispatch pageLimit .base _ cpu.fetched { board with clock := Ula.access cpu.regs.pc 4 board.clock }
      (eq_false_of_ne_true hhalted) rests.im fun _ => ?_
    change board.memory.get (cpu.regs.pc + 1 - 1) = _
    rw [UInt16.add_sub_cancel]

/-- So it is after any number of instructions. -/
theorem Rests.runFor (limit fuel : Nat) : ∀ {cpu : Cpu} {board : Board}, Rests cpu board →
    Rests (cpu.runFor limit fuel board).1 (cpu.runFor limit fuel board).2 := by
  induction fuel with
  | zero => exact fun rests => rests
  | succ fuel ih =>
    intro cpu board rests
    rw [Cpu.runFor]
    by_cases running : Bus.clock board < limit
    · rw [if_pos running]
      exact ih rests.step
    · rw [if_neg running]
      exact rests

/-- An interrupt ends the halt. -/
theorem Rests.interrupt {cpu : Cpu} {board : Board} (rests : Rests cpu board) :
    Rests (cpu.interrupt.run board).1.2 (cpu.interrupt.run board).2 := by
  by_cases hiff : cpu.regs.iff1 = true
  · rw [interrupt_of_enabled hiff]
    simp only [run_bind]
    refine ⟨?_, fun h => ?_⟩
    · change cpu.interrupted.regs.im ≤ 2
      rw [interrupted_im]
      exact rests.im
    · change cpu.interrupted.halted = true at h
      rw [interrupted_halted] at h
      exact absurd h Bool.false_ne_true
  · rw [run_interrupt_of_disabled (eq_false_of_ne_true hiff)]
    exact rests

end Cpu

end ZxSpectrum
