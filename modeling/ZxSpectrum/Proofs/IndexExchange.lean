import ZxSpectrum.Proofs.CarriedFields

/-!
# Index registers in place of HL

An index prefix that redirects no operand in memory makes an instruction name an index register where it named HL. That is the
same as exchanging the two registers, executing the unprefixed instruction, and exchanging them back
(`Instruction.execute_indexed`). The lemmas before it say so of reading and of changing one register. The instructions that
unprefixed opcodes mean name no index register themselves (`Page.isPlain_decode`).
-/

namespace ZxSpectrum

open BusProgram

/-! ## What unprefixed opcodes name -/

/-- No half of an index register. -/
def Reg8.isPlain : Reg8 → Bool
  | .indexHigh _ | .indexLow _ => false
  | _ => true

/-- No index register. -/
def Reg16.isPlain : Reg16 → Bool
  | .index _ => false
  | _ => true

/-- A register, or the byte at HL. -/
def Operand.isPlain : Operand → Bool
  | .reg r => r.isPlain
  | .memory p => p = .hl

/-- The registers that an index prefix may replace are no index registers yet, and a load has one operand in memory at most. -/
def Instruction.isPlain : Instruction → Bool
  | .load (.memory _) (.memory _) => false
  | .load target source => target.isPlain && source.isPlain
  | .loadImmediate target | .increment target | .decrement target => target.isPlain
  | .alu _ (.operand o) => o.isPlain
  | .loadWordImmediate r | .loadWord r | .storeWord r | .loadStackPointer r | .push r | .pop r | .exchangeStack r
  | .incrementWord r | .decrementWord r | .jumpRegister r => r.isPlain
  | .add target source => target.isPlain && source.isPlain
  | _ => true

/-- What unprefixed opcodes mean is plain. -/
theorem Page.isPlain_decode {opcode : UInt8} {instruction : Instruction}
    (h : Page.base.decode opcode = .run instruction) : instruction.isPlain = true := by
  have hall : ∀ n < 256, (match Page.base.decode (UInt8.ofNat n) with
      | .run instruction => instruction.isPlain
      | _ => true) = true := by
    decide +kernel
  have hone := hall opcode.toNat opcode.toNat_lt
  rwa [UInt8.ofNat_toNat, h] at hone

/-- An instruction of the page of an index register is an unprefixed one that the prefix changes. -/
theorem Page.decode_index_eq_run {i : IndexRegister} {opcode : UInt8} {changed : Instruction}
    (h : (Page.index i).decode opcode = .run changed) :
    ∃ plain, Page.base.decode opcode = .run plain ∧ plain.indexed i = some changed := by
  change Decode.index i opcode = .run changed at h
  unfold Decode.index at h
  cases hbase : Decode.base opcode with
  | run plain =>
    rw [hbase] at h
    refine ⟨plain, hbase, ?_⟩
    cases hindexed : plain.indexed i with
    | none => simp [hindexed] at h
    | some other =>
      simp only [hindexed, Slot.run.injEq] at h
      rw [h]
  | enter page =>
    rw [hbase] at h
    cases page <;> simp at h
  | enterIndexedBits j => simp [hbase] at h
  | again => simp [hbase] at h

namespace Instruction

/-- The unprefixed instructions with a byte operand at HL. -/
inductive UsesHl : Instruction → Prop where
  | load (target : Reg8) : UsesHl (.load (.reg target) (.memory .hl))
  | store (source : Reg8) : UsesHl (.load (.memory .hl) (.reg source))
  | storeImmediate : UsesHl (.loadImmediate (.memory .hl))
  | alu (operation : Alu.Operation) : UsesHl (.alu operation (.operand (.memory .hl)))
  | increment : UsesHl (.increment (.memory .hl))
  | decrement : UsesHl (.decrement (.memory .hl))

/-- What a prefix changes is another instruction. -/
theorem eq_of_changed (new : Instruction) {old changed : Instruction}
    (h : (if new = old then none else some new) = some changed) : new = changed := by
  split at h
  · exact absurd h nofun
  · exact Option.some.inj h

variable {i : IndexRegister} {plain changed : Instruction}

/-- Those are the instructions that a prefix sends to a displaced address. -/
theorem usesHl_iff (hplain : plain.isPlain = true) (h : plain.indexed i = some changed) :
    plain.UsesHl ↔ .memory (.displaced i) ∈ changed.operands := by
  constructor
  · intro husesHl
    cases husesHl <;>
      · simp [indexed] at h
        simp [← h, operands]
  · intro hdisplaced
    cases plain with
    | load target source =>
      rcases target with r | p <;> rcases source with s | q
      · obtain rfl := eq_of_changed (.load (.reg (r.indexed i)) (.reg (s.indexed i))) h
        simp [operands] at hdisplaced
      · obtain rfl : q = .hl := of_decide_eq_true (Bool.and_eq_true_iff.mp hplain).2
        exact .load r
      · obtain rfl : p = .hl := of_decide_eq_true (Bool.and_eq_true_iff.mp hplain).1
        exact .store s
      · exact absurd hplain Bool.false_ne_true
    | loadImmediate target =>
      rcases target with r | p
      · obtain rfl := eq_of_changed (.loadImmediate (.reg (r.indexed i))) h
        simp [operands] at hdisplaced
      · obtain rfl : p = .hl := of_decide_eq_true hplain
        exact .storeImmediate
    | alu operation source =>
      rcases source with (r | p) | _
      · obtain rfl := eq_of_changed (.alu operation (.operand (.reg (r.indexed i)))) h
        simp [operands] at hdisplaced
      · obtain rfl : p = .hl := of_decide_eq_true hplain
        exact .alu operation
      · simp [indexed] at h
    | increment target =>
      rcases target with r | p
      · obtain rfl := eq_of_changed (.increment (.reg (r.indexed i))) h
        simp [operands] at hdisplaced
      · obtain rfl : p = .hl := of_decide_eq_true hplain
        exact .increment
    | decrement target =>
      rcases target with r | p
      · obtain rfl := eq_of_changed (.decrement (.reg (r.indexed i))) h
        simp [operands] at hdisplaced
      · obtain rfl : p = .hl := of_decide_eq_true hplain
        exact .decrement
    | _ =>
      -- The others have no byte operand, whatever the prefix makes of their word registers.
      simp [indexed] at h <;>
        · obtain ⟨-, rfl⟩ := h
          simp [operands] at hdisplaced

end Instruction

/-! ## Exchanging HL and an index register -/

namespace Cpu

/-- The processor with HL and an index register exchanged. -/
def exchange (i : IndexRegister) (cpu : Cpu) : Cpu :=
  match i with
  | .ix => { cpu with
      regs.h := cpu.regs.ixh, regs.l := cpu.regs.ixl, regs.ixh := cpu.regs.h, regs.ixl := cpu.regs.l }
  | .iy => { cpu with
      regs.h := cpu.regs.iyh, regs.l := cpu.regs.iyl, regs.iyh := cpu.regs.h, regs.iyl := cpu.regs.l }

variable (i : IndexRegister) (cpu : Cpu)

theorem exchange_exchange : (cpu.exchange i).exchange i = cpu := by
  cases i <;> rfl

theorem exchange_reg {r : Reg8} (h : r.isPlain = true) : (cpu.exchange i).reg r = cpu.reg (r.indexed i) := by
  cases r with
  | indexHigh j => exact absurd h Bool.false_ne_true
  | indexLow j => exact absurd h Bool.false_ne_true
  | _ => cases i <;> rfl

theorem exchange_setReg {r : Reg8} (h : r.isPlain = true) (value : UInt8) :
    ((cpu.exchange i).setReg r value).exchange i = cpu.setReg (r.indexed i) value := by
  cases r with
  | indexHigh j => exact absurd h Bool.false_ne_true
  | indexLow j => exact absurd h Bool.false_ne_true
  | _ => cases i <;> rfl

theorem exchange_wide {r : Reg16} (h : r.isPlain = true) : (cpu.exchange i).wide r = cpu.wide (r.indexed i) := by
  cases r with
  | index j => exact absurd h Bool.false_ne_true
  | _ => cases i <;> rfl

theorem exchange_setWide {r : Reg16} (h : r.isPlain = true) (value : UInt16) :
    ((cpu.exchange i).setWide r value).exchange i = cpu.setWide (r.indexed i) value := by
  cases r with
  | index j => exact absurd h Bool.false_ne_true
  | _ => cases i <;> rfl

theorem exchange_a : (cpu.exchange i).regs.a = cpu.regs.a := by
  cases i <;> rfl

theorem exchange_f : (cpu.exchange i).regs.f = cpu.regs.f := by
  cases i <;> rfl

theorem exchange_setFlags (f : UInt8) : (cpu.exchange i).setFlags f = (cpu.setFlags f).exchange i := by
  cases i <;> rfl

theorem exchange_accept (outcome : Alu.Outcome) : (cpu.exchange i).accept outcome = (cpu.accept outcome).exchange i := by
  cases i <;> rfl

/-! ## Steps that instructions share -/

theorem exchange_pause (time : Nat) : (cpu.exchange i).pause time = cpu.pause time := by
  cases i <;> rfl

theorem exchange_nextByte : (cpu.exchange i).nextByte = Prod.map id (exchange i) <$> cpu.nextByte := by
  cases i <;> rfl

theorem exchange_nextWord : (cpu.exchange i).nextWord = Prod.map id (exchange i) <$> cpu.nextWord := by
  cases i <;> rfl

theorem exchange_popWord : (cpu.exchange i).popWord = Prod.map id (exchange i) <$> cpu.popWord := by
  cases i <;> rfl

theorem exchange_pushWord (value : UInt16) : exchange i <$> (cpu.exchange i).pushWord value = cpu.pushWord value := by
  cases i <;> rfl

theorem exchange_exchangeStack {r : Reg16} (h : r.isPlain = true) :
    exchange i <$> (cpu.exchange i).exchangeStack r = cpu.exchangeStack (r.indexed i) := by
  have hsp : (cpu.exchange i).regs.sp = cpu.regs.sp := by cases i <;> rfl
  simp only [exchangeStack, hsp, exchange_wide i cpu h, map_bind, map_pure, exchange_setWide i cpu h]

theorem exchange_modifyOperand {r : Reg8} (h : r.isPlain = true) (f : UInt8 → UInt8 → Alu.Outcome) :
    Prod.map id (exchange i) <$> (cpu.exchange i).modifyOperand (.reg r) f =
      cpu.modifyOperand (.reg (r.indexed i)) f := by
  simp only [modifyOperand, exchange_reg i cpu h, exchange_f, exchange_setFlags, map_pure, Prod.map, id,
    exchange_setReg i _ h]

end Cpu

/-! ## Instructions -/

open Cpu

/-- An instruction that names an index register does what it does with HL, between two exchanges. -/
theorem Instruction.execute_indexed {i : IndexRegister} {plain changed : Instruction} (h : plain.indexed i = some changed)
    (hplain : plain.isPlain = true) (hdirect : ¬ plain.UsesHl) (cpu : Cpu) :
    changed.execute cpu = exchange i <$> plain.execute (cpu.exchange i) := by
  cases plain with
  | load target source =>
    rcases target with r | p <;> rcases source with s | q
    · obtain rfl := eq_of_changed (.load (.reg (r.indexed i)) (.reg (s.indexed i))) h
      obtain ⟨hr, hs⟩ := Bool.and_eq_true_iff.mp hplain
      simp only [execute, readOperand, writeOperand, pure_bind', map_pure, exchange_reg i cpu hs, exchange_setReg i cpu hr]
    · obtain rfl : q = .hl := of_decide_eq_true (Bool.and_eq_true_iff.mp hplain).2
      exact absurd (.load r) hdirect
    · obtain rfl : p = .hl := of_decide_eq_true (Bool.and_eq_true_iff.mp hplain).1
      exact absurd (.store s) hdirect
    · exact absurd hplain Bool.false_ne_true
  | loadImmediate target =>
    rcases target with r | p
    · obtain rfl := eq_of_changed (.loadImmediate (.reg (r.indexed i))) h
      simp only [execute, exchange_nextByte, bind_map_left, map_bind]
      exact bind_congr fun found => congrArg pure (exchange_setReg i found.2 hplain found.1).symm
    · obtain rfl : p = .hl := of_decide_eq_true hplain
      exact absurd .storeImmediate hdirect
  | alu operation source =>
    rcases source with (r | p) | _
    · obtain rfl := eq_of_changed (.alu operation (.operand (.reg (r.indexed i)))) h
      simp only [execute, readSource, readOperand, pure_bind', map_pure, exchange_reg i cpu hplain, exchange_a, exchange_f,
        exchange_accept, exchange_exchange]
    · obtain rfl : p = .hl := of_decide_eq_true hplain
      exact absurd (.alu operation) hdirect
    · simp [indexed] at h
  | increment target =>
    rcases target with r | p
    · obtain rfl := eq_of_changed (.increment (.reg (r.indexed i))) h
      simp only [execute, ← exchange_modifyOperand i cpu hplain, bind_map_left, map_bind]
      rfl
    · obtain rfl : p = .hl := of_decide_eq_true hplain
      exact absurd .increment hdirect
  | decrement target =>
    rcases target with r | p
    · obtain rfl := eq_of_changed (.decrement (.reg (r.indexed i))) h
      simp only [execute, ← exchange_modifyOperand i cpu hplain, bind_map_left, map_bind]
      rfl
    · obtain rfl : p = .hl := of_decide_eq_true hplain
      exact absurd .decrement hdirect
  | loadWordImmediate target =>
    obtain rfl := eq_of_changed (.loadWordImmediate (target.indexed i)) h
    simp only [execute, exchange_nextWord, bind_map_left, map_bind]
    exact bind_congr fun found => congrArg pure (exchange_setWide i found.2 hplain found.1).symm
  | loadWord target =>
    obtain rfl := eq_of_changed (.loadWord (target.indexed i)) h
    simp only [execute, exchange_nextWord, bind_map_left, map_bind]
    exact bind_congr fun found => bind_congr fun value =>
      congrArg pure (exchange_setWide i found.2 hplain value).symm
  | storeWord source =>
    obtain rfl := eq_of_changed (.storeWord (source.indexed i)) h
    simp only [execute, exchange_nextWord, bind_map_left, map_bind, map_pure, Prod.map, id, exchange_wide i _ hplain,
      exchange_exchange]
  | loadStackPointer source =>
    obtain rfl := eq_of_changed (.loadStackPointer (source.indexed i)) h
    simp only [execute, exchange_pause, map_bind, exchange_wide i cpu hplain]
    cases i <;> rfl
  | push source =>
    obtain rfl := eq_of_changed (.push (source.indexed i)) h
    simp only [execute, exchange_pause, map_bind, exchange_wide i cpu hplain, exchange_pushWord]
  | pop target =>
    obtain rfl := eq_of_changed (.pop (target.indexed i)) h
    simp only [execute, exchange_popWord, bind_map_left, map_bind]
    exact bind_congr fun popped => congrArg pure (exchange_setWide i popped.2 hplain popped.1).symm
  | exchangeStack target =>
    obtain rfl := eq_of_changed (.exchangeStack (target.indexed i)) h
    exact (exchange_exchangeStack i cpu hplain).symm
  | add target source =>
    obtain rfl := eq_of_changed (.add (target.indexed i) (source.indexed i)) h
    obtain ⟨htarget, hsource⟩ := Bool.and_eq_true_iff.mp hplain
    simp only [execute, exchange_pause, map_bind, map_pure, exchange_wide i cpu htarget, exchange_wide i cpu hsource,
      exchange_f, ← exchange_setFlags, exchange_setWide i cpu htarget]
  | incrementWord target =>
    obtain rfl := eq_of_changed (.incrementWord (target.indexed i)) h
    simp only [execute, exchange_pause, map_bind, exchange_wide i cpu hplain]
    exact bind_congr fun _ => congrArg pure (exchange_setWide i cpu hplain _).symm
  | decrementWord target =>
    obtain rfl := eq_of_changed (.decrementWord (target.indexed i)) h
    simp only [execute, exchange_pause, map_bind, exchange_wide i cpu hplain]
    exact bind_congr fun _ => congrArg pure (exchange_setWide i cpu hplain _).symm
  | jumpRegister target =>
    obtain rfl := eq_of_changed (.jumpRegister (target.indexed i)) h
    simp only [execute, exchange_wide i cpu hplain, map_pure]
    cases i <;> rfl
  | _ => simp [indexed] at h

end ZxSpectrum
