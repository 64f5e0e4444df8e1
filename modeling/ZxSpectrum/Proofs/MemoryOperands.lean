import ZxSpectrum.Bus.Flat
import ZxSpectrum.Proofs.IndexExchange

/-!
# Instructions with an operand in memory

Six kinds of unprefixed instructions have the byte at HL as an operand (`UsesHl`). What they make of the processor and of that
byte does not depend on where the byte is (`onByte`). So they act alike at HL and, after an index prefix, at a displaced address
(`UsesHl.acts`, `UsesHl.acts_displaced`), the program counter being past the displacement by then.
-/

namespace ZxSpectrum

open BusProgram

/-- Writing what is there already. -/
theorem Memory.set_get (memory : Memory) (address : UInt16) : memory.set address (memory.get address) = memory := by
  apply Memory.ext
  intro place
  rw [Memory.get_set]
  split
  · rename_i hsame
    rw [hsame]
  · rfl

namespace Cpu

variable (cpu : Cpu)

theorem pc_setReg (r : Reg8) (value : UInt8) : (cpu.setReg r value).regs.pc = cpu.regs.pc := by
  rcases r with _ | _ | _ | _ | _ | _ | _ | (_ | _) | (_ | _) <;> rfl

/-- Registers other than the one that is changed. -/
theorem reg_setReg_of_ne {r target : Reg8} (h : r ≠ target) (value : UInt8) :
    (cpu.setReg target value).reg r = cpu.reg r := by
  rcases target with _ | _ | _ | _ | _ | _ | _ | (_ | _) | (_ | _) <;>
    rcases r with _ | _ | _ | _ | _ | _ | _ | (_ | _) | (_ | _) <;> first | rfl | exact absurd rfl h

theorem reg_setReg_self (r : Reg8) (value : UInt8) : (cpu.setReg r value).reg r = value := by
  rcases r with _ | _ | _ | _ | _ | _ | _ | (_ | _) | (_ | _) <;> rfl

theorem reg_setFlags (r : Reg8) (f : UInt8) : (cpu.setFlags f).reg r = cpu.reg r := by
  rcases r with _ | _ | _ | _ | _ | _ | _ | (_ | _) | (_ | _) <;> rfl

theorem reg_skip (r : Reg8) (count : UInt16) : (cpu.skip count).reg r = cpu.reg r := by
  rcases r with _ | _ | _ | _ | _ | _ | _ | (_ | _) | (_ | _) <;> rfl

theorem reg_accept {r : Reg8} (h : r ≠ .a) (outcome : Alu.Outcome) : (cpu.accept outcome).reg r = cpu.reg r := by
  rcases r with _ | _ | _ | _ | _ | _ | _ | (_ | _) | (_ | _) <;> first | rfl | exact absurd rfl h

end Cpu

namespace Instruction

/-- What such an instruction makes of the processor and of its operand in memory, wherever that is. The operand holds `value`,
and `immediate` is the byte at the program counter. -/
def onByte (value immediate : UInt8) (cpu : Cpu) : Instruction → Cpu × UInt8
  | .load (.reg target) _ => (cpu.setReg target value, value)
  | .load _ (.reg source) => (cpu, cpu.reg source)
  | .loadImmediate _ => (cpu.skip 1, immediate)
  | .alu operation _ => (cpu.accept (Alu.apply operation cpu.regs.a cpu.regs.f value), value)
  | .increment _ =>
    let outcome := Alu.increment value cpu.regs.f
    (cpu.setFlags outcome.flags, outcome.value)
  | .decrement _ =>
    let outcome := Alu.decrement value cpu.regs.f
    (cpu.setFlags outcome.flags, outcome.value)
  | _ => (cpu, value)

/-- Processor and bus after an instruction whose operand is the byte at `address`: its effect on that byte and the processor,
and beside the clock nothing else. `cpu` is the processor with all bytes before an immediate one read. -/
def ActsAt (address : UInt16) (cpu : Cpu) (bus : FlatBus) (after : Cpu × FlatBus) (instruction : Instruction) : Prop :=
  let (changed, byte) := instruction.onByte (bus.memory.get address) (bus.memory.get cpu.regs.pc) cpu
  after = (changed, { bus with memory := bus.memory.set address byte, clock := after.2.clock })

variable {plain changed : Instruction}

/-- Unprefixed they act on the byte at HL. -/
theorem UsesHl.acts (h : plain.UsesHl) (cpu : Cpu) (bus : FlatBus) :
    plain.ActsAt cpu.regs.hl cpu bus ((plain.execute cpu).run bus) := by
  cases h with
  | load target =>
    unfold ActsAt onByte
    dsimp only
    rw [Memory.set_get]
    rfl
  | alu operation =>
    unfold ActsAt onByte
    dsimp only
    rw [Memory.set_get]
    rfl
  | _ => rfl

/-- After an index prefix they act on the byte at the displaced address. -/
theorem UsesHl.acts_displaced (h : plain.UsesHl) {i : IndexRegister} (hchanged : plain.indexed i = some changed) (cpu : Cpu)
    (bus : FlatBus) : plain.ActsAt (Word.displace (cpu.index i) (bus.memory.get cpu.regs.pc)) (cpu.skip 1) bus
      ((changed.execute cpu).run bus) := by
  cases h with
  | load target =>
    obtain rfl : .load (.reg target) (.memory (.displaced i)) = changed := by simpa [indexed] using hchanged
    unfold ActsAt onByte
    dsimp only
    rw [Memory.set_get]
    rfl
  | store source =>
    obtain rfl : .load (.memory (.displaced i)) (.reg source) = changed := by simpa [indexed] using hchanged
    unfold ActsAt onByte
    dsimp only
    rw [Cpu.reg_skip]
    rfl
  | storeImmediate =>
    obtain rfl : .loadImmediate (.memory (.displaced i)) = changed := by simpa [indexed] using hchanged
    cases i <;> rfl
  | alu operation =>
    obtain rfl : .alu operation (.operand (.memory (.displaced i))) = changed := by simpa [indexed] using hchanged
    unfold ActsAt onByte
    dsimp only
    rw [Memory.set_get]
    rfl
  | increment =>
    obtain rfl : .increment (.memory (.displaced i)) = changed := by simpa [indexed] using hchanged
    rfl
  | decrement =>
    obtain rfl : .decrement (.memory (.displaced i)) = changed := by simpa [indexed] using hchanged
    rfl

/-- They change no register but the accumulator and the one they load. -/
theorem UsesHl.reg_onByte (h : plain.UsesHl) {r : Reg8} (ha : r ≠ .a) (hload : plain ≠ .load (.reg r) (.memory .hl))
    (value immediate : UInt8) (cpu : Cpu) : (plain.onByte value immediate cpu).1.reg r = cpu.reg r := by
  cases h with
  | load target => exact cpu.reg_setReg_of_ne (fun heq => hload (by rw [heq])) value
  | store source => rfl
  | storeImmediate => exact cpu.reg_skip r 1
  | alu operation => exact cpu.reg_accept ha _
  | increment => exact cpu.reg_setFlags r _
  | decrement => exact cpu.reg_setFlags r _

/-- They end as many bytes further as they begin. -/
theorem UsesHl.pc_onByte_skip (h : plain.UsesHl) (value immediate other next : UInt8) (cpu : Cpu) :
    (plain.onByte value immediate (cpu.skip 1)).1.regs.pc = (plain.onByte other next cpu).1.regs.pc + 1 := by
  cases h with
  | load target => exact (Cpu.pc_setReg _ _ _).trans (congrArg (· + 1) (cpu.pc_setReg target other).symm)
  | _ => rfl

end Instruction

end ZxSpectrum
