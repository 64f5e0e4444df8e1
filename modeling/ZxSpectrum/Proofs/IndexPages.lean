import ZxSpectrum.Proofs.MemoryOperands
import ZxSpectrum.Proofs.PrefixTermination

/-!
# The pages of the index registers

An opcode after an index prefix does on the flat bus what it does without (`step_indexed`): the same thing if the prefix does
not concern it, the same with HL and the index register exchanged if it names HL, and the same at a displaced address if its
operand is the byte at HL. In that last case H and L still name themselves, and the program counter goes on past the displacement.
-/

namespace ZxSpectrum

namespace FlatBus

/-- A bus some T-states later. -/
def later (time : Nat) (bus : FlatBus) : FlatBus := { bus with clock := bus.clock + time }

end FlatBus

/-- Only one opcode begins a bit operation on an indexed byte. -/
theorem Page.opcode_of_enterIndexedBits {i j : IndexRegister} {opcode : UInt8}
    (h : (Page.index i).decode opcode = .enterIndexedBits j) : opcode = 0xCB := by
  have hall : ∀ i ∈ [IndexRegister.ix, .iy], ∀ n < 256, (match (Page.index i).decode (UInt8.ofNat n) with
      | .enterIndexedBits _ => UInt8.ofNat n == 0xCB
      | _ => true) = true := by
    decide +kernel
  have hi : i ∈ [IndexRegister.ix, .iy] := by cases i <;> decide
  have hone := hall i hi opcode.toNat opcode.toNat_lt
  rw [UInt8.ofNat_toNat, h] at hone
  exact eq_of_beq hone

namespace Cpu

open Instruction

variable {i : IndexRegister} {cpu : Cpu} {bus : FlatBus} {changed : Instruction}

/-- An instruction after an index prefix is fetched in eight T-states. -/
theorem run_step_of_indexed (hfirst : bus.memory.get cpu.regs.pc = i.opcode)
    (h : (Page.index i).decode (bus.memory.get (cpu.regs.pc + 1)) = .run changed) :
    cpu.step.run bus = (changed.execute cpu.fetched.fetched).run (bus.later 8) := by
  have hslot : Page.base.decode (bus.memory.get cpu.regs.pc) = .enter (.index i) := by rw [hfirst, Page.decode_opcode]
  exact run_step_of_enter hslot h

/-- An opcode that the prefix does not concern is executed as if unprefixed, four T-states later. -/
theorem run_step_of_again (hfirst : bus.memory.get cpu.regs.pc = i.opcode)
    (hbyte : ¬ IsIndexPrefix (bus.memory.get (cpu.regs.pc + 1)))
    (h : (Page.index i).decode (bus.memory.get (cpu.regs.pc + 1)) = .again) :
    cpu.step.run bus = cpu.fetched.step.run (bus.later 4) := by
  have hother : ∃ a, ¬ IsIndexPrefix (Bus.peek a bus) := ⟨cpu.regs.pc + 1, hbyte⟩
  refine run_step_of_skipped hother 1 fun j hj => ⟨i, ?_⟩
  obtain rfl : j = 0 := by omega
  rw [show UInt16.ofNat 0 = 0 from rfl, UInt16.add_zero]
  exact ⟨hfirst, h⟩

theorem fetched_exchange (cpu : Cpu) : (cpu.exchange i).fetched = cpu.fetched.exchange i := by
  cases i <;> rfl

/-- An opcode that names the index register in place of HL. -/
theorem run_step_of_renamed (hfirst : bus.memory.get cpu.regs.pc = i.opcode)
    (h : (Page.index i).decode (bus.memory.get (cpu.regs.pc + 1)) = .run changed)
    (hdirect : .memory (.displaced i) ∉ changed.operands) :
    cpu.step.run bus = (((cpu.fetched.exchange i).step.run (bus.later 4)).1.exchange i,
      ((cpu.fetched.exchange i).step.run (bus.later 4)).2) := by
  obtain ⟨plain, hbase, hchanged⟩ := Page.decode_index_eq_run h
  have hplain := Page.isPlain_decode hbase
  have husesHl : ¬ plain.UsesHl := fun huses => hdirect ((usesHl_iff hplain hchanged).mp huses)
  have hpc : (cpu.fetched.exchange i).regs.pc = cpu.regs.pc + 1 := by cases i <;> rfl
  have hunprefixed : (cpu.fetched.exchange i).step.run (bus.later 4) =
      (plain.execute (cpu.fetched.exchange i).fetched).run (bus.later 8) := by
    refine run_step_of_run ?_
    rw [hpc]
    exact hbase
  rw [hunprefixed, fetched_exchange, run_step_of_indexed hfirst h, execute_indexed hchanged hplain husesHl]
  simp only [map_eq_pure_bind, BusProgram.run_bind, BusProgram.run_pure]

/-- An opcode with an operand at HL acts on the byte at the displaced address. -/
theorem acts_of_displaced (hfirst : bus.memory.get cpu.regs.pc = i.opcode)
    (h : (Page.index i).decode (bus.memory.get (cpu.regs.pc + 1)) = .run changed)
    (hdisplaced : .memory (.displaced i) ∈ changed.operands) :
    ∃ plain, Page.base.decode (bus.memory.get (cpu.regs.pc + 1)) = .run plain ∧ plain.UsesHl ∧
      plain.ActsAt (Word.displace (cpu.index i) (bus.memory.get (cpu.regs.pc + 2))) (cpu.fetched.fetched.skip 1) bus
        (cpu.step.run bus) := by
  obtain ⟨plain, hbase, hchanged⟩ := Page.decode_index_eq_run h
  have husesHl := (usesHl_iff (Page.isPlain_decode hbase) hchanged).mpr hdisplaced
  refine ⟨plain, hbase, husesHl, ?_⟩
  rw [run_step_of_indexed hfirst h]
  have hacts := husesHl.acts_displaced hchanged cpu.fetched.fetched (bus.later 8)
  have hpc : cpu.fetched.fetched.regs.pc = cpu.regs.pc + 2 := UInt16.add_assoc _ 1 1
  have hindex : cpu.fetched.fetched.index i = cpu.index i := by cases i <;> rfl
  rw [hpc, hindex] at hacts
  exact hacts

/-- Unprefixed it acts on the byte at HL. -/
theorem acts_of_usesHl {plain : Instruction} (husesHl : plain.UsesHl) (cpu : Cpu) (bus : FlatBus)
    (hbase : Page.base.decode (bus.memory.get cpu.regs.pc) = .run plain) :
    plain.ActsAt cpu.regs.hl cpu.fetched bus (cpu.step.run bus) := by
  have hrun : cpu.step.run bus = (plain.execute cpu.fetched).run (bus.later 4) := run_step_of_run hbase
  rw [hrun]
  exact husesHl.acts cpu.fetched (bus.later 4)

/-- An opcode other than `CB` and the index prefixes does after an index prefix what it does unprefixed. One that the prefix does
not concern starts later by a fetch. One that names HL does it with HL and the index register exchanged. One with an operand at HL
does to the byte at the displaced address and to the processor what it does unprefixed to the byte at HL; the displacement is read
before an immediate operand, and no register changes but the accumulator and the one that is loaded. -/
theorem step_indexed (i : IndexRegister) (cpu : Cpu) (bus : FlatBus) (opcode : UInt8)
    (hfirst : bus.memory.get cpu.regs.pc = i.opcode) (hopcode : bus.memory.get (cpu.regs.pc + 1) = opcode)
    (hother : opcode ≠ 0xCB ∧ opcode ≠ 0xDD ∧ opcode ≠ 0xFD) :
    (Page.index i).decode opcode = .again ∧ cpu.step.run bus = cpu.fetched.step.run (bus.later 4) ∨
    ∃ changed, (Page.index i).decode opcode = .run changed ∧
      (.memory (.displaced i) ∉ changed.operands →
        let plain := (cpu.fetched.exchange i).step.run (bus.later 4)
        cpu.step.run bus = (plain.1.exchange i, plain.2)) ∧
      (.memory (.displaced i) ∈ changed.operands →
        let after := cpu.step.run bus
        ∃ plain, Page.base.decode opcode = .run plain ∧
          (∀ (any : Cpu) (its : FlatBus), its.memory.get any.regs.pc = opcode →
            plain.ActsAt any.regs.hl any.fetched its (any.step.run its)) ∧
          plain.ActsAt (Word.displace (cpu.index i) (bus.memory.get (cpu.regs.pc + 2))) (cpu.fetched.fetched.skip 1) bus
            after ∧
          (∀ r, r ≠ .a → plain ≠ .load (.reg r) (.memory .hl) → after.1.reg r = cpu.reg r) ∧
          after.1.regs.pc = (cpu.fetched.step.run bus).1.regs.pc + 1) := by
  subst hopcode
  have hnone : ¬ IsIndexPrefix (bus.memory.get (cpu.regs.pc + 1)) := not_or.mpr hother.2
  rcases Page.decode_index_cases hnone i with ⟨changed, hslot⟩ | ⟨j, hslot⟩ | hslot
  · refine Or.inr ⟨changed, hslot, run_step_of_renamed hfirst hslot, fun hdisplaced => ?_⟩
    intro after
    obtain ⟨plain, hbase, husesHl, hacts⟩ := acts_of_displaced hfirst hslot hdisplaced
    refine ⟨plain, hbase, fun any its hits => acts_of_usesHl husesHl any its (by rw [hits, hbase]), hacts,
      fun r ha hload => ?_, ?_⟩
    · have hafter : after.1 = _ := congrArg Prod.fst hacts
      rw [hafter]
      exact (husesHl.reg_onByte ha hload _ _ _).trans (reg_skip _ r 1)
    · have hafter : after.1 = _ := congrArg Prod.fst hacts
      have hunprefixed : (cpu.fetched.step.run bus).1 = _ :=
        congrArg Prod.fst (acts_of_usesHl husesHl cpu.fetched bus hbase)
      rw [hafter, hunprefixed]
      exact husesHl.pc_onByte_skip _ _ _ _ _
  · exact absurd (Page.opcode_of_enterIndexedBits hslot) hother.1
  · exact Or.inl ⟨hslot, run_step_of_again hfirst hnone hslot⟩

/-! `DD 00`, `FD 29` (`ADD IY,IY`) and `DD 66 FE` (`LD H,(IX-2)`), with a byte at the displaced address. -/

def indexBus (first second third : UInt8) : FlatBus :=
  { memory := (((Memory.blank.set 0x8000 first).set 0x8001 second).set 0x8002 third).set 0x8FFE 0x5A }

theorem get_indexBus (first second third : UInt8) : (indexBus first second third).memory.get 0x8000 = first ∧
    (indexBus first second third).memory.get 0x8001 = second ∧ (indexBus first second third).memory.get 0x8002 = third ∧
    (indexBus first second third).memory.get 0x8FFE = 0x5A := by
  simp [indexBus, Memory.get_set]

def indexCpu : Cpu := { regs := { h := 1, l := 2, ixh := 0x90, iyh := 0x20, pc := 0x8000 } }

theorem step_indexed_threeKinds :
    (indexCpu.step.run (indexBus 0xDD 0 0) = indexCpu.fetched.step.run ((indexBus 0xDD 0 0).later 4)) ∧
    indexCpu.step.run (indexBus 0xFD 0x29 0) =
      (((indexCpu.fetched.exchange .iy).step.run ((indexBus 0xFD 0x29 0).later 4)).1.exchange .iy,
        ((indexCpu.fetched.exchange .iy).step.run ((indexBus 0xFD 0x29 0).later 4)).2) ∧
    (indexCpu.step.run (indexBus 0xDD 0x66 0xFE)).1.reg .h = 0x5A ∧
    (indexCpu.step.run (indexBus 0xDD 0x66 0xFE)).1.reg .l = 2 := by
  refine ⟨?_, ?_, ?_⟩
  · obtain ⟨hfirst, hopcode, -⟩ := get_indexBus 0xDD 0 0
    rcases step_indexed .ix indexCpu (indexBus 0xDD 0 0) 0 hfirst hopcode (by decide) with
      ⟨-, hrun⟩ | ⟨changed, hslot, -⟩
    · exact hrun
    · exact absurd hslot nofun
  · obtain ⟨hfirst, hopcode, -⟩ := get_indexBus 0xFD 0x29 0
    rcases step_indexed .iy indexCpu (indexBus 0xFD 0x29 0) 0x29 hfirst hopcode (by decide) with
      ⟨hslot, -⟩ | ⟨changed, hslot, hrun, -⟩
    · exact absurd hslot nofun
    · obtain rfl : changed = .add (.index .iy) (.index .iy) := (Slot.run.inj hslot).symm
      exact hrun (by decide)
  · obtain ⟨hfirst, hopcode, hthird, hbyte⟩ := get_indexBus 0xDD 0x66 0xFE
    rcases step_indexed .ix indexCpu (indexBus 0xDD 0x66 0xFE) 0x66 hfirst hopcode (by decide) with
      ⟨hslot, -⟩ | ⟨changed, hslot, -, hrun⟩
    · exact absurd hslot nofun
    · obtain rfl : changed = .load (.reg .h) (.memory (.displaced .ix)) := (Slot.run.inj hslot).symm
      obtain ⟨plain, hbase, -, hacts, hkeeps, -⟩ := hrun (by decide)
      obtain rfl : plain = .load (.reg .h) (.memory .hl) := (Slot.run.inj hbase).symm
      refine ⟨?_, hkeeps .l (by decide) (by decide)⟩
      have haddress : Word.displace (indexCpu.index .ix) ((indexBus 0xDD 0x66 0xFE).memory.get (indexCpu.regs.pc + 2)) =
          0x8FFE := by
        rw [show indexCpu.regs.pc + 2 = 0x8002 from rfl, hthird]
        decide
      rw [haddress, ActsAt, hbyte] at hacts
      have hloaded : (indexCpu.step.run (indexBus 0xDD 0x66 0xFE)).1 = (indexCpu.fetched.fetched.skip 1).setReg .h 0x5A :=
        congrArg Prod.fst hacts
      rw [hloaded]
      exact reg_setReg_self _ _ _

end Cpu

end ZxSpectrum
