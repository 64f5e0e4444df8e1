import ZxSpectrum.Proofs.RegisterFrames

/-!
# The refresh register counts

The refresh register counts opcode fetches and accepted interrupts modulo 128, and its bit 7 stays (`Counts`). Of the bytes of an
instruction its prefixes and its opcode are fetched so, but not a displacement, nor the opcode behind it (`Encoding.fetches`). Only
one instruction loads the register. Over a run of any length without that one the counts add up (`Runs.counts`); `step_counts` says
what `step` does to the register.
-/

namespace ZxSpectrum

open BusProgram

/-- The seven low bits have counted so far, and bit 7 has stayed. -/
structure Counts (count : Nat) (before after : UInt8) : Prop where
  high : after &&& 0x80 = before &&& 0x80
  low : after.toNat % 128 = (before.toNat + count) % 128

namespace Counts

variable {count more : Nat} {before middle after : UInt8}

theorem refl (value : UInt8) : Counts 0 value value := ⟨rfl, rfl⟩

theorem trans (first : Counts count before middle) (second : Counts more middle after) : Counts (count + more) before after where
  high := second.high.trans first.high
  low := by
    have hfirst := first.low
    have hsecond := second.low
    omega

end Counts

namespace Cpu

/-- Opcode fetches count one by one. -/
theorem counts_passing (count : Nat) (cpu : Cpu) : Counts count cpu.regs.refresh (cpu.passing count).regs.refresh := by
  have hjoined := cpu.refresh_passing count
  have hmask : ∀ x y : UInt8, ((x &&& 0x7F) ||| (y &&& 0x80)) &&& 0x7F = x &&& 0x7F ∧
      ((x &&& 0x7F) ||| (y &&& 0x80)) &&& 0x80 = y &&& 0x80 := fun x y =>
    Registers.refresh_and { r := x, r7 := y }
  have hlow : ∀ x : UInt8, (x &&& 0x7F).toNat = x.toNat % 128 := fun x => by
    have hfield := toNat_and_field x 0 7 (rfl : (0x7F : UInt8).toNat = _)
    omega
  constructor
  · rw [hjoined, (hmask _ _).2]
  · rw [← hlow, hjoined, (hmask _ _).1, hlow, UInt8.toNat_add, UInt8.toNat_ofNat']
    omega

end Cpu

/-! ## Instructions -/

/-- How many bytes of an encoding are fetched as opcodes. -/
def Encoding.fetches : Encoding → Nat
  | .plain _ => 1
  | _ => 2

variable {β : Type} [Bus β]

theorem Encoding.counts_ready (code : Encoding) (cpu : Cpu) (bus : β) :
    Counts code.fetches cpu.regs.refresh (code.ready cpu bus).1.regs.refresh := by
  cases code with
  | plain opcode => exact cpu.counts_passing 1
  | _ =>
    have hcounts := cpu.counts_passing 2
    rw [← Cpu.fetched_fetched] at hcounts
    exact hcounts

/-- From its opcode on no instruction changes the refresh register but the one that loads it. -/
theorem Instruction.yields_refresh {instruction : Instruction} (h : instruction.role ≠ .loadRefresh) (cpu : Cpu) :
    (instruction.execute cpu).Yields fun after => after.regs.refresh = cpu.regs.refresh := by
  refine (instruction.yields_execute cpu).mono fun after hafter => ?_
  have hr : after.regs.r = (instruction.system cpu).r := congrArg System.r hafter
  have hr7 : after.regs.r7 = (instruction.system cpu).r7 := congrArg System.r7 hafter
  have hsame : (instruction.system cpu).r = cpu.regs.r ∧ (instruction.system cpu).r7 = cpu.regs.r7 := by
    cases instruction with
    | loadRefresh => exact absurd rfl h
    | _ => exact ⟨rfl, rfl⟩
  rw [Registers.refresh, hr, hr7, hsame.1, hsame.2, Registers.refresh]

namespace Cpu

variable {cpu after : Cpu} {bus later : β} {ignored pages : Nat} {code : Encoding}

/-- One instruction. -/
theorem Ends.counts (h : cpu.Ends pages bus (after, later)) (encoded : Encoded cpu.regs.pc bus ignored code)
    (hother : code.role ≠ .loadRefresh) : Counts (ignored + code.fetches) cpu.regs.refresh after.regs.refresh := by
  obtain ⟨instruction, hcode, hresult⟩ := encoded.eq_of_ends h
  have hready := (cpu.counts_passing ignored).trans
    (code.counts_ready (cpu.passing ignored) (chargeFetches ignored cpu.regs.pc bus))
  have hrole : instruction.role ≠ .loadRefresh := (Encoding.role_eq hcode).1 ▸ hother
  have hkept := (Instruction.yields_refresh hrole
    (code.ready (cpu.passing ignored) (chargeFetches ignored cpu.regs.pc bus)).1).run
    (code.ready (cpu.passing ignored) (chargeFetches ignored cpu.regs.pc bus)).2
  rw [← hresult] at hkept
  rwa [← hkept] at hready

/-- An accepted interrupt counts once, one that is not accepted does not. -/
theorem yields_interrupt_counts (cpu : Cpu) :
    cpu.interrupt.Yields fun result => Counts (if result.1 then 1 else 0) cpu.regs.refresh result.2.regs.refresh := by
  by_cases hiff : cpu.regs.iff1 = true
  · have hinterrupted : cpu.interrupted.regs.refresh = cpu.regs.refresh := by
      obtain ⟨regs, halted, latch⟩ := cpu
      cases halted <;> rfl
    rw [interrupt_of_enabled hiff]
    refine Yields.bind (cpu.interrupted.leaves_pushWord _) fun pushed hpushed => .after fun _ => .after fun _ => ?_
    have hr : pushed.regs.r = cpu.interrupted.regs.r := congrArg System.r hpushed
    have hr7 : pushed.regs.r7 = cpu.interrupted.regs.r7 := congrArg System.r7 hpushed
    have hrefresh : pushed.regs.refresh = cpu.regs.refresh := by
      rw [← hinterrupted, Registers.refresh, hr, hr7, Registers.refresh]
    rw [← hrefresh]
    exact pushed.counts_passing 1
  · rw [interrupt, if_neg hiff]
    exact .refl _

end Cpu

/-! ## Runs -/

/-- Only `LD R,A` loads the refresh register. -/
theorem Encoding.eq_of_loadRefresh {code : Encoding} (h : code.role = .loadRefresh) : code = .extended 0x4F :=
  forall_encoding (P := fun code => code.role = .loadRefresh → code = .extended 0x4F) (by decide +kernel) code h

namespace Cpu

/-- Instructions other than `LD R,A` and acknowledgements of interrupts, one after the other, with their fetches and the accepted
interrupts counted. In between the bus may change by other means. -/
inductive Runs {β : Type} [Bus β] : Nat → Cpu → β → Cpu → Prop where
  | done {cpu : Cpu} {bus : β} : Runs 0 cpu bus cpu
  | instruction {cpu middle after : Cpu} {bus later : β} {ignored pages count : Nat} {code : Encoding}
      (encoded : Encoded cpu.regs.pc bus ignored code) (other : code ≠ .extended 0x4F) (ends : cpu.Ends pages bus (middle, later))
      (rest : Runs count middle later after) : Runs (ignored + code.fetches + count) cpu bus after
  | interrupt {cpu after : Cpu} {bus : β} {count : Nat}
      (rest : Runs count (cpu.interrupt.run bus).1.2 (cpu.interrupt.run bus).2 after) :
      Runs ((if (cpu.interrupt.run bus).1.1 then 1 else 0) + count) cpu bus after
  | elsewhere {cpu after : Cpu} {bus other : β} {count : Nat} (rest : Runs count cpu other after) : Runs count cpu bus after

variable {cpu after : Cpu} {bus later : β} {ignored pages count : Nat}

/-- The counts of a run add up. -/
theorem Runs.counts (h : Runs count cpu bus after) : Counts count cpu.regs.refresh after.regs.refresh := by
  induction h with
  | done => exact .refl _
  | instruction encoded other ends _ ih =>
    exact (ends.counts encoded fun hrole => other (Encoding.eq_of_loadRefresh hrole)).trans ih
  | @interrupt cpu _ bus _ _ ih => exact (cpu.yields_interrupt_counts.run bus).trans ih
  | elsewhere _ ih => exact ih

/-- `LD R,A` loads the refresh register. -/
theorem Ends.refresh_of_load (h : cpu.Ends pages bus (after, later))
    (encoded : Encoded cpu.regs.pc bus ignored (.extended 0x4F)) : after.regs.refresh = cpu.regs.a := by
  obtain ⟨instruction, hcode, hresult⟩ := encoded.eq_of_ends h
  obtain rfl : .loadRefresh = instruction := Slot.run.inj hcode
  have hafter : after.regs = Registers.setRefresh _ cpu.regs.a := congrArg (fun result => result.1.regs) hresult
  rw [hafter, Registers.refresh_setRefresh]

/-- `LD A,R` finds its own fetches counted. -/
theorem Ends.a_of_read (h : cpu.Ends pages bus (after, later))
    (encoded : Encoded cpu.regs.pc bus ignored (.extended 0x5F)) : after.regs.a = after.regs.refresh := by
  obtain ⟨instruction, hcode, hresult⟩ := encoded.eq_of_ends h
  obtain rfl : .readRefresh = instruction := Slot.run.inj hcode
  rw [congrArg (fun result => result.1.regs) hresult]
  rfl

/-- Over any run without `LD R,A`, on any bus, bit 7 of the refresh register stays and the others count the fetches and the accepted
interrupts modulo 128. What is executed to its end is encoded, so that no instruction is left out. After `LD R,A` the register is the
accumulator, and `LD A,R` reads it with its own two fetches counted. -/
theorem refresh_counts (β : Type) [Bus β] :
    (∀ pages (cpu : Cpu) (bus : β) result, cpu.Ends pages bus result → ∃ ignored code, Encoded cpu.regs.pc bus ignored code) ∧
    (∀ count cpu (bus : β) after, Runs count cpu bus after → Counts count cpu.regs.refresh after.regs.refresh) ∧
    (∀ ignored pages (cpu : Cpu) (bus : β) after later, Encoded cpu.regs.pc bus ignored (.extended 0x4F) →
      cpu.Ends pages bus (after, later) → after.regs.refresh = cpu.regs.a) ∧
    ∀ ignored pages (cpu : Cpu) (bus : β) after later, Encoded cpu.regs.pc bus ignored (.extended 0x5F) →
      cpu.Ends pages bus (after, later) →
        after.regs.a = after.regs.refresh ∧ Counts (ignored + 2) cpu.regs.refresh after.regs.refresh := by
  refine ⟨fun _ _ _ _ hends => hends.exists_encoded, fun _ _ _ _ hruns => hruns.counts, fun _ _ _ _ _ _ hload hends => ?_,
    fun _ _ _ _ _ _ hread hends => ⟨?_, ?_⟩⟩
  · exact hends.refresh_of_load hload
  · exact hends.a_of_read hread
  · exact hends.counts hread nofun

/-- The same of `step`, on a bus on which each byte stays what it is while the clock goes on: in every memory but those of nothing
but index prefixes there is an instruction at the program counter, and `step` counts its fetches unless it is `LD R,A`. -/
theorem step_counts {β : Type} [Bus β] [Bus.Steady β] (cpu : Cpu) (bus : β) :
    ((∃ ignored code, Encoded cpu.regs.pc bus ignored code) ↔ ∃ a, ¬ IsIndexPrefix (Bus.peek a bus)) ∧
    ∀ ignored code, Encoded cpu.regs.pc bus ignored code →
      let after := (cpu.step.run bus).1.regs
      (code ≠ .extended 0x4F → Counts (ignored + code.fetches) cpu.regs.refresh after.refresh) ∧
      (code = .extended 0x4F → after.refresh = cpu.regs.a) ∧
      (code = .extended 0x5F → after.a = after.refresh) := by
  refine ⟨cpu.exists_encoded_iff_other bus, fun ignored code h => ?_⟩
  obtain ⟨instruction, hcode⟩ := h.occurs.exists_instruction
  obtain ⟨pages, hends⟩ := h.ends hcode
  rw [hends.run_step]
  refine ⟨fun hother => ?_, fun hload => ?_, fun hread => ?_⟩
  · exact hends.counts h fun hrole => hother (Encoding.eq_of_loadRefresh hrole)
  · exact hends.refresh_of_load (hload ▸ h)
  · exact hends.a_of_read (hread ▸ h)

/-! `LD A,R` and `LD R,A`, with a register that is about to come round. -/

def refreshProgram : Memory := (((Memory.blank.set 0 0xED).set 1 0x5F).set 2 0xED).set 3 0x4F

theorem get_refreshProgram : refreshProgram.get 0 = 0xED ∧ refreshProgram.get 1 = 0x5F ∧ refreshProgram.get 2 = 0xED ∧
    refreshProgram.get 3 = 0x4F := by
  simp [refreshProgram, Memory.get_set]

theorem encoded_refreshProgram : Encoded 0 ({ memory := refreshProgram } : FlatBus) 0 (.extended 0x5F) ∧
    Encoded 2 ({ memory := refreshProgram } : FlatBus) 0 (.extended 0x4F) := by
  obtain ⟨hfirst, hread, hsecond, hload⟩ := get_refreshProgram
  exact ⟨.extended ((opcodeAt_flat _ _).trans hfirst) ((opcodeAt_flat _ _).trans hread),
    .extended ((opcodeAt_flat _ _).trans hsecond) ((opcodeAt_flat _ _).trans hload)⟩

theorem refresh_counts_wrapped :
    let bus : FlatBus := { memory := refreshProgram }
    let reading : Cpu := { regs := { r := 0x7E, r7 := 0x80 } }
    let loading : Cpu := { regs := { a := 0x95, pc := 2 } }
    Encoded 0 bus 0 (.extended 0x5F) ∧ Encoded 2 bus 0 (.extended 0x4F) ∧
    (∃ pages after later, reading.Ends pages bus (after, later) ∧ Runs 2 reading bus after ∧
      after.regs.a = after.regs.refresh ∧ Counts 2 0xFE after.regs.refresh) ∧
    ∃ pages after later, loading.Ends pages bus (after, later) ∧ after.regs.refresh = 0x95 := by
  intro bus reading loading
  obtain ⟨hread, hload⟩ := encoded_refreshProgram
  obtain ⟨-, hruns, hloads, hreads⟩ := refresh_counts FlatBus
  obtain ⟨pages, hends⟩ : ∃ pages, reading.Ends pages bus _ := hread.ends rfl
  obtain ⟨others, hends'⟩ : ∃ pages, loading.Ends pages bus _ := hload.ends rfl
  have hother : Encoding.extended 0x5F ≠ .extended 0x4F := by decide
  have hrun := Runs.instruction hread hother hends .done
  have hcounts := hruns _ _ _ _ hrun
  have hstart : reading.regs.refresh = 0xFE := by decide
  rw [hstart] at hcounts
  exact ⟨hread, hload, ⟨pages, _, _, hends, hrun, (hreads _ _ _ _ _ _ hread hends).1, hcounts⟩,
    others, _, _, hends', hloads _ _ _ _ _ _ hload hends'⟩

end Cpu

end ZxSpectrum
