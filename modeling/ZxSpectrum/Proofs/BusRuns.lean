import ZxSpectrum.Board
import ZxSpectrum.Cpu
import ZxSpectrum.Proofs.MemoryImage

/-!
# Runs on a bus

What every bus cycle keeps, a whole program keeps (`Keeps.run`), and so does a processor that executes instructions up to a
time (`Keeps.runFor`). What every bus cycle keeps of two buses side by side, a program keeps of its two runs, and it gives
the same result on both (`Mirrors.run`). The last section says what the cycles of the main board change.
-/

namespace ZxSpectrum

variable {α β γ : Type} [Bus β] [Bus γ]

/-! ## One bus -/

/-- Every bus cycle keeps a property of the bus. -/
structure Keeps (holds : β → Prop) : Prop where
  idle : ∀ {bus} time, holds bus → holds (Bus.idle time bus)
  contend : ∀ {bus} address time, holds bus → holds (Bus.contend address time bus)
  poke : ∀ {bus} address value, holds bus → holds (Bus.poke address value bus)
  input : ∀ {bus} port, holds bus → holds (Bus.input port bus).2
  output : ∀ {bus} port value, holds bus → holds (Bus.output port value bus)

/-- What every cycle keeps, a program keeps. -/
theorem Keeps.run {holds : β → Prop} (keeps : Keeps holds) (program : BusProgram α) :
    ∀ {bus : β}, holds bus → holds (program.run bus).2 := by
  induction program with
  | done result => exact id
  | idle time next ih => exact fun h => ih (keeps.idle time h)
  | contend address time next ih => exact fun h => ih (keeps.contend address time h)
  | peek address next ih => exact fun h => ih _ h
  | poke address value next ih => exact fun h => ih (keeps.poke address value h)
  | input port next ih => exact fun h => ih _ (keeps.input port h)
  | output port value next ih => exact fun h => ih (keeps.output port value h)

/-- What every cycle keeps, any number of instructions keeps. -/
theorem Keeps.runFor {holds : β → Prop} (keeps : Keeps holds) (limit fuel : Nat) :
    ∀ (cpu : Cpu) {bus : β}, holds bus → holds (cpu.runFor limit fuel bus).2 := by
  induction fuel with
  | zero => exact fun cpu bus h => h
  | succ fuel ih =>
    intro cpu bus h
    rw [Cpu.runFor]
    by_cases running : Bus.clock bus < limit
    · rw [if_pos running]
      exact ih _ (keeps.run cpu.step h)
    · rw [if_neg running]
      exact h

/-! ## Two buses -/

/-- Every bus cycle answers the same on two related buses and keeps them related. -/
structure Mirrors (related : β → γ → Prop) : Prop where
  idle : ∀ {bus other} time, related bus other → related (Bus.idle time bus) (Bus.idle time other)
  contend : ∀ {bus other} address time, related bus other →
    related (Bus.contend address time bus) (Bus.contend address time other)
  peek : ∀ {bus other} address, related bus other → Bus.peek address bus = Bus.peek address other
  poke : ∀ {bus other} address value, related bus other →
    related (Bus.poke address value bus) (Bus.poke address value other)
  answer : ∀ {bus other} port, related bus other → (Bus.input port bus).1 = (Bus.input port other).1
  input : ∀ {bus other} port, related bus other → related (Bus.input port bus).2 (Bus.input port other).2
  output : ∀ {bus other} port value, related bus other →
    related (Bus.output port value bus) (Bus.output port value other)

/-- A program gives the same result on related buses and keeps them related. -/
theorem Mirrors.run {related : β → γ → Prop} (mirrors : Mirrors related) (program : BusProgram α) :
    ∀ {bus : β} {other : γ}, related bus other →
      (program.run bus).1 = (program.run other).1 ∧ related (program.run bus).2 (program.run other).2 := by
  induction program with
  | done result => exact fun h => ⟨rfl, h⟩
  | idle time next ih => exact fun h => ih (mirrors.idle time h)
  | contend address time next ih => exact fun h => ih (mirrors.contend address time h)
  | peek address next ih =>
    intro bus other h
    simp only [BusProgram.run]
    rw [mirrors.peek address h]
    exact ih _ h
  | poke address value next ih => exact fun h => ih (mirrors.poke address value h)
  | input port next ih =>
    intro bus other h
    simp only [BusProgram.run]
    rw [mirrors.answer port h]
    exact ih _ (mirrors.input port h)
  | output port value next ih => exact fun h => ih (mirrors.output port value h)

/-- Two programs that differ only in what a change of their results hides run alike on related buses, as far as that shows. -/
theorem Mirrors.run_map {δ : Type} {related : β → γ → Prop} (mirrors : Mirrors related) {f : α → δ}
    {program twin : BusProgram α} (h : f <$> program = f <$> twin) {bus : β} {other : γ} (hbus : related bus other) :
    f (program.run bus).1 = f (twin.run other).1 ∧ related (program.run bus).2 (twin.run other).2 := by
  have hrun := congrArg (fun changed => changed.run bus) h
  simp only [map_eq_pure_bind, BusProgram.run_bind, BusProgram.run_pure, Prod.mk.injEq] at hrun
  obtain ⟨hresult, hrelated⟩ := mirrors.run twin hbus
  rw [hrun.1, hrun.2, hresult]
  exact ⟨rfl, hrelated⟩

/-! ## The main board -/

namespace Ula

theorem clock_le_access (address : UInt16) (time clock : Nat) : clock ≤ access address time clock := by
  have h := clock_le_contend time clock
  unfold access
  split <;> omega

theorem clock_le_afterPort (port : UInt16) (clock : Nat) : clock ≤ afterPort port clock := by
  have h1 := clock_le_contend 3 clock
  have h2 := clock_le_contend 1 clock
  have h3 := clock_le_contend 1 (contend 1 clock)
  have h4 := clock_le_contend 1 (contend 1 (contend 1 clock))
  unfold afterPort
  split
  · omega
  · split <;> omega

theorem clock_le_beforePort (port : UInt16) (clock : Nat) : clock ≤ beforePort port clock := clock_le_access port 1 clock

end Ula

namespace Board

/-- Memory and shadow stand as they were while time passed. -/
structure Waits (board later : Board) : Prop where
  memory : later.memory = board.memory
  shadow : later.shadow = board.shadow
  clock : board.clock ≤ later.clock

theorem waits_idle (time : Nat) (board : Board) : board.Waits (Bus.idle time board) := ⟨rfl, rfl, Nat.le_add_right _ _⟩

theorem waits_contend (address : UInt16) (time : Nat) (board : Board) : board.Waits (Bus.contend address time board) :=
  ⟨rfl, rfl, Ula.clock_le_access address time board.clock⟩

theorem waits_input (port : UInt16) (board : Board) : board.Waits (Bus.input port board).2 :=
  ⟨rfl, rfl, Nat.le_trans (Ula.clock_le_beforePort port board.clock) (Ula.clock_le_afterPort port _)⟩

theorem waits_output (port : UInt16) (value : UInt8) (board : Board) : board.Waits (Bus.output port value board) :=
  ⟨rfl, rfl, Nat.le_trans (Ula.clock_le_beforePort port board.clock) (Ula.clock_le_afterPort port _)⟩

theorem memory_poke (address : UInt16) (value : UInt8) (board : Board) :
    (board.poke address value).memory = board.memory.write address value := by
  unfold poke Memory.write
  split <;> rfl

/-- Changing a byte takes no time and leaves the ports alone. -/
theorem clock_poke (address : UInt16) (value : UInt8) (board : Board) : (board.poke address value).clock = board.clock ∧
    (board.poke address value).ports = board.ports := by
  unfold poke
  split <;> exact ⟨rfl, rfl⟩

/-- A program has no influence on the ROM. -/
theorem keeps_rom (rom : Memory) :
    Keeps fun board : Board => ∀ a, Memory.isRom a = true → board.memory.get a = rom.get a where
  idle _ h := h
  contend _ _ h := h
  poke {board} address value h a ha := by
    change (board.poke address value).memory.get a = _
    rw [memory_poke, Memory.get_write_of_isRom _ _ _ ha]
    exact h a ha
  input _ h := h
  output _ _ h := h

end Board

end ZxSpectrum
