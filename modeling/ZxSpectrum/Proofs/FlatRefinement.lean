import ZxSpectrum.Proofs.BusCycles
import ZxSpectrum.Proofs.FramePrograms
import ZxSpectrum.Proofs.PrefixChains
import ZxSpectrum.Proofs.ReadOrder

/-!
# The main board refines the flat bus

A program that reads before it writes does the same on the main board as on a flat bus with the same memory, though the board
ignores what it writes to the ROM (`BusProgram.Orderly.run_flat`). So does one instruction, with any prefixes; on the board it
takes longer by the waits it meets, and instructions that neither read a port nor write to the ROM do the same one after the
other (`Board.step_refines_flat`).
-/

namespace ZxSpectrum

open BusProgram

variable {α β γ : Type}

/-! ## Programs that read before they write -/

/-- Every port that is read in some cycles answers a byte. -/
def PortsAnswer (value : UInt8) (cycles : List (Nat × Cycle)) : Prop :=
  ∀ start port answer, (start, Cycle.input port answer) ∈ cycles → answer = value

theorem PortsAnswer.tail {value : UInt8} {cycle : Nat × Cycle} {rest : List (Nat × Cycle)}
    (h : PortsAnswer value (cycle :: rest)) : PortsAnswer value rest :=
  fun start port answer hmem => h start port answer (List.mem_cons_of_mem cycle hmem)

/-- A flat bus holds what the main board holds; once memory may have been written, in RAM. -/
structure FlatBus.Matches (written : Bool) (flat : FlatBus) (board : Board) : Prop where
  unwritten : written = false → flat.memory = board.memory
  ram : ∀ a, Memory.isRom a = false → flat.memory.get a = board.memory.get a

theorem FlatBus.matches_of_eq {flat : FlatBus} {board : Board} (h : flat.memory = board.memory) (written : Bool) :
    flat.Matches written board := ⟨fun _ => h, fun a _ => by rw [h]⟩

/-- A write changes RAM alike on both. -/
theorem FlatBus.Matches.poke {written : Bool} {flat : FlatBus} {board : Board} (h : flat.Matches written board)
    (address : UInt16) (value : UInt8) :
    FlatBus.Matches true (Bus.poke address value flat) (Bus.poke address value board) := by
  refine ⟨nofun, fun a ha => ?_⟩
  change (flat.memory.set address value).get a = (board.poke address value).memory.get a
  rw [Board.memory_poke]
  by_cases hself : address = a
  · subst hself
    rw [Memory.get_set_self, Memory.get_write_self _ ha]
  · rw [Memory.get_set_of_ne _ _ hself, Memory.get_write_of_ne _ _ hself]
    exact h.ram a ha

/-- A program that reads before it writes does the same on both, as long as the flat bus answers as the ports do. -/
theorem BusProgram.Orderly.run_flat {program : BusProgram α} {before after : Bool} (h : program.Orderly before after)
    {flat : FlatBus} {board : Board} (hmatches : flat.Matches before board)
    (hports : PortsAnswer flat.portValue (program.cycles board)) : (program.run flat).1 = (program.run board).1 ∧
      (program.cycles flat).map Prod.snd = (program.cycles board).map Prod.snd ∧
      (program.run flat).2.Matches true (program.run board).2 := by
  induction program generalizing before flat board with
  | done result => exact ⟨rfl, rfl, nofun, hmatches.ram⟩
  | idle time next ih =>
    have hwaiting : FlatBus.Matches before (Bus.idle time flat) (Bus.idle time board) :=
      ⟨hmatches.unwritten, hmatches.ram⟩
    obtain ⟨hresult, hcycles, hlast⟩ := ih h hwaiting hports.tail
    exact ⟨hresult, congrArg (Cycle.idle time :: ·) hcycles, hlast⟩
  | contend address time next ih =>
    have hwaiting : FlatBus.Matches before (Bus.contend address time flat) (Bus.contend address time board) :=
      ⟨hmatches.unwritten, hmatches.ram⟩
    obtain ⟨hresult, hcycles, hlast⟩ := ih h hwaiting hports.tail
    exact ⟨hresult, congrArg (Cycle.contend address time :: ·) hcycles, hlast⟩
  | peek address next ih =>
    -- Nothing has been written yet, so that the ROM reads alike as well.
    have hbyte : (Bus.peek address flat : UInt8) = Bus.peek address board :=
      congrArg (fun memory => memory.get address) (hmatches.unwritten h.1)
    have hnext := ih _ (h.2 (Bus.peek address board)) hmatches hports.tail
    rw [← hbyte] at hnext
    obtain ⟨hresult, hcycles, hlast⟩ := hnext
    simp only [run, cycles, List.map_cons]
    rw [← hbyte]
    exact ⟨hresult, congrArg (Cycle.peek address :: ·) hcycles, hlast⟩
  | poke address value next ih =>
    obtain ⟨hresult, hcycles, hlast⟩ := ih h (hmatches.poke address value) hports.tail
    exact ⟨hresult, congrArg (Cycle.poke address value :: ·) hcycles, hlast⟩
  | input port next ih =>
    have hanswer : (Bus.input port board).1 = flat.portValue := hports _ _ _ List.mem_cons_self
    have hread : FlatBus.Matches before (Bus.input port flat).2 (Bus.input port board).2 :=
      ⟨hmatches.unwritten, hmatches.ram⟩
    have hnext := ih _ (h (Bus.input port board).1) hread hports.tail
    obtain ⟨hresult, hcycles, hlast⟩ := hnext
    simp only [run, cycles, List.map_cons]
    rw [hanswer] at hresult hcycles hlast ⊢
    exact ⟨hresult, congrArg (Cycle.input port flat.portValue :: ·) hcycles, hlast⟩
  | output port value next ih =>
    have hwritten : FlatBus.Matches before (Bus.output port value flat) (Bus.output port value board) :=
      ⟨hmatches.unwritten, hmatches.ram⟩
    obtain ⟨hresult, hcycles, hlast⟩ := ih h hwritten hports.tail
    exact ⟨hresult, congrArg (Cycle.output port value :: ·) hcycles, hlast⟩

/-! ## Programs without ports and writes to the ROM -/

/-- A cycle that neither reads a port nor writes to the ROM. -/
def Cycle.Plain : Cycle → Prop
  | .input _ _ => False
  | .poke address _ => Memory.isRom address = false
  | _ => True

instance : DecidablePred Cycle.Plain
  | .input _ _ => isFalse id
  | .poke address _ => inferInstanceAs (Decidable (Memory.isRom address = false))
  | .idle _ | .contend _ _ | .peek _ | .output _ _ => isTrue trivial

/-- Every plain cycle answers the same on two related buses and keeps them related. -/
structure MirrorsPlain [Bus β] [Bus γ] (related : β → γ → Prop) : Prop where
  idle : ∀ {bus other} time, related bus other → related (Bus.idle time bus) (Bus.idle time other)
  contend : ∀ {bus other} address time, related bus other →
    related (Bus.contend address time bus) (Bus.contend address time other)
  peek : ∀ {bus other} address, related bus other → Bus.peek address bus = Bus.peek address other
  poke : ∀ {bus other} address value, Memory.isRom address = false → related bus other →
    related (Bus.poke address value bus) (Bus.poke address value other)
  output : ∀ {bus other} port value, related bus other →
    related (Bus.output port value bus) (Bus.output port value other)

theorem MirrorsPlain.flip [Bus β] [Bus γ] {related : β → γ → Prop} (mirrors : MirrorsPlain related) :
    MirrorsPlain fun other bus => related bus other where
  idle time h := mirrors.idle time h
  contend address time h := mirrors.contend address time h
  peek address h := (mirrors.peek address h).symm
  poke address value hram h := mirrors.poke address value hram h
  output port value h := mirrors.output port value h

/-- A program with plain cycles gives the same result on related buses and keeps them related. -/
theorem MirrorsPlain.run [Bus β] [Bus γ] {related : β → γ → Prop} (mirrors : MirrorsPlain related)
    (program : BusProgram α) {bus : β} {other : γ} (h : related bus other)
    (plain : ∀ cycle ∈ program.cycles bus, cycle.2.Plain) :
    (program.run bus).1 = (program.run other).1 ∧ related (program.run bus).2 (program.run other).2 := by
  induction program generalizing bus other with
  | done result => exact ⟨rfl, h⟩
  | idle time next ih => exact ih (mirrors.idle time h) fun cycle hmem => plain cycle (List.mem_cons_of_mem _ hmem)
  | contend address time next ih =>
    exact ih (mirrors.contend address time h) fun cycle hmem => plain cycle (List.mem_cons_of_mem _ hmem)
  | peek address next ih =>
    simp only [BusProgram.run]
    rw [← mirrors.peek address h]
    exact ih _ h fun cycle hmem => plain cycle (List.mem_cons_of_mem _ hmem)
  | poke address value next ih =>
    have hram : Memory.isRom address = false := plain _ List.mem_cons_self
    exact ih (mirrors.poke address value hram h) fun cycle hmem => plain cycle (List.mem_cons_of_mem _ hmem)
  | input port next ih => exact (plain _ List.mem_cons_self).elim
  | output port value next ih =>
    exact ih (mirrors.output port value h) fun cycle hmem => plain cycle (List.mem_cons_of_mem _ hmem)

/-- Equal memories stay equal as long as nothing is written to the ROM. -/
theorem Board.mirrorsPlain_flat :
    MirrorsPlain fun (board : Board) (flat : FlatBus) => flat.memory = board.memory where
  idle time h := h
  contend address time h := h
  peek address h := congrArg (fun memory => memory.get address) h.symm
  poke {board flat} address value hram h := by
    change flat.memory.set address value = (board.poke address value).memory
    rw [memory_poke, Memory.write, if_neg (by rw [hram]; exact Bool.false_ne_true), h]
  output port value h := h

/-! ## Instructions -/

namespace Board

/-- An instruction does the same on the main board and on a flat bus that holds the same memory and answers as the ports do,
but the board's ROM stays as it is; the board's clock runs on by the waits longer, not at all where no access that can wait
begins while screen bytes are fetched. An access to a port may ask for a wait several times, so that the times meant are those at
which waits are looked up (`BusProgram.lookups`). Some instructions that neither read a port nor write to the ROM do the same. -/
theorem step_refines_flat (cpu : Cpu) {flat : FlatBus} {board : Board} (h : flat.memory = board.memory) :
    (PortsAnswer flat.portValue (cpu.step.cycles board) →
      let onFlat := cpu.step.run flat
      let onBoard := cpu.step.run board
      onBoard.1 = onFlat.1 ∧
      (∀ a, onBoard.2.memory.get a = if Memory.isRom a then board.memory.get a else onFlat.2.memory.get a) ∧
      ∃ cost, onFlat.2.clock = flat.clock + cost ∧
        onBoard.2.clock = board.clock + cost + Ula.waits (cpu.step.lookups board) ∧
        ((∀ time ∈ cpu.step.lookups board, ¬ Ula.Fetches time) → onBoard.2.clock = board.clock + cost)) ∧
    ∀ count, (∀ cycle ∈ (cpu.steps count).cycles board, cycle.2.Plain) ∨
        (∀ cycle ∈ (cpu.steps count).cycles flat, cycle.2.Plain) →
      (cpu.stepMany count board).1 = (cpu.stepMany count flat).1 ∧
      (cpu.stepMany count board).2.memory = (cpu.stepMany count flat).2.memory := by
  refine ⟨fun hports => ?_, fun count plain => ?_⟩
  · intro onFlat onBoard
    obtain ⟨hresult, hcycles, hmatches⟩ := cpu.orderly_step.run_flat (FlatBus.matches_of_eq h false) hports
    have htime : cpu.step.time flat = cpu.step.time board := by
      have hsum := congrArg (fun cycles => (cycles.map Cycle.time).sum) hcycles
      simp only [List.map_map] at hsum
      exact hsum
    have hclock : onBoard.2.clock = board.clock + cpu.step.time board + Ula.waits (cpu.step.lookups board) :=
      cpu.step.board_clock_run board
    refine ⟨hresult.symm, fun a => ?_, cpu.step.time board, ?_, hclock, fun hfree => ?_⟩
    · by_cases hrom : Memory.isRom a = true
      · rw [if_pos hrom]
        exact (keeps_rom board.memory).run cpu.step (fun _ _ => rfl) a hrom
      · rw [if_neg hrom]
        exact (hmatches.ram a (eq_false_of_ne_true hrom)).symm
    · rw [← htime]
      exact cpu.step.flat_clock_run flat
    · rw [hclock, Ula.waits_of_not_fetches hfree, Nat.add_zero]
  · rw [← Cpu.run_steps, ← Cpu.run_steps]
    rcases plain with plain | plain
    · obtain ⟨hresult, hmemory⟩ := mirrorsPlain_flat.run (cpu.steps count) h plain
      exact ⟨hresult, hmemory.symm⟩
    · obtain ⟨hresult, hmemory⟩ := mirrorsPlain_flat.flip.run (cpu.steps count) h plain
      exact ⟨hresult.symm, hmemory.symm⟩

/-! `IN A,(FE)` with `40` in the accumulator, just before the first screen line: the address of its port looks like shared
memory, so that it waits three T-states. -/

/-- A memory with two bytes of program. -/
def twoBytes (first second : UInt8) : Memory := (Memory.blank.set 0x8000 first).set 0x8001 second

theorem get_twoBytes (first second : UInt8) :
    (twoBytes first second).get 0x8000 = first ∧ (twoBytes first second).get 0x8001 = second := by
  refine ⟨?_, Memory.get_set_self _ _ _⟩
  rw [twoBytes, Memory.get_set_of_ne _ _ (by decide), Memory.get_set_self]

/-- The cycles of `IN A,(n)` after its opcode. -/
theorem cycles_inputAccumulator (cpu : Cpu) (board : Board) : (Instruction.inputAccumulator.execute cpu).cycles board =
    [(board.clock, .contend cpu.regs.pc 3), (Ula.access cpu.regs.pc 3 board.clock, .peek cpu.regs.pc),
      (Ula.access cpu.regs.pc 3 board.clock, .input (Word.ofBytes cpu.regs.a (board.memory.get cpu.regs.pc))
        (board.ports.answer (Word.ofBytes cpu.regs.a (board.memory.get cpu.regs.pc))))] := rfl

def inputCpu : Cpu := { regs := { a := 0x40, pc := 0x8000 } }

def inputBoard : Board := { memory := twoBytes 0xDB 0xFE, clock := 14331 }

theorem cycles_inputBoard : inputCpu.step.cycles inputBoard =
    [(14331, .contend 0x8000 4), (14335, .peek 0x8000), (14335, .contend 0x8001 3), (14338, .peek 0x8001),
      (14338, .input 0x40FE 0xFF)] := by
  have hop : inputBoard.memory.get inputCpu.regs.pc = 0xDB := (get_twoBytes _ _).1
  have hport : inputBoard.memory.get inputCpu.fetched.regs.pc = 0xFE := (get_twoBytes _ _).2
  have hdecode : Decode.base (inputBoard.memory.get inputCpu.regs.pc) = .run .inputAccumulator := by
    rw [hop]
    rfl
  rw [Cpu.cycles_step inputCpu inputBoard .inputAccumulator hdecode, cycles_inputAccumulator]
  simp only [hport]
  decide

/-! `LD (HL),A`, which writes to RAM. -/

def storeCpu : Cpu := { regs := { a := 5, h := 0x90, pc := 0x8000 } }

def storeBoard : Board := { memory := twoBytes 0x77 0 }

theorem cycles_storeBoard : (storeCpu.steps 1).cycles storeBoard =
    [(0, .contend 0x8000 4), (4, .peek 0x8000), (4, .contend 0x9000 3), (7, .poke 0x9000 5)] := by
  have hop : storeBoard.memory.get storeCpu.regs.pc = 0x77 := (get_twoBytes _ _).1
  have hdecode : Decode.base (storeBoard.memory.get storeCpu.regs.pc) = .run (.load (.memory .hl) (.reg .a)) := by
    rw [hop]
    rfl
  rw [Cpu.steps, cycles_bind, Cpu.cycles_step storeCpu storeBoard _ hdecode]
  rfl

theorem step_refines_flat_fixed :
    (PortsAnswer 0xFF (inputCpu.step.cycles inputBoard) ∧
      (inputCpu.step.run inputBoard).1 = (inputCpu.step.run { memory := twoBytes 0xDB 0xFE : FlatBus }).1 ∧
      (inputCpu.step.run inputBoard).2.clock = 14345) ∧
    (∀ cycle ∈ (storeCpu.steps 1).cycles storeBoard, cycle.2.Plain) ∧
    (storeCpu.stepMany 1 storeBoard).2.memory = (storeCpu.stepMany 1 ({ memory := twoBytes 0x77 0 } : FlatBus)).2.memory := by
  have hports : PortsAnswer 0xFF (inputCpu.step.cycles inputBoard) := by
    intro start port answer hmem
    rw [cycles_inputBoard] at hmem
    simp only [List.mem_cons, List.not_mem_nil, or_false, Prod.mk.injEq, reduceCtorEq, and_false, false_or,
      Cycle.input.injEq] at hmem
    exact hmem.2.2
  have hplain : ∀ cycle ∈ (storeCpu.steps 1).cycles storeBoard, cycle.2.Plain := by
    rw [cycles_storeBoard]
    decide
  have hinputMemory : ({ memory := twoBytes 0xDB 0xFE } : FlatBus).memory = inputBoard.memory := rfl
  have hstoreMemory : ({ memory := twoBytes 0x77 0 } : FlatBus).memory = storeBoard.memory := rfl
  have hinput := (step_refines_flat inputCpu hinputMemory).1 hports
  have hstore := (step_refines_flat storeCpu hstoreMemory).2 1 (Or.inl hplain)
  have hclock : (inputCpu.step.run inputBoard).2.clock = 14345 := by
    rw [inputCpu.step.board_clock_run, BusProgram.time, BusProgram.lookups, cycles_inputBoard]
    rfl
  exact ⟨⟨hports, hinput.1, hclock⟩, hplain, hstore.2⟩

end Board

end ZxSpectrum
