import ZxSpectrum.Proofs.BusCycles
import ZxSpectrum.Proofs.ScreenLayout

/-!
# Single instructions on the main board

An instruction without prefixes is fetched, then executed (`run_step`). An index prefix before another one has no effect but
time, so that an instruction has no highest cost: after a chain of `n` prefixes it begins `4 * n` T-states later
(`run_step_prefixes`).
-/

namespace ZxSpectrum.Cpu

open BusProgram

/-- The processor after the fetch of an opcode byte. -/
def fetched (cpu : Cpu) : Cpu := { cpu with regs := { cpu.regs with pc := cpu.regs.pc + 1 }.countRefresh }

theorem fetched_pc_add (cpu : Cpu) (n : Nat) :
    cpu.fetched.regs.pc + UInt16.ofNat n = cpu.regs.pc + UInt16.ofNat (n + 1) := by
  change cpu.regs.pc + 1 + UInt16.ofNat n = _
  rw [UInt16.ofNat_add, UInt16.add_assoc, UInt16.add_comm 1]
  rfl

/-- A fetch on the main board. -/
theorem run_fetch (cpu : Cpu) (board : Board) : cpu.fetch.run board =
    ((board.memory.get cpu.regs.pc, cpu.fetched), { board with clock := Ula.access cpu.regs.pc 4 board.clock }) := rfl

/-- The program from the fetch of the next opcode byte in a page on. -/
def resume (cpu : Cpu) (fuel : Nat) (page : Page) : BusProgram Cpu := do
  let (opcode, cpu) ← cpu.fetch
  dispatch fuel page opcode cpu

theorem run_resume (cpu : Cpu) (fuel : Nat) (page : Page) (board : Board) : (cpu.resume fuel page).run board =
    (dispatch fuel page (board.memory.get cpu.regs.pc) cpu.fetched).run
      { board with clock := Ula.access cpu.regs.pc 4 board.clock } := by
  rw [resume, run_bind, run_fetch]

theorem cycles_resume (cpu : Cpu) (fuel : Nat) (page : Page) (board : Board) : (cpu.resume fuel page).cycles board =
    (board.clock, .contend cpu.regs.pc 4) :: (Ula.access cpu.regs.pc 4 board.clock, .peek cpu.regs.pc) ::
      (dispatch fuel page (board.memory.get cpu.regs.pc) cpu.fetched).cycles
        { board with clock := Ula.access cpu.regs.pc 4 board.clock } := rfl

/-- An instruction whose opcode is a single byte of its page. -/
theorem run_resume_of_run {cpu : Cpu} (page : Page) {board : Board} {instruction : Instruction} (fuel : Nat)
    (h : page.decode (board.memory.get cpu.regs.pc) = .run instruction) : (cpu.resume (fuel + 1) page).run board =
      (instruction.execute cpu.fetched).run { board with clock := Ula.access cpu.regs.pc 4 board.clock } := by
  rw [run_resume, dispatch, h]

/-- An instruction without prefixes. -/
theorem run_step (cpu : Cpu) (board : Board) (instruction : Instruction)
    (h : Decode.base (board.memory.get cpu.regs.pc) = .run instruction) : cpu.step.run board =
      (instruction.execute cpu.fetched).run { board with clock := Ula.access cpu.regs.pc 4 board.clock } :=
  run_resume_of_run .base 131079 h

theorem cycles_step (cpu : Cpu) (board : Board) (instruction : Instruction)
    (h : Decode.base (board.memory.get cpu.regs.pc) = .run instruction) : cpu.step.cycles board =
      (board.clock, .contend cpu.regs.pc 4) :: (Ula.access cpu.regs.pc 4 board.clock, .peek cpu.regs.pc) ::
        (instruction.execute cpu.fetched).cycles { board with clock := Ula.access cpu.regs.pc 4 board.clock } := by
  have hdispatch : dispatch (131079 + 1) .base (board.memory.get cpu.regs.pc) cpu.fetched =
      instruction.execute cpu.fetched := by
    rw [dispatch, Page.decode, h]
  rw [← hdispatch]
  exact cycles_resume cpu (131079 + 1) .base board

/-- A byte that an index prefix does not change is executed as without the prefix. -/
theorem run_resume_again (cpu : Cpu) (board : Board) {instruction : Instruction} {i : IndexRegister} (fuel : Nat)
    (hagain : Decode.index i (board.memory.get cpu.regs.pc) = .again)
    (h : Decode.base (board.memory.get cpu.regs.pc) = .run instruction) :
    (cpu.resume (fuel + 2) (.index i)).run board =
      (instruction.execute cpu.fetched).run { board with clock := Ula.access cpu.regs.pc 4 board.clock } := by
  rw [run_resume, dispatch, Page.decode, hagain]
  change (dispatch (fuel + 1) .base _ _).run _ = _
  rw [dispatch, Page.decode, h]

/-- One prefix of a chain. -/
theorem run_resume_prefix {cpu : Cpu} {board : Board} (fuel : Nat) (h : board.memory.get cpu.regs.pc = 0xDD) :
    (cpu.resume (fuel + 2) (.index .ix)).run board = (cpu.fetched.resume fuel (.index .ix)).run
      { board with clock := Ula.access cpu.regs.pc 4 board.clock } := by
  rw [run_resume, h]
  rfl

/-- An access to the upper half of memory never waits. -/
theorem access_of_le {address : UInt16} (h : 0x8000 ≤ address.toNat) (time clock : Nat) :
    Ula.access address time clock = clock + time := by
  have hfree : ¬ Ula.isContended address = true := by
    rw [Ula.isContended_iff]
    omega
  exact if_neg hfree

/-- A chain of prefixes in the upper half of memory takes four T-states for each of them. -/
theorem run_resume_prefixes (fuel : Nat) : ∀ (n : Nat) (cpu : Cpu) (board : Board),
    (∀ k < n, board.memory.get (cpu.regs.pc + UInt16.ofNat k) = 0xDD ∧
      0x8000 ≤ (cpu.regs.pc + UInt16.ofNat k).toNat) →
    ∃ r, (cpu.resume (fuel + 2 * n) (.index .ix)).run board =
      ({ cpu with regs.pc := cpu.regs.pc + UInt16.ofNat n, regs.r := r }.resume fuel (.index .ix)).run
        { board with clock := board.clock + 4 * n } := by
  intro n
  induction n with
  | zero =>
    intro cpu board _
    refine ⟨cpu.regs.r, ?_⟩
    rw [show UInt16.ofNat 0 = 0 from rfl, UInt16.add_zero]
    rfl
  | succ n ih =>
    intro cpu board hchain
    have hzero := hchain 0 (Nat.succ_pos n)
    rw [show UInt16.ofNat 0 = 0 from rfl, UInt16.add_zero] at hzero
    have hshift : ∀ k, cpu.fetched.regs.pc + UInt16.ofNat k = cpu.regs.pc + UInt16.ofNat (k + 1) := fetched_pc_add cpu
    have hclock := access_of_le hzero.2 4 board.clock
    rw [show fuel + 2 * (n + 1) = (fuel + 2 * n) + 2 by omega, run_resume_prefix _ hzero.1, hclock]
    obtain ⟨r, hrun⟩ := ih cpu.fetched { board with clock := board.clock + 4 } fun k hk => by
      rw [hshift]
      exact hchain (k + 1) (Nat.succ_lt_succ hk)
    refine ⟨r, ?_⟩
    rw [hrun, hshift, show board.clock + 4 + 4 * n = board.clock + 4 * (n + 1) by omega]
    rfl

/-- An instruction after a chain of prefixes begins later by four T-states for each of them. The instruction is one that the
prefix does not change, and `place` the address of its opcode. -/
theorem run_step_prefixes {cpu : Cpu} {board : Board} (instruction : Instruction) {n : Nat} {place : UInt16}
    (hn : n < 65536) (hplace : cpu.regs.pc + UInt16.ofNat (n + 1) = place)
    (hchain : ∀ k ≤ n, board.memory.get (cpu.regs.pc + UInt16.ofNat k) = 0xDD ∧
      0x8000 ≤ (cpu.regs.pc + UInt16.ofNat k).toNat)
    (hagain : Decode.index .ix (board.memory.get place) = .again)
    (hrun : Decode.base (board.memory.get place) = .run instruction) :
    ∃ r, cpu.step.run board = (instruction.execute { cpu with regs.pc := place + 1, regs.r := r }).run
      { board with clock := Ula.access place 4 (board.clock + 4 * (n + 1)) } := by
  have hzero := hchain 0 (Nat.zero_le n)
  rw [show UInt16.ofNat 0 = 0 from rfl, UInt16.add_zero] at hzero
  have hshift : ∀ k, cpu.fetched.regs.pc + UInt16.ofNat k = cpu.regs.pc + UInt16.ofNat (k + 1) := fetched_pc_add cpu
  have hclock := access_of_le hzero.2 4 board.clock
  have hfirst : cpu.step.run board =
      (cpu.fetched.resume 131079 (.index .ix)).run { board with clock := board.clock + 4 } := by
    change (cpu.resume 131080 .base).run board = _
    rw [run_resume, hzero.1, hclock]
    rfl
  obtain ⟨spare, hspare⟩ : ∃ spare, 131079 = spare + 2 + 2 * n := ⟨131077 - 2 * n, by omega⟩
  obtain ⟨r, hchained⟩ := run_resume_prefixes (spare + 2) n cpu.fetched { board with clock := board.clock + 4 }
    fun k hk => by
      rw [hshift]
      exact hchain (k + 1) hk
  rw [← hspare, hshift, hplace] at hchained
  have hlast := run_resume_again { cpu with regs.pc := place, regs.r := r }
    { board with clock := board.clock + 4 * (n + 1) } spare hagain hrun
  refine ⟨(r + 1) &&& 0x7F, ?_⟩
  rw [hfirst, hchained, show board.clock + 4 + 4 * n = board.clock + 4 * (n + 1) by omega]
  exact hlast

/-! ## Instructions in the upper half of memory -/

/-- A write to an even port whose address is no shared memory, at a time when nothing waits. -/
theorem output_of_free {port : UInt16} (value : UInt8) (board : Board) (hport : Ula.isContended port = false)
    (hula : Ula.isUlaPort port = true) (hfree : Ula.delay (board.clock + 1) = 0) : Bus.output port value board =
      { board with clock := board.clock + 4, ports := board.ports.write port value (board.clock + 1) } := by
  have hbefore : Ula.beforePort port board.clock = board.clock + 1 := by
    rw [Ula.beforePort, Ula.access, hport]
    rfl
  have hafter : Ula.afterPort port (board.clock + 1) = board.clock + 4 := by
    rw [Ula.afterPort, if_pos hula, Ula.contend, hfree]
  change ({ board with
    clock := Ula.afterPort port (Ula.beforePort port board.clock)
    ports := board.ports.write port value (Ula.beforePort port board.clock) } : Board) = _
  rw [hbefore, hafter]

/-- `OUT (n),A` to such a port. -/
theorem run_outputAccumulator (cpu : Cpu) (board : Board) {port : UInt16} (hpc : 0x8000 ≤ cpu.regs.pc.toNat)
    (hport : Word.ofBytes cpu.regs.a (board.memory.get cpu.regs.pc) = port) (hcontended : Ula.isContended port = false)
    (hula : Ula.isUlaPort port = true) (hfree : Ula.delay (board.clock + 4) = 0) :
    (Instruction.outputAccumulator.execute cpu).run board = (cpu.skip 1,
      { board with clock := board.clock + 7, ports := board.ports.write port cpu.regs.a (board.clock + 4) }) := by
  have hout := output_of_free cpu.regs.a { board with clock := board.clock + 3 } hcontended hula hfree
  subst hport
  change (cpu.skip 1, Bus.output (Word.ofBytes cpu.regs.a (board.memory.get cpu.regs.pc)) cpu.regs.a
    { board with clock := Ula.access cpu.regs.pc 3 board.clock }) = _
  rw [access_of_le hpc, hout]

/-- `LD r,n` without waits. -/
theorem run_loadImmediate (cpu : Cpu) (r : Reg8) (board : Board) {value : UInt8} (hpc : 0x8000 ≤ cpu.regs.pc.toNat)
    (hvalue : board.memory.get cpu.regs.pc = value) : ((Instruction.loadImmediate (.reg r)).execute cpu).run board =
      ((cpu.skip 1).setReg r value, { board with clock := board.clock + 3 }) := by
  rw [← hvalue, ← access_of_le hpc 3 board.clock]
  rfl

/-- As long as the clock has not reached the limit, execution goes on with one instruction more. -/
theorem runFor_succ {limit fuel : Nat} {cpu : Cpu} {board : Board} (h : board.clock < limit) :
    cpu.runFor limit (fuel + 1) board =
      (cpu.step.run board).1.runFor limit fuel (cpu.step.run board).2 := by
  rw [runFor]
  exact if_pos h

/-- Without interrupts nothing happens at the start of a frame. -/
theorem run_interrupt_of_disabled {cpu : Cpu} (h : cpu.regs.iff1 = false) (board : Board) :
    cpu.interrupt.run board = ((false, cpu), board) := by
  unfold interrupt
  rw [h]
  rfl

end ZxSpectrum.Cpu
