import ZxSpectrum.Proofs.Frames
import ZxSpectrum.Proofs.LatchAndHalt

/-!
# Saving and restoring

A snapshot holds neither the halt flag nor the latch. Two machines with the same registers, memory, clock and inputs
(`Twins`) do the same, frame by frame, as long as the halt flag tells nothing (`Twins.after`): the latch never does, and
the halt flag only at an interrupt. So a machine that is saved and reloaded runs on as it would have (`visible_reload`),
unless it waits in a `HALT` for an interrupt and the return address matters (`LosesHalt`): once reloaded it returns to the
`HALT`, and not behind it.
-/

namespace ZxSpectrum

open BusProgram

/-! ## Boards that a program cannot tell apart -/

namespace Ports

/-- What a program can read of the ports. -/
def inputs (ports : Ports) : Keyboard × UInt8 × Option Bool := (ports.keyboard, ports.joystick, ports.tapeEar)

theorem answer_of_inputs {ports other : Ports} (h : ports.inputs = other.inputs) (port : UInt16) :
    ports.answer port = other.answer port := by
  obtain ⟨hkeyboard, hjoystick, hear⟩ : ports.keyboard = other.keyboard ∧ ports.joystick = other.joystick ∧
      ports.tapeEar = other.tapeEar := by simpa [inputs] using h
  simp only [answer, ulaByte, hkeyboard, hjoystick, hear]

theorem inputs_read (ports : Ports) (port : UInt16) (time : Nat) : (ports.read port time).2.inputs = ports.inputs := by
  simp only [read, noteRead]
  repeat' split
  all_goals rfl

theorem inputs_write (ports : Ports) (port : UInt16) (value : UInt8) (time : Nat) :
    (ports.write port value time).inputs = ports.inputs := by
  unfold write
  split <;> rfl

end Ports

namespace Board

/-- Memory, clock and inputs are the same. -/
structure Alike (board other : Board) : Prop where
  memory : board.memory = other.memory
  clock : board.clock = other.clock
  inputs : board.ports.inputs = other.ports.inputs

/-- No cycle tells such boards apart. -/
theorem mirrors_alike : Mirrors Alike where
  idle time h := ⟨h.memory, congrArg (· + time) h.clock, h.inputs⟩
  contend address time h := ⟨h.memory, congrArg (Ula.access address time) h.clock, h.inputs⟩
  peek address h := congrArg (Memory.get · address) h.memory
  poke {board other} address value h := by
    obtain ⟨hclock, hports⟩ := clock_poke address value board
    obtain ⟨hclock', hports'⟩ := clock_poke address value other
    refine ⟨?_, ?_, ?_⟩
    · change (board.poke address value).memory = (other.poke address value).memory
      rw [memory_poke, memory_poke, h.memory]
    · exact hclock.trans (h.clock.trans hclock'.symm)
    · change (board.poke address value).ports.inputs = (other.poke address value).ports.inputs
      rw [hports, hports', h.inputs]
  answer port h := Ports.answer_of_inputs h.inputs port
  input port h := ⟨h.memory, congrArg (fun clock => Ula.afterPort port (Ula.beforePort port clock)) h.clock,
    (Ports.inputs_read _ port _).trans (h.inputs.trans (Ports.inputs_read _ port _).symm)⟩
  output port value h := ⟨h.memory, congrArg (fun clock => Ula.afterPort port (Ula.beforePort port clock)) h.clock,
    (Ports.inputs_write _ port value _).trans (h.inputs.trans (Ports.inputs_write _ port value _).symm)⟩

/-- A program has no influence on the inputs. -/
theorem keeps_inputs (inputs : Keyboard × UInt8 × Option Bool) : Keeps fun board : Board => board.ports.inputs = inputs where
  idle _ h := h
  contend _ _ h := h
  poke address value h := (congrArg Ports.inputs (clock_poke address value _).2).trans h
  input port h := (Ports.inputs_read _ port _).trans h
  output port value h := (Ports.inputs_write _ port value _).trans h

end Board

/-! ## Processors that do the same -/

namespace Cpu

theorem relatch_eq_iff (cpu other : Cpu) :
    cpu.relatch 0 = other.relatch 0 ↔ cpu.regs = other.regs ∧ cpu.halted = other.halted := by
  cases cpu
  cases other
  simp [relatch]

/-- Processors that differ in the latch alone execute the same instruction. -/
theorem step_of_relatch {cpu other : Cpu} (h : cpu.relatch 0 = other.relatch 0) :
    relatch 0 <$> cpu.step = relatch 0 <$> other.step := by
  rw [← step_relatch 0 cpu, h, step_relatch]

/-- They take an interrupt alike. -/
theorem interrupt_of_relatch {cpu other : Cpu} (h : cpu.relatch 0 = other.relatch 0) :
    Prod.map id (relatch 0) <$> cpu.interrupt = Prod.map id (relatch 0) <$> other.interrupt := by
  rw [← interrupt_relatch, h, interrupt_relatch]

end Cpu

/-- Processors with their boards that do the same. The halt flags may differ where only an interrupt could tell, and none is
enabled: at a `HALT`, which sets the flag. -/
structure Twins (one two : Cpu × Board) : Prop where
  regs : one.1.regs = two.1.regs
  halted : one.1.halted = two.1.halted ∨ one.1.regs.iff1 = false ∧ one.2.memory.get one.1.regs.pc = 0x76
  board : one.2.Alike two.2

namespace Twins

variable {cpu other : Cpu} {board twin : Board}

/-- They execute the same instruction. -/
theorem step (twins : Twins (cpu, board) (other, twin)) : Twins (cpu.step.run board) (other.step.run twin) := by
  obtain ⟨hregs, hhalted | ⟨hiff, hhalt⟩, alike⟩ := twins
  · obtain ⟨hresult, halike⟩ := Board.mirrors_alike.run_map
      (Cpu.step_of_relatch ((Cpu.relatch_eq_iff cpu other).mpr ⟨hregs, hhalted⟩)) alike
    obtain ⟨hregs, hhalted⟩ := (Cpu.relatch_eq_iff _ _).mp hresult
    exact ⟨hregs, .inl hhalted, halike⟩
  · have hhalt' : twin.memory.get other.regs.pc = 0x76 := by
      rw [← alike.memory, ← hregs]
      exact hhalt
    rw [Cpu.run_step_halt hhalt, Cpu.run_step_halt hhalt']
    refine ⟨congrArg Registers.countRefresh hregs, .inl rfl, alike.memory, ?_, alike.inputs⟩
    change Ula.access cpu.regs.pc 4 board.clock = Ula.access other.regs.pc 4 twin.clock
    rw [hregs, alike.clock]

/-- They execute the same instructions. -/
theorem runFor (limit fuel : Nat) : ∀ {cpu other : Cpu} {board twin : Board}, Twins (cpu, board) (other, twin) →
    Twins (cpu.runFor limit fuel board) (other.runFor limit fuel twin) := by
  induction fuel with
  | zero => exact fun twins => twins
  | succ fuel ih =>
    intro cpu other board twin twins
    have hclock : Bus.clock board = Bus.clock twin := twins.board.clock
    rw [Cpu.runFor, Cpu.runFor, ← hclock]
    by_cases running : Bus.clock board < limit
    · rw [if_pos running, if_pos running]
      exact ih twins.step
    · rw [if_neg running, if_neg running]
      exact twins

/-- They take an interrupt alike. -/
theorem interrupt (twins : Twins (cpu, board) (other, twin)) :
    Twins ((cpu.interrupt.run board).1.2, (cpu.interrupt.run board).2)
      ((other.interrupt.run twin).1.2, (other.interrupt.run twin).2) := by
  obtain ⟨hregs, hhalted | ⟨hiff, hhalt⟩, alike⟩ := twins
  · obtain ⟨hresult, halike⟩ := Board.mirrors_alike.run_map
      (Cpu.interrupt_of_relatch ((Cpu.relatch_eq_iff cpu other).mpr ⟨hregs, hhalted⟩)) alike
    obtain ⟨hregs, hhalted⟩ := (Cpu.relatch_eq_iff _ _).mp (congrArg Prod.snd hresult)
    exact ⟨hregs, .inl hhalted, halike⟩
  · have hiff' : other.regs.iff1 = false := hregs ▸ hiff
    rw [Cpu.run_interrupt_of_disabled hiff, Cpu.run_interrupt_of_disabled hiff']
    exact ⟨hregs, .inr ⟨hiff, hhalt⟩, alike⟩

end Twins

/-! ## The return address of an interrupt -/

namespace Cpu

/-- The processor that has pushed the return address of an interrupt. -/
def pushed (cpu : Cpu) : Cpu :=
  { cpu.interrupted with
    regs := { cpu.interrupted.regs with sp := cpu.interrupted.regs.sp - 2 }.countRefresh }

/-- The rest of the acknowledgement of an interrupt. -/
def enter (cpu : Cpu) : BusProgram (Bool × Cpu) := do
  let target ← cpu.interruptTarget
  wait interruptLength
  pure (true, cpu.jumpTo target)

/-- An interrupt pushes the program counter, then goes on at its target. -/
theorem run_interrupt_of_enabled {cpu : Cpu} (h : cpu.regs.iff1 = true) (board : Board) :
    cpu.interrupt.run board =
      cpu.pushed.enter.run ((cpu.interrupted.pushWord cpu.interrupted.regs.pc).run board).2 := by
  rw [interrupt_of_enabled h, run_bind]
  rfl

theorem memory_pushWord (cpu : Cpu) (value : UInt16) (board : Board) :
    ((cpu.pushWord value).run board).2.memory = board.memory.push cpu.regs.sp value := by
  change (Board.poke _ _ _).memory = _
  rw [Board.memory_poke]
  change (Board.poke _ _ _).memory.write _ _ = _
  rw [Board.memory_poke]
  rfl

theorem memory_enter (cpu : Cpu) (board : Board) : (cpu.enter.run board).2.memory = board.memory := by
  simp only [enter, run_bind, interruptTarget]
  split <;> rfl

/-- Where a service routine begins: in mode 2 at the word that the interrupt register points to. -/
def routine (cpu : Cpu) (memory : Memory) : UInt16 :=
  let pointer := Word.ofBytes cpu.regs.i 0xFF
  if cpu.regs.im = 2 then Word.ofBytes (memory.get (pointer + 1)) (memory.get pointer) else 0x0038

theorem run_enter (cpu : Cpu) (board : Board) : (cpu.enter.run board).1.2 = cpu.jumpTo (cpu.routine board.memory) := by
  rw [enter, interruptTarget, routine]
  by_cases hmode : cpu.regs.im = 2
  · rw [if_pos (beq_iff_eq.mpr hmode), if_pos hmode]
    rfl
  · rw [if_neg fun h => hmode (beq_iff_eq.mp h), if_neg hmode]
    rfl

/-- What an interrupt makes of memory. -/
theorem memory_interrupt {cpu : Cpu} (h : cpu.regs.iff1 = true) (board : Board) :
    (cpu.interrupt.run board).2.memory = board.memory.push cpu.interrupted.regs.sp cpu.interrupted.regs.pc := by
  rw [run_interrupt_of_enabled h, memory_enter, memory_pushWord]

theorem clock_pushWord (cpu : Cpu) (value : UInt16) (board : Board) : ((cpu.pushWord value).run board).2.clock =
    Ula.access (cpu.regs.sp - 2) 3 (Ula.access (cpu.regs.sp - 1) 3 board.clock) := by
  change (Board.poke _ _ _).clock = _
  rw [(Board.clock_poke _ _ _).1]
  change Ula.access _ _ (Board.poke _ _ _).clock = _
  rw [(Board.clock_poke _ _ _).1]
  rfl

/-- Boards alike stay so when different words are pushed, if memory does not show the difference. -/
theorem alike_pushWord {cpu other : Cpu} {value word : UInt16} {board twin : Board} (alike : board.Alike twin)
    (hsp : cpu.regs.sp = other.regs.sp)
    (h : board.memory.push cpu.regs.sp value = board.memory.push cpu.regs.sp word) :
    ((cpu.pushWord value).run board).2.Alike ((other.pushWord word).run twin).2 where
  memory := by rw [memory_pushWord, memory_pushWord, h, ← hsp, alike.memory]
  clock := by rw [clock_pushWord, clock_pushWord, hsp, alike.clock]
  inputs := by
    rw [(Board.keeps_inputs board.ports.inputs).run (cpu.pushWord value) rfl,
      (Board.keeps_inputs twin.ports.inputs).run (other.pushWord word) rfl, alike.inputs]

/-- Entering the service routine forgets the program counter. -/
theorem enter_of_halted {cpu other : Cpu} (hregs : cpu.regs = other.regs) (hhalted : cpu.halted = true)
    (hrunning : other.halted = false) :
    Prod.map id (relatch 0) <$> cpu.pushed.enter = Prod.map id (relatch 0) <$> other.pushed.enter := by
  obtain ⟨regs, halted, latch⟩ := cpu
  obtain ⟨_, _, latch'⟩ := other
  subst hregs hhalted hrunning
  simp only [enter, map_bind]
  rfl

end Cpu

/-- A halted processor takes an interrupt as one that has not halted, if memory does not show the return address. -/
theorem Twins.interrupt_of_halted {cpu other : Cpu} {board twin : Board} (hregs : cpu.regs = other.regs)
    (hhalted : cpu.halted = true) (hrunning : other.halted = false) (henabled : cpu.regs.iff1 = true)
    (alike : board.Alike twin)
    (hpush : board.memory.push cpu.regs.sp (cpu.regs.pc + 1) = board.memory.push cpu.regs.sp cpu.regs.pc) :
    Twins ((cpu.interrupt.run board).1.2, (cpu.interrupt.run board).2)
      ((other.interrupt.run twin).1.2, (other.interrupt.run twin).2) := by
  have henabled' : other.regs.iff1 = true := hregs ▸ henabled
  have henter := Cpu.enter_of_halted hregs hhalted hrunning
  rw [Cpu.run_interrupt_of_enabled henabled, Cpu.run_interrupt_of_enabled henabled']
  obtain ⟨regs, halted, latch⟩ := cpu
  obtain ⟨_, _, latch'⟩ := other
  subst hregs hhalted hrunning
  obtain ⟨hresult, halike⟩ := Board.mirrors_alike.run_map henter (Cpu.alike_pushWord alike rfl hpush)
  obtain ⟨hregs, hhalted⟩ := (Cpu.relatch_eq_iff _ _).mp (congrArg Prod.snd hresult)
  exact ⟨hregs, .inl hhalted, halike⟩

/-! ## Machines -/

namespace Machine

/-- What a machine is that has run without keys, joystick and tape. -/
structure Untouched (machine : Machine) : Prop where
  rom : ∀ a, Memory.isRom a = true → machine.board.memory.get a = (Memory.ofRom machine.rom).get a
  inputs : machine.board.ports.inputs = ({}, 0, none)
  rests : machine.cpu.Rests machine.board

/-- What the program goes by, and shows: registers, memory and clock. -/
def visible (machine : Machine) : Registers × Memory × Nat :=
  (machine.cpu.regs, machine.board.memory, machine.board.clock)

/-- The machine waits in a `HALT` for an interrupt, and memory would show that this returns to the `HALT` and not behind it:
the low byte of the return address falls into RAM, or the high byte does and the low byte carries. -/
structure LosesHalt (machine : Machine) : Prop where
  halted : machine.cpu.halted = true
  enabled : machine.cpu.regs.iff1 = true
  pushed : Memory.isRom (machine.cpu.regs.sp - 2) = false ∨
    Memory.isRom (machine.cpu.regs.sp - 1) = false ∧ Word.low machine.cpu.regs.pc = 0xFF

variable {machine other : Machine}

theorem untouched_create {config : Config} (h : create config = .ok machine) : machine.Untouched := by
  obtain ⟨-, rfl⟩ := create_eq_ok_iff.mp h
  exact ⟨fun _ _ => rfl, rfl, Nat.zero_le 2, fun hhalted => absurd hhalted Bool.false_ne_true⟩

/-- A frame leaves a processor between instructions. -/
theorem rests_renderFrame (rests : machine.cpu.Rests machine.board) :
    machine.renderFrame.cpu.Rests machine.renderFrame.board := by
  have hopened : machine.cpu.Rests machine.opened := ⟨rests.im, rests.halt⟩
  have hexecuted := hopened.interrupt.runFor Ula.tstatesPerFrame
    (Ula.tstatesPerFrame - Bus.clock machine.acknowledged.2)
  exact ⟨hexecuted.im, hexecuted.halt⟩

theorem Untouched.renderFrame (untouched : machine.Untouched) : machine.renderFrame.Untouched where
  rom := executed_of_keeps (Board.keeps_rom (Memory.ofRom machine.rom)) untouched.rom
  inputs := executed_of_keeps (Board.keeps_inputs ({}, 0, none)) untouched.inputs
  rests := rests_renderFrame untouched.rests

theorem Untouched.after (untouched : machine.Untouched) (frames : Nat) : (machine.after frames).Untouched := by
  induction frames with
  | zero => exact untouched
  | succ frames ih => exact ih.renderFrame

/-- Once an interrupt is accepted alike, the rest of the frame is alike. -/
theorem twins_renderFrame (h : Twins machine.acknowledged other.acknowledged) :
    Twins (machine.renderFrame.cpu, machine.renderFrame.board) (other.renderFrame.cpu, other.renderFrame.board) := by
  have hclock : Bus.clock machine.acknowledged.2 = Bus.clock other.acknowledged.2 := h.board.clock
  have hexecuted : Twins machine.executed other.executed := by
    rw [executed, executed, Cpu.runUntil, Cpu.runUntil, hclock]
    exact h.runFor _ _
  rw [renderFrame_cpu, renderFrame_board, renderFrame_cpu, renderFrame_board]
  exact ⟨hexecuted.regs, hexecuted.halted, hexecuted.board.memory, hexecuted.board.clock, hexecuted.board.inputs⟩

/-- A frame begins alike on boards alike. -/
theorem alike_opened (alike : machine.board.Alike other.board) : machine.opened.Alike other.opened :=
  ⟨alike.memory, congrArg Ula.wrapFrame alike.clock, alike.inputs⟩

/-- Twins stay twins, frame by frame. -/
theorem twins_after (h : Twins (machine.cpu, machine.board) (other.cpu, other.board)) (frames : Nat) :
    Twins ((machine.after frames).cpu, (machine.after frames).board)
      ((other.after frames).cpu, (other.after frames).board) := by
  induction frames with
  | zero => exact h
  | succ frames ih =>
    have hopened : Twins ((machine.after frames).cpu, (machine.after frames).opened)
        ((other.after frames).cpu, (other.after frames).opened) := ⟨ih.regs, ih.halted, alike_opened ih.board⟩
    exact twins_renderFrame hopened.interrupt

theorem visible_of_alike (hregs : machine.cpu.regs = other.cpu.regs) (alike : machine.board.Alike other.board) :
    machine.visible = other.visible := by
  rw [visible, visible, hregs, alike.memory, alike.clock]

/-- Twins look the same, frame by frame. -/
theorem visible_after (h : Twins (machine.cpu, machine.board) (other.cpu, other.board)) (frames : Nat) :
    (machine.after frames).visible = (other.after frames).visible :=
  visible_of_alike (twins_after h frames).regs (twins_after h frames).board

theorem regs_restore (machine : Machine) : (machine.restore machine.makeSnapshot).cpu.regs = machine.cpu.regs := by
  rw [restore, makeSnapshot]

theorem ram_makeSnapshot (machine : Machine) : machine.makeSnapshot.ram = machine.board.memory.ram := by
  rw [makeSnapshot]

theorem clock_restore (machine : Machine) (snapshot : Snapshot) :
    (machine.restore snapshot).board.clock = snapshot.cpu.tstates := rfl

theorem inputs_restore (machine : Machine) (snapshot : Snapshot) :
    (machine.restore snapshot).board.ports.inputs = ({}, 0, machine.board.ports.tapeEar) := rfl

/-- A reload brings back all of the board that a program can tell. -/
theorem alike_restore (untouched : machine.Untouched) :
    machine.board.Alike (machine.restore machine.makeSnapshot).board where
  memory := by rw [memory_restore, ram_makeSnapshot, Memory.loadRam_ram fun a ha => (untouched.rom a ha).symm]
  clock := by rw [clock_restore, makeSnapshot]
  inputs := by
    have hear : machine.board.ports.tapeEar = none := congrArg (fun inputs => inputs.2.2) untouched.inputs
    rw [inputs_restore, untouched.inputs, hear]

/-- What a machine saves, it takes. -/
theorem problem?_makeSnapshot (untouched : machine.Untouched) : machine.makeSnapshot.problem? = none := by
  have hlength : machine.makeSnapshot.ram.length = Memory.ramSize := by
    rw [ram_makeSnapshot, Memory.length_ram]
  exact Snapshot.problem?_eq_none_iff.mpr ⟨hlength, untouched.rests.im⟩

/-- The memory that a frame's interrupt leaves. -/
theorem memory_acknowledged (h : machine.cpu.regs.iff1 = true) : machine.acknowledged.2.memory =
    machine.board.memory.push machine.cpu.interrupted.regs.sp machine.cpu.interrupted.regs.pc :=
  Cpu.memory_interrupt h machine.opened

/-- The next interrupt is accepted alike, unless the return address is lost. -/
theorem twins_acknowledged (untouched : machine.Untouched) (h : ¬ machine.LosesHalt) :
    Twins machine.acknowledged (machine.restore machine.makeSnapshot).acknowledged := by
  have alike := alike_opened (alike_restore untouched)
  by_cases hwaits : machine.cpu.halted = true ∧ machine.cpu.regs.iff1 = true
  · obtain ⟨hhalted, henabled⟩ := hwaits
    refine Twins.interrupt_of_halted rfl hhalted rfl henabled alike ?_
    rw [Memory.push_add_one_eq_iff]
    exact fun hpushed => h ⟨hhalted, henabled, hpushed⟩
  · have hflag : machine.cpu.halted = false ∨
        machine.cpu.regs.iff1 = false ∧ machine.board.memory.get machine.cpu.regs.pc = 0x76 := by
      by_cases hhalted : machine.cpu.halted = true
      · exact .inr ⟨eq_false_of_ne_true fun henabled => hwaits ⟨hhalted, henabled⟩, untouched.rests.halt hhalted⟩
      · exact .inl (eq_false_of_ne_true hhalted)
    have hopened : Twins (machine.cpu, machine.opened) ((machine.restore machine.makeSnapshot).cpu,
        (machine.restore machine.makeSnapshot).opened) := ⟨rfl, hflag, alike⟩
    exact hopened.interrupt

/-- A lost return address shows in memory at the next interrupt. -/
theorem memory_acknowledged_ne (untouched : machine.Untouched) (h : machine.LosesHalt) :
    (machine.restore machine.makeSnapshot).acknowledged.2.memory ≠ machine.acknowledged.2.memory := by
  have henabled : (machine.restore machine.makeSnapshot).cpu.regs.iff1 = true := by rw [regs_restore, h.enabled]
  rw [memory_acknowledged henabled, memory_acknowledged h.enabled, ← (alike_restore untouched).memory,
    Cpu.interrupted_of_halted h.halted]
  intro heq
  exact (Memory.push_add_one_eq_iff _ _ _).mp heq.symm h.pushed

/-- A machine that is saved and reloaded runs on as it would have without its halt flag, which the snapshot does not hold.
However many frames a new machine has run without keys, joystick and tape, and however many more it runs, registers, memory
and clock are those of the machine that was not reloaded, unless that waits in a `HALT` for an interrupt whose return
address matters; then the next interrupt leaves another memory. -/
theorem visible_reload {config : Config} {machine : Machine} (hcreate : create config = .ok machine) (frames : Nat) :
    let saved := machine.after frames
    ∃ loaded, saved.loadSnapshot saved.makeSnapshot = .ok loaded ∧
      (∀ more, (loaded.after more).visible = (({ saved with cpu.halted := false } : Machine).after more).visible) ∧
      (¬ saved.LosesHalt → ∀ more, (loaded.after more).visible = (saved.after more).visible) ∧
      (saved.LosesHalt ↔ loaded.acknowledged.2.memory ≠ saved.acknowledged.2.memory) := by
  intro saved
  have untouched : saved.Untouched := (untouched_create hcreate).after frames
  have alike := alike_restore untouched
  refine ⟨saved.restore saved.makeSnapshot,
    loadSnapshot_eq_ok_iff.mpr ⟨problem?_makeSnapshot untouched, rfl⟩, fun more => ?_, fun hkept more => ?_,
    fun hlost => memory_acknowledged_ne untouched hlost, fun hne => ?_⟩
  · have twins : Twins (({ saved with cpu.halted := false } : Machine).cpu, saved.board)
        ((saved.restore saved.makeSnapshot).cpu, (saved.restore saved.makeSnapshot).board) := ⟨rfl, .inl rfl, alike⟩
    exact (visible_after twins more).symm
  · cases more with
    | zero =>
      have hnow : saved.visible = (saved.restore saved.makeSnapshot).visible := visible_of_alike rfl alike
      exact hnow.symm
    | succ more =>
      rw [← after_renderFrame, ← after_renderFrame]
      exact (visible_after (twins_renderFrame (twins_acknowledged untouched hkept)) more).symm
  · by_cases hlost : saved.LosesHalt
    · exact hlost
    · exact absurd (twins_acknowledged untouched hlost).board.memory.symm hne

/-! ## A ROM that waits in a `HALT` -/

/-- A ROM that enables interrupts and halts at address 1, and whose service routine halts. -/
def haltingRom : List UInt8 := [0xFB, 0x76] ++ List.replicate 54 0 ++ [0x76] ++ List.replicate 16327 0

theorem length_haltingRom : haltingRom.length = Memory.romSize := by
  rw [haltingRom, List.length_append, List.length_append, List.length_append, List.length_replicate, List.length_replicate]
  rfl

theorem get_haltingRom : (Memory.ofRom haltingRom).get 0 = 0xFB ∧ (Memory.ofRom haltingRom).get 1 = 0x76 ∧
    (Memory.ofRom haltingRom).get 0x38 = 0x76 := by
  rw [Memory.get_ofRom length_haltingRom, Memory.get_ofRom length_haltingRom, Memory.get_ofRom length_haltingRom]
  exact ⟨rfl, rfl, rfl⟩

theorem create_haltingRom : ∃ machine, create { rom := haltingRom } = .ok machine :=
  ⟨_, create_eq_ok_iff.mpr ⟨length_haltingRom, rfl⟩⟩

/-- The first frame of that ROM. -/
theorem executed_haltingRom (h : create { rom := haltingRom } = .ok machine) :
    ∃ r clock, machine.executed = ({ regs := { pc := 1, iff1 := true, iff2 := true, r := r }, halted := true },
      { machine.opened with clock := clock }) := by
  obtain ⟨-, hmachine⟩ := create_eq_ok_iff.mp h
  have hcpu : machine.cpu = {} := by rw [hmachine, reset]
  have hclock : machine.opened.clock = 0 := by
    rw [hmachine]
    rfl
  have hmemory : machine.opened.memory = Memory.ofRom haltingRom := by rw [hmachine, reset, opened, Board.beginFrame]
  obtain ⟨hei, hhalt, -⟩ := get_haltingRom
  obtain ⟨fuel, hfuel⟩ : ∃ fuel, Ula.tstatesPerFrame - Bus.clock machine.opened = fuel + 1 + 1 := by
    refine ⟨69886, ?_⟩
    change Ula.tstatesPerFrame - machine.opened.clock = 69888
    rw [hclock]
    rfl
  have hfirst : (Cpu.step {}).run machine.opened = ({ regs := { pc := 1, iff1 := true, iff2 := true, r := 1 } },
      { machine.opened with clock := 4 }) := by
    rw [Cpu.run_step {} machine.opened .ei (by rw [hmemory, hei]; rfl), hclock]
    rfl
  have hrest : machine.opened.memory.get 1 = 0x76 := by rw [hmemory, hhalt]
  have hsecond : (Cpu.step { regs := { pc := 1, iff1 := true, iff2 := true, r := 1 } }).run
      { machine.opened with clock := 4 } =
        ({ regs := { pc := 1, iff1 := true, iff2 := true, r := 2 }, halted := true }, { machine.opened with clock := 8 }) := by
    rw [Cpu.run_step_halt hrest]
    rfl
  have hlt : machine.opened.clock < Ula.tstatesPerFrame := by
    rw [hclock]
    decide
  rw [executed, acknowledged, hcpu, Cpu.run_interrupt_of_disabled rfl, Cpu.runUntil, hfuel, Cpu.runFor_succ hlt, hfirst,
    Cpu.runFor_succ (show 4 < Ula.tstatesPerFrame by decide), hsecond]
  obtain ⟨r, halted, clock, hrun, hhalted⟩ := Cpu.runFor_halt Ula.tstatesPerFrame fuel
    { regs := { pc := 1, iff1 := true, iff2 := true, r := 2 }, halted := true } { machine.opened with clock := 8 } hrest
  rw [hhalted rfl] at hrun
  exact ⟨r, clock, hrun⟩

/-- A frame whose service routine begins with a `HALT` leaves the memory that its interrupt left. -/
theorem memory_renderFrame_of_halt (henabled : machine.cpu.regs.iff1 = true) (him : machine.cpu.regs.im = 0)
    (hhalt : machine.board.memory.get 0x38 = 0x76) : machine.renderFrame.board.memory = machine.acknowledged.2.memory := by
  have hrom : Memory.isRom 0x38 = true := by decide
  have hpc : machine.acknowledged.1.regs.pc = 0x38 := by
    have him' : machine.cpu.pushed.regs.im ≠ 2 := by
      have : machine.cpu.pushed.regs.im = machine.cpu.interrupted.regs.im := rfl
      rw [this, Cpu.interrupted_im, him]
      decide
    rw [acknowledged, Cpu.run_interrupt_of_enabled henabled, Cpu.run_enter, Cpu.routine, if_neg him']
    rfl
  have hnext : machine.acknowledged.2.memory.get machine.acknowledged.1.regs.pc = 0x76 := by
    rw [hpc, memory_acknowledged henabled, Memory.push, Memory.get_write_of_isRom _ _ _ hrom,
      Memory.get_write_of_isRom _ _ _ hrom, hhalt]
  obtain ⟨r, halted, clock, hrun, -⟩ := Cpu.runFor_halt Ula.tstatesPerFrame
    (Ula.tstatesPerFrame - Bus.clock machine.acknowledged.2) _ _ hnext
  rw [renderFrame_board, executed, Cpu.runUntil, hrun]

/-- After its first frame the machine waits, its interrupts enabled and its stack in RAM. -/
theorem losesHalt_haltingRom (h : create { rom := haltingRom } = .ok machine) :
    (machine.after 1).LosesHalt ∧ (machine.after 1).cpu.regs.im = 0 := by
  obtain ⟨r, clock, hexecuted⟩ := executed_haltingRom h
  have hcpu : (machine.after 1).cpu =
      { regs := { pc := 1, iff1 := true, iff2 := true, r := r }, halted := true } := by
    change machine.renderFrame.cpu = _
    rw [renderFrame_cpu, hexecuted]
  rw [hcpu]
  have hram : Memory.isRom (0 - 2) = false := by decide
  exact ⟨⟨by rw [hcpu], by rw [hcpu], .inl (hcpu ▸ hram)⟩, rfl⟩

/-- A new machine with that ROM may be reloaded at once, but a reload after its first frame shows at the next interrupt. -/
theorem visible_reload_haltingRom : ∃ machine, create { rom := haltingRom } = .ok machine ∧
    (∃ loaded, machine.loadSnapshot machine.makeSnapshot = .ok loaded ∧
      ∀ more, (loaded.after more).visible = (machine.after more).visible) ∧
    ∃ loaded, (machine.after 1).loadSnapshot (machine.after 1).makeSnapshot = .ok loaded ∧
      loaded.acknowledged.2.memory ≠ (machine.after 1).acknowledged.2.memory := by
  obtain ⟨machine, hcreate⟩ := create_haltingRom
  refine ⟨machine, hcreate, ?_, ?_⟩
  · obtain ⟨loaded, hload, -, hsame, -⟩ := visible_reload hcreate 0
    refine ⟨loaded, hload, hsame fun hlost => ?_⟩
    have hrunning : machine.cpu.halted = false := by rw [(create_eq_ok_iff.mp hcreate).2, reset]
    exact Bool.false_ne_true (hrunning.symm.trans hlost.halted)
  · obtain ⟨loaded, hload, -, -, hlost⟩ := visible_reload hcreate 1
    exact ⟨loaded, hload, hlost.mp (losesHalt_haltingRom hcreate).1⟩

/-- A reload need not be invisible: with that ROM it changes what memory holds one frame later. -/
theorem visible_reload_ne : ∃ machine loaded, create { rom := haltingRom } = .ok machine ∧
    (machine.after 1).loadSnapshot (machine.after 1).makeSnapshot = .ok loaded ∧
      (loaded.after 1).visible ≠ ((machine.after 1).after 1).visible := by
  obtain ⟨machine, hcreate⟩ := create_haltingRom
  refine ⟨machine, _, hcreate, loadSnapshot_eq_ok_iff.mpr
    ⟨problem?_makeSnapshot ((untouched_create hcreate).after 1), rfl⟩, ?_⟩
  have hrom : (machine.after 1).rom = haltingRom := by
    rw [rom_after, (create_eq_ok_iff.mp hcreate).2, reset]
  have untouched : (machine.after 1).Untouched := (untouched_create hcreate).after 1
  obtain ⟨hlost, him⟩ := losesHalt_haltingRom hcreate
  generalize machine.after 1 = saved at hrom untouched hlost him ⊢
  have hhalt : saved.board.memory.get 0x38 = 0x76 := by
    rw [untouched.rom 0x38 (by decide), hrom]
    exact get_haltingRom.2.2
  have hhalt' : (saved.restore saved.makeSnapshot).board.memory.get 0x38 = 0x76 := by
    rw [← (alike_restore untouched).memory, hhalt]
  intro hvisible
  have hmemory := congrArg (fun visible => visible.2.1) hvisible
  simp only [visible, after] at hmemory
  rw [memory_renderFrame_of_halt hlost.enabled him hhalt,
    memory_renderFrame_of_halt (by rw [regs_restore, hlost.enabled]) (by rw [regs_restore, him]) hhalt'] at hmemory
  exact memory_acknowledged_ne untouched hlost hmemory

end Machine

end ZxSpectrum
