import ZxSpectrum.Cpu.Execute

/-!
# The processor

An instruction is fetched byte by byte through the pages its prefixes open, then executed. `step` is that as one bus
program, `interrupt` the acknowledgement of a maskable interrupt, `runUntil` the repetition of `step` up to a time.
-/

namespace ZxSpectrum.Cpu

open BusProgram

/-- An opcode fetch: four T-states, then the byte; the refresh register counts. -/
def fetch (cpu : Cpu) : BusProgram (UInt8 × Cpu) := do
  hold cpu.regs.pc 4
  let opcode ← look cpu.regs.pc
  pure (opcode, { cpu with regs := { cpu.regs with pc := cpu.regs.pc + 1 }.countRefresh })

/-- The displacement and the opcode of a bit operation on an indexed byte. The address is latched in between, and neither
byte counts as an opcode fetch. -/
def fetchIndexed (cpu : Cpu) (i : IndexRegister) : BusProgram (UInt8 × Cpu) := do
  let displacement ← read cpu.regs.pc
  let cpu := { cpu with latch := Word.displace (cpu.index i) displacement }
  let opcode ← read (cpu.regs.pc + 1)
  internal (cpu.regs.pc + 1) 2
  pure (opcode, cpu.skip 2)

/-- Executes the instruction whose opcode byte was found in a page, opening further pages at most `fuel` times. A processor has no
such limit: among nothing but index prefixes it would read on for ever and never end the instruction, where this stops. -/
def dispatch : Nat → Page → UInt8 → Cpu → BusProgram Cpu
  | 0, _, _, cpu => pure cpu
  | fuel + 1, page, opcode, cpu =>
    match page.decode opcode with
    | .run instruction => instruction.execute cpu
    | .enter next => do
      let (opcode, cpu) ← cpu.fetch
      dispatch fuel next opcode cpu
    | .enterIndexedBits i => do
      let (opcode, cpu) ← cpu.fetchIndexed i
      dispatch fuel .indexedBits opcode cpu
    | .again => dispatch fuel .base opcode cpu

/-- More pages than any instruction opens in a memory that holds a byte other than an index prefix: such a byte follows
after fewer than 65536 prefixes, and a prefix opens two pages. The limit is met only in a memory of nothing but index prefixes;
`step` ends there with what it has read by then, though the instruction has no end. -/
def pageLimit : Nat := 131080

/-- Executes one instruction, its prefixes included. -/
def step (cpu : Cpu) : BusProgram Cpu := do
  let (opcode, cpu) ← cpu.fetch
  dispatch pageLimit .base opcode cpu

/-- T-states that the acknowledgement of an interrupt takes beside its memory cycles. -/
def interruptLength : Nat := 32

/-- Where execution goes on after an interrupt: in mode 2 at the word that the interrupt register points to. -/
def interruptTarget (cpu : Cpu) : BusProgram UInt16 :=
  if cpu.regs.im == 2 then readWord (Word.ofBytes cpu.regs.i 0xFF) else pure 0x0038

/-- Accepts a maskable interrupt if interrupts are enabled, and says whether it did. A halted processor goes on after the
instruction that halted it. -/
def interrupt (cpu : Cpu) : BusProgram (Bool × Cpu) :=
  if cpu.regs.iff1 then do
    let resumed := if cpu.halted then { cpu.skip 1 with halted := false } else cpu
    let cpu := { resumed with regs.iff1 := false, regs.iff2 := false }
    let cpu ← cpu.pushWord cpu.regs.pc
    let cpu := { cpu with regs := cpu.regs.countRefresh }
    let target ← cpu.interruptTarget
    wait interruptLength
    pure (true, cpu.jumpTo target)
  else
    pure (false, cpu)

variable {β : Type} [Bus β]

/-- Executes `count` instructions on a bus. -/
@[specialize] def stepMany : Nat → Cpu → β → Cpu × β
  | 0, cpu, bus => (cpu, bus)
  | count + 1, cpu, bus =>
    let (cpu, bus) := cpu.step.run bus
    stepMany count cpu bus

/-- Executes instructions until the clock has reached `limit`, but at most `fuel`. -/
@[specialize] def runFor (limit : Nat) : Nat → Cpu → β → Cpu × β
  | 0, cpu, bus => (cpu, bus)
  | fuel + 1, cpu, bus =>
    if Bus.clock bus < limit then
      let (cpu, bus) := cpu.step.run bus
      runFor limit fuel cpu bus
    else
      (cpu, bus)

/-- Executes instructions until the clock has reached `limit`. As every instruction takes time, there are no more of them
than T-states to go. -/
@[inline] def runUntil (limit : Nat) (cpu : Cpu) (bus : β) : Cpu × β := runFor limit (limit - Bus.clock bus) cpu bus

end ZxSpectrum.Cpu
