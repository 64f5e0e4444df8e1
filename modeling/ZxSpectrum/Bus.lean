import ZxSpectrum.Word

/-!
# Buses and bus programs

A `Bus` owns the clock and everything an instruction can touch. An instruction is a `BusProgram`: a finite tree of bus
cycles whose branches are chosen by the bytes that the bus answers. `BusProgram.run` plays a program on any bus, and
`run_pure`, `run_bind` and one equation per cycle say how, so that a law of buses carries over to whole instructions by
one induction.
-/

namespace ZxSpectrum

/-- What a processor is wired to. Only `idle`, `contend`, `input` and `output` let time pass. -/
class Bus (β : Type) where
  /-- T-states since the frame began. -/
  clock : β → Nat
  /-- Lets time pass with nothing on the bus. -/
  idle : Nat → β → β
  /-- Puts an address on the bus: waits as long as the bus demands, then takes the given time. -/
  contend : UInt16 → Nat → β → β
  /-- The byte at an address. -/
  peek : UInt16 → β → UInt8
  /-- Changes the byte at an address. -/
  poke : UInt16 → UInt8 → β → β
  /-- A whole input cycle. -/
  input : UInt16 → β → UInt8 × β
  /-- A whole output cycle. -/
  output : UInt16 → UInt8 → β → β

/-- A finite sequence of bus cycles that ends in a result. -/
inductive BusProgram (α : Type) where
  | done (result : α)
  | idle (time : Nat) (next : BusProgram α)
  | contend (address : UInt16) (time : Nat) (next : BusProgram α)
  | peek (address : UInt16) (next : UInt8 → BusProgram α)
  | poke (address : UInt16) (value : UInt8) (next : BusProgram α)
  | input (port : UInt16) (next : UInt8 → BusProgram α)
  | output (port : UInt16) (value : UInt8) (next : BusProgram α)

namespace BusProgram

variable {α γ β : Type}

/-- Runs a program, then the one that its result selects. -/
protected def bind : BusProgram α → (α → BusProgram γ) → BusProgram γ
  | .done a, f => f a
  | .idle t next, f => .idle t (next.bind f)
  | .contend a t next, f => .contend a t (next.bind f)
  | .peek a next, f => .peek a fun v => (next v).bind f
  | .poke a v next, f => .poke a v (next.bind f)
  | .input p next, f => .input p fun v => (next v).bind f
  | .output p v next, f => .output p v (next.bind f)

instance : Monad BusProgram where
  pure := .done
  bind := BusProgram.bind

/-- Plays a program on a bus. -/
@[specialize] def run [Bus β] : BusProgram α → β → α × β
  | .done a, b => (a, b)
  | .idle t next, b => next.run (Bus.idle t b)
  | .contend a t next, b => next.run (Bus.contend a t b)
  | .peek a next, b => (next (Bus.peek a b)).run b
  | .poke a v next, b => next.run (Bus.poke a v b)
  | .input p next, b =>
    let (v, b) := Bus.input p b
    (next v).run b
  | .output p v next, b => next.run (Bus.output p v b)

/-- Lets `time` T-states pass. -/
def wait (time : Nat) : BusProgram Unit := .idle time (.done ())

/-- One bus cycle of `time` T-states that moves no data. -/
def hold (address : UInt16) (time : Nat) : BusProgram Unit := .contend address time (.done ())

/-- The byte at an address, without a cycle of its own. -/
def look (address : UInt16) : BusProgram UInt8 := .peek address .done

/-- `count` internal cycles of one T-state each, with `address` left on the bus. -/
def internal (address : UInt16) : Nat → BusProgram Unit
  | 0 => .done ()
  | count + 1 => .contend address 1 (internal address count)

/-- A read cycle: three T-states, then the byte. -/
def read (address : UInt16) : BusProgram UInt8 := .contend address 3 (.peek address .done)

/-- A write cycle: three T-states, then the byte changes. -/
def write (address : UInt16) (value : UInt8) : BusProgram Unit := .contend address 3 (.poke address value (.done ()))

/-- An input cycle. -/
def readPort (port : UInt16) : BusProgram UInt8 := .input port .done

/-- An output cycle. -/
def writePort (port : UInt16) (value : UInt8) : BusProgram Unit := .output port value (.done ())

/-- Two read cycles, the low byte first. -/
def readWord (address : UInt16) : BusProgram UInt16 := do
  let low ← read address
  let high ← read (address + 1)
  pure (Word.ofBytes high low)

/-- Two write cycles, the low byte first. -/
def writeWord (address value : UInt16) : BusProgram Unit := do
  write address (Word.low value)
  write (address + 1) (Word.high value)

@[simp] theorem pure_bind' (a : α) (f : α → BusProgram γ) : (pure a : BusProgram α) >>= f = f a := rfl

theorem bind_pure' (x : BusProgram α) : x.bind .done = x := by
  induction x <;> simp_all [BusProgram.bind]

theorem bind_assoc' {δ : Type} (x : BusProgram α) (f : α → BusProgram γ) (g : γ → BusProgram δ) :
    (x.bind f).bind g = x.bind fun a => (f a).bind g := by
  induction x <;> simp_all [BusProgram.bind]

instance : LawfulMonad BusProgram := LawfulMonad.mk' _ bind_pure' (fun _ _ => rfl) bind_assoc'

variable [Bus β]

@[simp] theorem run_pure (a : α) (b : β) : (pure a : BusProgram α).run b = (a, b) := rfl

/-- A sequence runs its first part and hands result and bus to the second. -/
@[simp] theorem run_bind (x : BusProgram α) (f : α → BusProgram γ) (b : β) :
    (x >>= f).run b = (f (x.run b).1).run (x.run b).2 := by
  change (x.bind f).run b = _
  induction x generalizing b <;> simp_all [BusProgram.bind, run]

@[simp] theorem run_wait (t : Nat) (b : β) : (wait t).run b = ((), Bus.idle t b) := rfl

@[simp] theorem run_hold (a : UInt16) (t : Nat) (b : β) : (hold a t).run b = ((), Bus.contend a t b) := rfl

@[simp] theorem run_look (a : UInt16) (b : β) : (look a).run b = (Bus.peek a b, b) := rfl

@[simp] theorem run_read (a : UInt16) (b : β) :
    (read a).run b = (Bus.peek a (Bus.contend a 3 b), Bus.contend a 3 b) := rfl

@[simp] theorem run_write (a : UInt16) (v : UInt8) (b : β) :
    (write a v).run b = ((), Bus.poke a v (Bus.contend a 3 b)) := rfl

@[simp] theorem run_readPort (p : UInt16) (b : β) : (readPort p).run b = Bus.input p b := rfl

@[simp] theorem run_writePort (p : UInt16) (v : UInt8) (b : β) :
    (writePort p v).run b = ((), Bus.output p v b) := rfl

@[simp] theorem run_internal_zero (a : UInt16) (b : β) : (internal a 0).run b = ((), b) := rfl

@[simp] theorem run_internal_succ (a : UInt16) (n : Nat) (b : β) :
    (internal a (n + 1)).run b = (internal a n).run (Bus.contend a 1 b) := rfl

end BusProgram

end ZxSpectrum
