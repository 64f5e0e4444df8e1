import ZxSpectrum.Proofs.FramePrograms
import ZxSpectrum.Proofs.LatchAndHalt

/-!
# How long instructions take

`Lasts` bounds the T-states of a program beside its waits, whatever the bus answers, and thereby the waits as well
(`Lasts.time_le`). Every instruction has such a bound once its opcode is known (`lasts_execute`), so that only chains of index
prefixes make an instruction long. As nobody waits in the last lines of a frame, an instruction with at most one prefix runs
over the end of the frame by little more than its own time (`clock_step_lt`), and so does a frame of such instructions
(`clock_renderFrame_lt`).
-/

namespace ZxSpectrum

open BusProgram

variable {α γ : Type}

/-! ## Programs -/

/-- Whatever the bus answers, the program takes at most `limit` T-states beside its waits, and no cycle takes none. -/
def BusProgram.Lasts : BusProgram α → Nat → Prop
  | .done _, _ => True
  | .idle time next, limit => time ≤ limit ∧ next.Lasts (limit - time)
  | .contend _ time next, limit => (0 < time ∧ time ≤ limit) ∧ next.Lasts (limit - time)
  | .peek _ next, limit => ∀ value, (next value).Lasts limit
  | .poke _ _ next, limit => next.Lasts limit
  | .input _ next, limit => 4 ≤ limit ∧ ∀ value, (next value).Lasts (limit - 4)
  | .output _ _ next, limit => 4 ≤ limit ∧ next.Lasts (limit - 4)

namespace BusProgram

theorem Lasts.mono {program : BusProgram α} {limit more : Nat} (h : program.Lasts limit) (hle : limit ≤ more) :
    program.Lasts more := by
  induction program generalizing limit more with
  | done result => exact trivial
  | idle time next ih => exact ⟨Nat.le_trans h.1 hle, ih h.2 (by omega)⟩
  | contend address time next ih => exact ⟨⟨h.1.1, Nat.le_trans h.1.2 hle⟩, ih h.2 (by omega)⟩
  | peek address next ih => exact fun value => ih value (h value) hle
  | poke address value next ih => exact ih h hle
  | input port next ih => exact ⟨Nat.le_trans h.1 hle, fun value => ih value (h.2 value) (by omega)⟩
  | output port value next ih => exact ⟨Nat.le_trans h.1 hle, ih h.2 (by omega)⟩

/-- A sequence lasts as long as its parts together. -/
theorem Lasts.bind {program : BusProgram α} {next : α → BusProgram γ} {limit more : Nat} (h : program.Lasts limit)
    (hnext : ∀ result, (next result).Lasts more) : (program >>= next).Lasts (limit + more) := by
  induction program generalizing limit with
  | done result => exact (hnext result).mono (Nat.le_add_left _ _)
  | idle time rest ih =>
    have hrest := ih h.2
    rw [show limit - time + more = limit + more - time by have := h.1; omega] at hrest
    exact ⟨Nat.le_add_right_of_le h.1, hrest⟩
  | contend address time rest ih =>
    have hrest := ih h.2
    rw [show limit - time + more = limit + more - time by have := h.1; omega] at hrest
    exact ⟨⟨h.1.1, Nat.le_add_right_of_le h.1.2⟩, hrest⟩
  | peek address rest ih => exact fun value => ih value (h value)
  | poke address value rest ih => exact ih h
  | input port rest ih =>
    refine ⟨Nat.le_add_right_of_le h.1, fun value => ?_⟩
    have hrest := ih value (h.2 value)
    rw [show limit - 4 + more = limit + more - 4 by have := h.1; omega] at hrest
    exact hrest
  | output port value rest ih =>
    have hrest := ih h.2
    rw [show limit - 4 + more = limit + more - 4 by have := h.1; omega] at hrest
    exact ⟨Nat.le_add_right_of_le h.1, hrest⟩

theorem lasts_pure (result : α) (limit : Nat) : (pure result : BusProgram α).Lasts limit := trivial

theorem lasts_read (address : UInt16) : (read address).Lasts 3 := ⟨by decide, fun _ => trivial⟩

theorem lasts_write (address : UInt16) (value : UInt8) : (write address value).Lasts 3 := ⟨by decide, trivial⟩

theorem lasts_hold (address : UInt16) {time : Nat} (h : 0 < time) : (hold address time).Lasts time :=
  ⟨⟨h, Nat.le_refl time⟩, trivial⟩

theorem lasts_internal (address : UInt16) (time : Nat) : (internal address time).Lasts time := by
  induction time with
  | zero => exact trivial
  | succ time ih => exact ⟨⟨Nat.one_pos, Nat.le_add_left 1 time⟩, ih⟩

theorem lasts_readPort (port : UInt16) : (readPort port).Lasts 4 := ⟨by decide, fun _ => trivial⟩

theorem lasts_writePort (port : UInt16) (value : UInt8) : (writePort port value).Lasts 4 := ⟨by decide, trivial⟩

theorem lasts_readWord (address : UInt16) : (readWord address).Lasts 6 :=
  (lasts_read address).bind fun _ => (lasts_read _).bind fun _ => lasts_pure _ 0

theorem lasts_writeWord (address value : UInt16) : (writeWord address value).Lasts 6 :=
  (lasts_write address _).bind fun _ => lasts_write _ _

theorem lasts_ite {condition : Prop} [Decidable condition] {x y : BusProgram α} {limit : Nat} (hx : x.Lasts limit)
    (hy : y.Lasts limit) : (if condition then x else y).Lasts limit := by
  split
  · exact hx
  · exact hy

/-- A run takes no longer, and asks at most once for each T-state how long it has to wait. -/
theorem Lasts.time_le {program : BusProgram α} {limit : Nat} (h : program.Lasts limit) (board : Board) :
    program.time board ≤ limit ∧ (program.lookups board).length ≤ program.time board := by
  unfold time lookups
  induction program generalizing limit board with
  | done result => exact ⟨Nat.zero_le _, Nat.le_refl _⟩
  | idle time next ih =>
    have hnext := ih h.2 (Bus.idle time board)
    have hle := h.1
    have htime : (Cycle.idle time).time = time := rfl
    have hasks : (Ula.lookups (Bus.clock board) (.idle time)).length = 0 := rfl
    simp only [cycles, List.map_cons, List.sum_cons, List.flatMap_cons, List.length_append]
    omega
  | contend address time next ih =>
    have hnext := ih h.2 (Bus.contend address time board)
    have hle := h.1
    have htime : (Cycle.contend address time).time = time := rfl
    have hasks : (Ula.lookups (Bus.clock board) (.contend address time)).length ≤ 1 :=
      Ula.length_accessLookups_le address _
    simp only [cycles, List.map_cons, List.sum_cons, List.flatMap_cons, List.length_append]
    omega
  | peek address next ih =>
    have hnext := ih _ (h (Bus.peek address board)) board
    have htime : (Cycle.peek address).time = 0 := rfl
    have hasks : (Ula.lookups (Bus.clock board) (.peek address)).length = 0 := rfl
    simp only [cycles, List.map_cons, List.sum_cons, List.flatMap_cons, List.length_append]
    omega
  | poke address value next ih =>
    have hnext := ih h (Bus.poke address value board)
    have htime : (Cycle.poke address value).time = 0 := rfl
    have hasks : (Ula.lookups (Bus.clock board) (.poke address value)).length = 0 := rfl
    simp only [cycles, List.map_cons, List.sum_cons, List.flatMap_cons, List.length_append]
    omega
  | input port next ih =>
    have hnext := ih _ (h.2 (Bus.input port board).1) (Bus.input port board).2
    have hle := h.1
    have htime : (Cycle.input port (Bus.input port board).1).time = 4 := rfl
    have hasks : (Ula.lookups (Bus.clock board) (.input port (Bus.input port board).1)).length ≤ 4 :=
      Ula.length_portLookups_le port _
    simp only [cycles, List.map_cons, List.sum_cons, List.flatMap_cons, List.length_append]
    omega
  | output port value next ih =>
    have hnext := ih h.2 (Bus.output port value board)
    have hle := h.1
    have htime : (Cycle.output port value).time = 4 := rfl
    have hasks : (Ula.lookups (Bus.clock board) (.output port value)).length ≤ 4 := Ula.length_portLookups_le port _
    simp only [cycles, List.map_cons, List.sum_cons, List.flatMap_cons, List.length_append]
    omega

/-- A short program that begins in a frame is over soon after its end: waits make it at most seven times as long, and below
the bitmap nobody waits. -/
theorem Lasts.clock_run_lt {program : BusProgram α} {limit : Nat} (h : program.Lasts limit) (hlimit : limit ≤ 44)
    {board : Board} (hclock : board.clock < Ula.tstatesPerFrame) :
    (program.run board).2.clock < Ula.tstatesPerFrame + limit := by
  have htime := h.time_le board
  have hframe : Ula.tstatesPerFrame = 69888 := rfl
  have hend : Ula.contentionEnd = 57343 := rfl
  rw [board_clock_run]
  by_cases late : Ula.contentionEnd ≤ board.clock
  · have hfree : Ula.waits (program.lookups board) = 0 :=
      Ula.waits_of_late fun time hmem => Nat.le_trans late (mem_lookups hmem).1
    omega
  · have hwaits := Ula.waits_le (program.lookups board)
    omega

end BusProgram

/-! ## Instructions -/

namespace Cpu

variable (cpu : Cpu)

theorem lasts_nextByte : cpu.nextByte.Lasts 3 := (lasts_read _).bind fun _ => lasts_pure _ 0

theorem lasts_nextWord : cpu.nextWord.Lasts 6 :=
  cpu.lasts_nextByte.bind fun low => low.2.lasts_nextByte.bind fun _ => lasts_pure _ 0

theorem lasts_pushWord (value : UInt16) : (cpu.pushWord value).Lasts 6 :=
  (lasts_write _ _).bind fun _ => (lasts_write _ _).bind fun _ => lasts_pure _ 0

theorem lasts_popWord : cpu.popWord.Lasts 6 := (lasts_readWord _).bind fun _ => lasts_pure _ 0

theorem lasts_popPc : cpu.popPc.Lasts 6 := cpu.lasts_popWord.bind fun _ => lasts_pure _ 0

theorem lasts_jumpAbsolute : cpu.jumpAbsolute.Lasts 6 := (lasts_readWord _).bind fun _ => lasts_pure _ 0

theorem lasts_jumpDisplaced : cpu.jumpDisplaced.Lasts 8 :=
  (lasts_read _).bind fun _ => (lasts_internal _ 5).bind fun _ => lasts_pure _ 0

theorem lasts_skipByte : cpu.skipByte.Lasts 3 := (lasts_hold _ (by decide)).bind fun _ => lasts_pure _ 0

theorem lasts_skipWord : cpu.skipWord.Lasts 6 :=
  (lasts_hold _ (by decide)).bind fun _ => (lasts_hold _ (by decide)).bind fun _ => lasts_pure _ 0

theorem lasts_callAbsolute : cpu.callAbsolute.Lasts 13 :=
  (lasts_readWord _).bind fun _ => (lasts_hold _ Nat.one_pos).bind fun _ =>
    (lasts_pushWord _ _).bind fun _ => lasts_pure _ 0

theorem lasts_resolve (p : Pointer) : (cpu.resolve p).Lasts 8 := by
  cases p with
  | displaced i => exact (lasts_read _).bind fun _ => (lasts_internal _ 5).bind fun _ => lasts_pure _ 0
  | _ => exact trivial

theorem lasts_readOperand (o : Operand) : (cpu.readOperand o).Lasts 11 := by
  cases o with
  | reg r => exact trivial
  | memory p => exact (cpu.lasts_resolve p).bind fun _ => (lasts_read _).bind fun _ => lasts_pure _ 0

theorem lasts_writeOperand (o : Operand) (value : UInt8) : (cpu.writeOperand o value).Lasts 11 := by
  cases o with
  | reg r => exact trivial
  | memory p => exact (cpu.lasts_resolve p).bind fun _ => (lasts_write _ _).bind fun _ => lasts_pure _ 0

theorem lasts_modifyOperand (o : Operand) (f : UInt8 → UInt8 → Alu.Outcome) : (cpu.modifyOperand o f).Lasts 15 := by
  cases o with
  | reg r => exact trivial
  | memory p =>
    exact (cpu.lasts_resolve p).bind fun _ => (lasts_read _).bind fun _ => (lasts_hold _ Nat.one_pos).bind fun _ =>
      (lasts_write _ _).bind fun _ => lasts_pure _ 0

theorem lasts_readSource (source : Source) : (cpu.readSource source).Lasts 11 := by
  cases source with
  | operand o => exact cpu.lasts_readOperand o
  | immediate => exact cpu.lasts_nextByte.mono (by decide)

theorem lasts_exchangeStack (target : Reg16) : (cpu.exchangeStack target).Lasts 15 :=
  (lasts_readWord _).bind fun _ => (lasts_hold _ Nat.one_pos).bind fun _ => (lasts_write _ _).bind fun _ =>
    (lasts_write _ _).bind fun _ => (lasts_internal _ 2).bind fun _ => lasts_pure _ 0

theorem lasts_rotateDigit (byte digit : UInt8 → UInt8 → UInt8) : (cpu.rotateDigit byte digit).Lasts 10 :=
  (lasts_read _).bind fun _ => (lasts_internal _ 4).bind fun _ => (lasts_write _ _).bind fun _ => lasts_pure _ 0

theorem lasts_readSystem (value : UInt8) : (cpu.readSystem value).Lasts 1 :=
  (lasts_internal _ 1).bind fun _ => lasts_pure _ 0

/-- The end of a block instruction: five cycles more, to execute it once more, or none. -/
theorem lasts_repeat (condition : Bool) (address : UInt16) (again done : Cpu) :
    (if condition then internal address 5 >>= fun _ => pure again else pure done : BusProgram Cpu).Lasts 5 :=
  lasts_ite ((lasts_internal _ 5).bind fun _ => lasts_pure _ 0) (lasts_pure _ 5)

theorem lasts_blockLoad (direction : Direction) (repeats : Bool) : (cpu.blockLoad direction repeats).Lasts 13 :=
  (lasts_read _).bind fun _ => (lasts_write _ _).bind fun _ => (lasts_internal _ 2).bind fun _ => lasts_repeat _ _ _ _

theorem lasts_blockCompare (direction : Direction) (repeats : Bool) : (cpu.blockCompare direction repeats).Lasts 13 :=
  (lasts_read _).bind fun _ => (lasts_internal _ 5).bind fun _ => lasts_repeat _ _ _ _

theorem lasts_blockInput (direction : Direction) (repeats : Bool) : (cpu.blockInput direction repeats).Lasts 13 :=
  (lasts_internal _ 1).bind fun _ => (lasts_readPort _).bind fun _ => (lasts_write _ _).bind fun _ =>
    lasts_repeat _ _ _ _

theorem lasts_blockOutput (direction : Direction) (repeats : Bool) : (cpu.blockOutput direction repeats).Lasts 13 :=
  (lasts_internal _ 1).bind fun _ => (lasts_read _).bind fun _ => (lasts_writePort _ _).bind fun _ =>
    lasts_repeat _ _ _ _

end Cpu

open Cpu

/-- Once its opcode is known every instruction is short. -/
theorem Instruction.lasts_execute (instruction : Instruction) (cpu : Cpu) : (instruction.execute cpu).Lasts 22 := by
  cases instruction with
  | load target source => exact (cpu.lasts_readOperand source).bind fun read => read.2.lasts_writeOperand target read.1
  | loadImmediate target =>
    have hplain : (cpu.nextByte >>= fun read => read.2.writeOperand target read.1).Lasts 22 :=
      (cpu.lasts_nextByte.bind fun read => read.2.lasts_writeOperand target read.1).mono (by decide)
    rcases target with r | (_ | i | _)
    · exact hplain
    · exact hplain
    · exact Lasts.mono (cpu.lasts_nextByte.bind fun _ => (lasts_read _).bind fun _ => (lasts_internal _ 2).bind fun _ =>
        (lasts_write _ _).bind fun _ => lasts_pure _ 0) (by decide)
    · exact hplain
  | loadAccumulator pointer => exact ((lasts_read _).bind fun _ => lasts_pure _ 0).mono (by decide)
  | storeAccumulator pointer => exact ((lasts_write _ _).bind fun _ => lasts_pure _ 0).mono (by decide)
  | loadAccumulatorAbsolute =>
    exact (cpu.lasts_nextWord.bind fun _ => (lasts_read _).bind fun _ => lasts_pure _ 0).mono (by decide)
  | storeAccumulatorAbsolute =>
    exact (cpu.lasts_nextWord.bind fun _ => (lasts_write _ _).bind fun _ => lasts_pure _ 0).mono (by decide)
  | loadInterrupt => exact ((lasts_internal _ 1).bind fun _ => lasts_pure _ 0).mono (by decide)
  | loadRefresh => exact ((lasts_internal _ 1).bind fun _ => lasts_pure _ 0).mono (by decide)
  | readInterrupt => exact (cpu.lasts_readSystem _).mono (by decide)
  | readRefresh => exact (cpu.lasts_readSystem _).mono (by decide)
  | loadWordImmediate target => exact (cpu.lasts_nextWord.bind fun _ => lasts_pure _ 0).mono (by decide)
  | loadWord target =>
    exact (cpu.lasts_nextWord.bind fun _ => (lasts_readWord _).bind fun _ => lasts_pure _ 0).mono (by decide)
  | storeWord source =>
    exact (cpu.lasts_nextWord.bind fun _ => (lasts_writeWord _ _).bind fun _ => lasts_pure _ 0).mono (by decide)
  | loadStackPointer source => exact ((lasts_internal _ 2).bind fun _ => lasts_pure _ 0).mono (by decide)
  | push source => exact ((lasts_internal _ 1).bind fun _ => cpu.lasts_pushWord _).mono (by decide)
  | pop target => exact (cpu.lasts_popWord.bind fun _ => lasts_pure _ 0).mono (by decide)
  | exchangeStack target => exact (cpu.lasts_exchangeStack target).mono (by decide)
  | alu operation source => exact ((cpu.lasts_readSource source).bind fun _ => lasts_pure _ 0).mono (by decide)
  | increment target => exact ((cpu.lasts_modifyOperand target _).bind fun _ => lasts_pure _ 0).mono (by decide)
  | decrement target => exact ((cpu.lasts_modifyOperand target _).bind fun _ => lasts_pure _ 0).mono (by decide)
  | add target source => exact ((lasts_internal _ 7).bind fun _ => lasts_pure _ 0).mono (by decide)
  | adc source => exact ((lasts_internal _ 7).bind fun _ => lasts_pure _ 0).mono (by decide)
  | sbc source => exact ((lasts_internal _ 7).bind fun _ => lasts_pure _ 0).mono (by decide)
  | incrementWord target => exact ((lasts_internal _ 2).bind fun _ => lasts_pure _ 0).mono (by decide)
  | decrementWord target => exact ((lasts_internal _ 2).bind fun _ => lasts_pure _ 0).mono (by decide)
  | change operation target copy =>
    refine (cpu.lasts_modifyOperand target _).bind fun changed => (?_ : BusProgram.Lasts _ 7)
    cases copy <;> exact lasts_pure _ _
  | testBit bit target =>
    cases target with
    | reg r => exact trivial
    | memory p =>
      exact ((cpu.lasts_resolve p).bind fun _ => (lasts_read _).bind fun _ => (lasts_hold _ Nat.one_pos).bind fun _ =>
        lasts_pure _ 0).mono (by decide)
  | rotateDigitRight =>
    rw [execute]
    exact (cpu.lasts_rotateDigit _ _).mono (by decide)
  | rotateDigitLeft =>
    rw [execute]
    exact (cpu.lasts_rotateDigit _ _).mono (by decide)
  | jump condition => exact (lasts_ite cpu.lasts_jumpAbsolute cpu.lasts_skipWord).mono (by decide)
  | jumpRelative condition =>
    exact (lasts_ite cpu.lasts_jumpDisplaced (cpu.lasts_skipByte.mono (by decide))).mono (by decide)
  | jumpCounted =>
    exact ((lasts_internal _ 1).bind fun _ =>
      lasts_ite ((lasts_skipByte _).mono (by decide)) (lasts_jumpDisplaced _)).mono (by decide)
  | call condition =>
    exact (lasts_ite cpu.lasts_callAbsolute (cpu.lasts_skipWord.mono (by decide))).mono (by decide)
  | ret condition =>
    cases condition with
    | none => exact cpu.lasts_popPc.mono (by decide)
    | some condition =>
      exact ((lasts_internal _ 1).bind fun _ => lasts_ite cpu.lasts_popPc (lasts_pure _ 6)).mono (by decide)
  | retInterrupt => exact (lasts_popPc _).mono (by decide)
  | restart address =>
    exact ((lasts_internal _ 1).bind fun _ => (lasts_pushWord _ _).bind fun _ => lasts_pure _ 0).mono (by decide)
  | inputAccumulator =>
    exact (cpu.lasts_nextByte.bind fun _ => (lasts_readPort _).bind fun _ => lasts_pure _ 0).mono (by decide)
  | outputAccumulator =>
    exact (cpu.lasts_nextByte.bind fun _ => (lasts_writePort _ _).bind fun _ => lasts_pure _ 0).mono (by decide)
  | input target =>
    refine (lasts_readPort _).bind fun value => (?_ : BusProgram.Lasts _ 18)
    cases target <;> exact lasts_pure _ _
  | output source => exact ((lasts_writePort _ _).bind fun _ => lasts_pure _ 0).mono (by decide)
  | blockLoad direction repeats => exact (cpu.lasts_blockLoad direction repeats).mono (by decide)
  | blockCompare direction repeats => exact (cpu.lasts_blockCompare direction repeats).mono (by decide)
  | blockInput direction repeats => exact (cpu.lasts_blockInput direction repeats).mono (by decide)
  | blockOutput direction repeats => exact (cpu.lasts_blockOutput direction repeats).mono (by decide)
  | _ => exact trivial

/-! ## Prefixes -/

/-- A byte that only says which index register the next opcode means. -/
def IsIndexPrefix (byte : UInt8) : Prop := byte = 0xDD ∨ byte = 0xFD

instance (byte : UInt8) : Decidable (IsIndexPrefix byte) := inferInstanceAs (Decidable (_ ∨ _))

/-- What an opcode of a page means opens at most one page more, and not one of an index register: where the index prefix
before has no effect, the opcode is one of the unprefixed page. -/
def Slot.shallow : Page → Slot → Bool
  | _, .run _ => true
  | .base, .enter page => page = .bits || page = .extended
  | .index _, .enterIndexedBits _ => true
  | .index _, .again => true
  | _, _ => false

/-- Only the index prefixes open the pages of the index registers. -/
theorem Page.shallow_decode (page : Page) {opcode : UInt8} (h : ¬ IsIndexPrefix opcode) :
    (page.decode opcode).shallow page = true := by
  have hall : ∀ page ∈ [Page.base, .bits, .extended, .index .ix, .index .iy, .indexedBits], ∀ n < 256,
      ¬ IsIndexPrefix (UInt8.ofNat n) → (page.decode (UInt8.ofNat n)).shallow page = true := by
    decide +kernel
  have hpage : page ∈ [Page.base, .bits, .extended, .index .ix, .index .iy, .indexedBits] := by
    rcases page with _ | _ | _ | (_ | _) | _ <;> decide
  have hone := hall page hpage opcode.toNat opcode.toNat_lt
  rw [UInt8.ofNat_toNat] at hone
  exact hone h

/-- Without an index prefix: an instruction, or a page that opens no other. -/
theorem Page.decode_base_cases {opcode : UInt8} (h : ¬ IsIndexPrefix opcode) :
    (∃ instruction, Page.base.decode opcode = .run instruction) ∨
      ∃ page, (page = .bits ∨ page = .extended) ∧ Page.base.decode opcode = .enter page := by
  have hshallow := Page.base.shallow_decode h
  cases hslot : Page.base.decode opcode with
  | run instruction => exact Or.inl ⟨instruction, rfl⟩
  | enter page =>
    rw [hslot] at hshallow
    exact Or.inr ⟨page, (Bool.or_eq_true_iff.mp hshallow).imp of_decide_eq_true of_decide_eq_true, rfl⟩
  | enterIndexedBits i =>
    rw [hslot] at hshallow
    exact absurd hshallow Bool.false_ne_true
  | again =>
    rw [hslot] at hshallow
    exact absurd hshallow Bool.false_ne_true

/-- After an index prefix: an instruction, the bit operations on an indexed byte, or an opcode that the prefix leaves alone. -/
theorem Page.decode_index_cases {opcode : UInt8} (h : ¬ IsIndexPrefix opcode) (i : IndexRegister) :
    (∃ instruction, (Page.index i).decode opcode = .run instruction) ∨
      (∃ j, (Page.index i).decode opcode = .enterIndexedBits j) ∨ (Page.index i).decode opcode = .again := by
  have hshallow := (Page.index i).shallow_decode h
  cases hslot : (Page.index i).decode opcode with
  | run instruction => exact Or.inl ⟨instruction, rfl⟩
  | enter page =>
    rw [hslot] at hshallow
    exact absurd hshallow Bool.false_ne_true
  | enterIndexedBits j => exact Or.inr (Or.inl ⟨j, rfl⟩)
  | again => exact Or.inr (Or.inr rfl)

namespace Cpu

theorem lasts_fetch (cpu : Cpu) : cpu.fetch.Lasts 4 := ⟨by decide, fun _ => trivial⟩

theorem lasts_fetchIndexed (cpu : Cpu) (i : IndexRegister) : (cpu.fetchIndexed i).Lasts 8 :=
  (lasts_read _).bind fun _ => (lasts_read _).bind fun _ => (lasts_internal _ 2).bind fun _ => lasts_pure _ 0

/-- In the pages that open no other. -/
theorem lasts_dispatch_last {page : Page} (h : page = .bits ∨ page = .extended ∨ page = .indexedBits) (fuel : Nat)
    (opcode : UInt8) (cpu : Cpu) : (dispatch (fuel + 1) page opcode cpu).Lasts 22 := by
  rcases h with rfl | rfl | rfl <;> exact Instruction.lasts_execute _ cpu

theorem lasts_dispatch_base {opcode : UInt8} (h : ¬ IsIndexPrefix opcode) (fuel : Nat) (cpu : Cpu) :
    (dispatch (fuel + 2) .base opcode cpu).Lasts 26 := by
  rw [dispatch]
  rcases Page.decode_base_cases h with ⟨instruction, hslot⟩ | ⟨page, hpage, hslot⟩
  · rw [hslot]
    exact (instruction.lasts_execute cpu).mono (by decide)
  · have hlast : page = .bits ∨ page = .extended ∨ page = .indexedBits := hpage.imp_right Or.inl
    rw [hslot]
    exact cpu.lasts_fetch.bind fun fetched => lasts_dispatch_last hlast fuel fetched.1 fetched.2

/-- After an index prefix. -/
theorem lasts_dispatch_index {opcode : UInt8} (h : ¬ IsIndexPrefix opcode) (i : IndexRegister) (fuel : Nat) (cpu : Cpu) :
    (dispatch (fuel + 3) (.index i) opcode cpu).Lasts 30 := by
  rw [dispatch]
  rcases Page.decode_index_cases h i with ⟨instruction, hslot⟩ | ⟨j, hslot⟩ | hslot
  · rw [hslot]
    exact (instruction.lasts_execute cpu).mono (by decide)
  · rw [hslot]
    exact (cpu.lasts_fetchIndexed j).bind fun fetched =>
      lasts_dispatch_last (Or.inr (Or.inr rfl)) (fuel + 1) fetched.1 fetched.2
  · rw [hslot]
    exact (lasts_dispatch_base h fuel cpu).mono (by decide)

/-- Without an index prefix two pages are enough. -/
theorem dispatch_base_eq {opcode : UInt8} (h : ¬ IsIndexPrefix opcode) (fuel : Nat) (cpu : Cpu) :
    dispatch (fuel + 2) .base opcode cpu = dispatch 2 .base opcode cpu := by
  rw [dispatch]
  conv => rhs; rw [dispatch]
  rcases Page.decode_base_cases h with ⟨instruction, hslot⟩ | ⟨page, rfl | rfl, hslot⟩ <;> rw [hslot] <;> rfl

/-- After an index prefix three are. -/
theorem dispatch_index_eq {opcode : UInt8} (h : ¬ IsIndexPrefix opcode) (i : IndexRegister) (fuel : Nat) (cpu : Cpu) :
    dispatch (fuel + 3) (.index i) opcode cpu = dispatch 3 (.index i) opcode cpu := by
  rw [dispatch]
  conv => rhs; rw [dispatch]
  rcases Page.decode_index_cases h i with ⟨instruction, hslot⟩ | ⟨j, hslot⟩ | hslot
  · rw [hslot]
  · rw [hslot]
    rfl
  · rw [hslot]
    exact dispatch_base_eq h fuel cpu

/-- The instruction at the program counter begins with at most one index prefix. -/
def AtMostOnePrefix (cpu : Cpu) (board : Board) : Prop :=
  ¬ (IsIndexPrefix (board.memory.get cpu.regs.pc) ∧ IsIndexPrefix (board.memory.get (cpu.regs.pc + 1)))

/-- An instruction with at most one index prefix runs as a short program, however many pages it may open. -/
theorem exists_short {cpu : Cpu} {board : Board} (h : cpu.AtMostOnePrefix board) : ∃ program : BusProgram Cpu,
    program.Lasts 38 ∧ ∀ fuel, (cpu.resume (fuel + 4) .base).run board = program.run board ∧
      (cpu.resume (fuel + 4) .base).cycles board = program.cycles board := by
  by_cases hfirst : IsIndexPrefix (board.memory.get cpu.regs.pc)
  · -- A prefix: the next opcode is fetched, and it is none.
    have hsecond : ¬ IsIndexPrefix (board.memory.get (cpu.regs.pc + 1)) := fun hp => h ⟨hfirst, hp⟩
    have henter : ∃ i, ∀ fuel, dispatch (fuel + 4) .base (board.memory.get cpu.regs.pc) cpu.fetched =
        cpu.fetched.resume (fuel + 3) (.index i) := by
      rcases hfirst with hop | hop
      · exact ⟨.ix, fun fuel => by rw [hop]; rfl⟩
      · exact ⟨.iy, fun fuel => by rw [hop]; rfl⟩
    obtain ⟨i, henter⟩ := henter
    refine ⟨cpu.fetch >>= fun _ => cpu.fetched.fetch >>= fun _ =>
      dispatch 3 (.index i) (board.memory.get (cpu.regs.pc + 1)) cpu.fetched.fetched,
      (cpu.lasts_fetch.bind fun _ => cpu.fetched.lasts_fetch.bind fun _ => lasts_dispatch_index hsecond i 0 _),
      fun fuel => ?_⟩
    rw [run_resume, cycles_resume, henter, run_resume, cycles_resume, ← dispatch_index_eq hsecond i fuel]
    exact ⟨rfl, rfl⟩
  · refine ⟨cpu.fetch >>= fun _ => dispatch 2 .base (board.memory.get cpu.regs.pc) cpu.fetched,
      (cpu.lasts_fetch.bind fun _ => lasts_dispatch_base hfirst 0 _).mono (by decide), fun fuel => ?_⟩
    rw [run_resume, cycles_resume, ← dispatch_base_eq hfirst (fuel + 2)]
    exact ⟨rfl, rfl⟩

theorem lasts_interrupt (cpu : Cpu) : cpu.interrupt.Lasts 44 := by
  have htarget : ∀ cpu : Cpu, cpu.interruptTarget.Lasts 6 := fun cpu =>
    lasts_ite (lasts_readWord _) (lasts_pure _ 6)
  have hwait : (wait interruptLength).Lasts 32 := ⟨by decide, trivial⟩
  exact lasts_ite ((lasts_pushWord _ _).bind fun _ => (htarget _).bind fun _ => hwait.bind fun _ => lasts_pure _ 0)
    (lasts_pure _ 44)

/-- An instruction with at most one index prefix that begins in a frame is over soon after its end. -/
theorem clock_step_lt {cpu : Cpu} {board : Board} (h : cpu.AtMostOnePrefix board)
    (hclock : board.clock < Ula.tstatesPerFrame) : (cpu.step.run board).2.clock < Ula.tstatesPerFrame + 38 := by
  obtain ⟨program, lasts, hprogram⟩ := exists_short h
  have hrun : cpu.step.run board = program.run board := (hprogram 131076).1
  rw [hrun]
  exact lasts.clock_run_lt (by decide) hclock

/-- Instructions with at most one index prefix, up to the end of the frame, are over soon after it. -/
theorem clock_runFor_lt (fuel : Nat) {cpu : Cpu} {board : Board}
    (h : ∀ count, (cpu.stepMany count board).2.clock < Ula.tstatesPerFrame →
      (cpu.stepMany count board).1.AtMostOnePrefix (cpu.stepMany count board).2) :
    (cpu.runFor Ula.tstatesPerFrame fuel board).2.clock < max (board.clock + 1) (Ula.tstatesPerFrame + 38) := by
  induction fuel generalizing cpu board with
  | zero => exact Nat.lt_of_lt_of_le (Nat.lt_succ_self _) (Nat.le_max_left _ _)
  | succ fuel ih =>
    by_cases running : board.clock < Ula.tstatesPerFrame
    · have hstep : (cpu.step.run board).2.clock < Ula.tstatesPerFrame + 38 := clock_step_lt (h 0 running) running
      have hrest : ((cpu.step.run board).1.runFor Ula.tstatesPerFrame fuel (cpu.step.run board).2).2.clock <
          max ((cpu.step.run board).2.clock + 1) (Ula.tstatesPerFrame + 38) := ih fun count => h (count + 1)
      rw [runFor_succ running]
      omega
    · rw [runFor, if_neg (show ¬ Bus.clock board < Ula.tstatesPerFrame from running)]
      exact Nat.lt_of_lt_of_le (Nat.lt_succ_self _) (Nat.le_max_left _ _)

end Cpu

namespace Machine

/-- No instruction of the next frame has more than one index prefix. The instructions are those that begin before the end of
the frame. -/
def ShortInstructions (machine : Machine) : Prop :=
  ∀ count, (machine.acknowledged.1.stepMany count machine.acknowledged.2).2.clock < Ula.tstatesPerFrame →
    (machine.acknowledged.1.stepMany count machine.acknowledged.2).1.AtMostOnePrefix
      (machine.acknowledged.1.stepMany count machine.acknowledged.2).2

/-- Such a frame ends at most 43 T-states late. -/
theorem clock_renderFrame_lt {machine : Machine} (short : machine.ShortInstructions) :
    machine.renderFrame.board.clock < Ula.tstatesPerFrame + 44 := by
  have hopened : machine.opened.clock < Ula.tstatesPerFrame := Nat.mod_lt _ (by decide)
  have hinterrupt : machine.acknowledged.2.clock < Ula.tstatesPerFrame + 44 :=
    machine.cpu.lasts_interrupt.clock_run_lt (Nat.le_refl 44) hopened
  have hrun : machine.renderFrame.board.clock < max (machine.acknowledged.2.clock + 1) (Ula.tstatesPerFrame + 38) :=
    Cpu.clock_runFor_lt _ short
  omega

end Machine

end ZxSpectrum
