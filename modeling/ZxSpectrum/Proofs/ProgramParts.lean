import ZxSpectrum.Proofs.FramePrograms

/-!
# What instructions are made of

Instructions read, write, hold the bus, access ports and let time pass, one step after the other, and do nothing else. What
holds of these steps and of sequences (`Closed`) holds of every instruction (`Closed.execute`), of what fetches it with any
prefixes (`Closed.step`), of the acknowledgement of an interrupt (`Closed.interrupt`) and of whole frames (`Closed.frameProgram`).
-/

namespace ZxSpectrum

open BusProgram

/-- What holds of every step on the bus, and of a sequence if it holds of its parts. -/
structure Closed (holds : ∀ {α : Type}, BusProgram α → Prop) : Prop where
  pure : ∀ {α : Type} (result : α), holds (pure result : BusProgram α)
  bind : ∀ {α γ : Type} {program : BusProgram α} {next : α → BusProgram γ}, holds program →
    (∀ result, holds (next result)) → holds (program >>= next)
  wait : ∀ time, holds (BusProgram.wait time)
  hold : ∀ address time, holds (BusProgram.hold address time)
  look : ∀ address, holds (BusProgram.look address)
  read : ∀ address, holds (BusProgram.read address)
  write : ∀ address value, holds (BusProgram.write address value)
  readPort : ∀ port, holds (BusProgram.readPort port)
  writePort : ∀ port value, holds (BusProgram.writePort port value)

namespace Closed

variable {holds : ∀ {α : Type}, BusProgram α → Prop} (closed : Closed holds)

theorem ite {α : Type} {condition : Prop} [Decidable condition] {x y : BusProgram α} (hx : holds x) (hy : holds y) :
    holds (if condition then x else y) := by
  split
  · exact hx
  · exact hy

include closed

/-! ## Steps that instructions share -/

theorem internal (address : UInt16) (time : Nat) : holds (BusProgram.internal address time) := by
  induction time with
  | zero => exact closed.pure ()
  | succ time ih => exact closed.bind (closed.hold address 1) fun _ => ih

theorem readWord (address : UInt16) : holds (BusProgram.readWord address) :=
  closed.bind (closed.read address) fun _ => closed.bind (closed.read _) fun _ => closed.pure _

theorem writeWord (address value : UInt16) : holds (BusProgram.writeWord address value) :=
  closed.bind (closed.write address _) fun _ => closed.write _ _

variable (cpu : Cpu)

theorem nextByte : holds cpu.nextByte := closed.bind (closed.read _) fun _ => closed.pure _

theorem nextWord : holds cpu.nextWord :=
  closed.bind (closed.nextByte cpu) fun low => closed.bind (closed.nextByte low.2) fun _ => closed.pure _

theorem pushWord (value : UInt16) : holds (cpu.pushWord value) :=
  closed.bind (closed.write _ _) fun _ => closed.bind (closed.write _ _) fun _ => closed.pure _

theorem popWord : holds cpu.popWord := closed.bind (closed.readWord _) fun _ => closed.pure _

theorem popPc : holds cpu.popPc := closed.bind (closed.popWord cpu) fun _ => closed.pure _

theorem jumpAbsolute : holds cpu.jumpAbsolute := closed.bind (closed.readWord _) fun _ => closed.pure _

theorem jumpDisplaced : holds cpu.jumpDisplaced :=
  closed.bind (closed.read _) fun _ => closed.bind (closed.internal _ 5) fun _ => closed.pure _

theorem skipByte : holds cpu.skipByte := closed.bind (closed.hold _ 3) fun _ => closed.pure _

theorem skipWord : holds cpu.skipWord :=
  closed.bind (closed.hold _ 3) fun _ => closed.bind (closed.hold _ 3) fun _ => closed.pure _

theorem callAbsolute : holds cpu.callAbsolute :=
  closed.bind (closed.readWord _) fun _ => closed.bind (closed.hold _ 1) fun _ =>
    closed.bind (closed.pushWord _ _) fun _ => closed.pure _

theorem resolve (p : Pointer) : holds (cpu.resolve p) := by
  cases p with
  | displaced i => exact closed.bind (closed.read _) fun _ => closed.bind (closed.internal _ 5) fun _ => closed.pure _
  | _ => exact closed.pure _

theorem readOperand (o : Operand) : holds (cpu.readOperand o) := by
  cases o with
  | reg r => exact closed.pure _
  | memory p => exact closed.bind (closed.resolve cpu p) fun _ => closed.bind (closed.read _) fun _ => closed.pure _

theorem writeOperand (o : Operand) (value : UInt8) : holds (cpu.writeOperand o value) := by
  cases o with
  | reg r => exact closed.pure _
  | memory p => exact closed.bind (closed.resolve cpu p) fun _ => closed.bind (closed.write _ _) fun _ => closed.pure _

theorem modifyOperand (o : Operand) (f : UInt8 → UInt8 → Alu.Outcome) : holds (cpu.modifyOperand o f) := by
  cases o with
  | reg r => exact closed.pure _
  | memory p =>
    exact closed.bind (closed.resolve cpu p) fun _ => closed.bind (closed.read _) fun _ =>
      closed.bind (closed.hold _ 1) fun _ => closed.bind (closed.write _ _) fun _ => closed.pure _

theorem readSource (source : Source) : holds (cpu.readSource source) := by
  cases source with
  | operand o => exact closed.readOperand cpu o
  | immediate => exact closed.nextByte cpu

theorem exchangeStack (target : Reg16) : holds (cpu.exchangeStack target) :=
  closed.bind (closed.readWord _) fun _ => closed.bind (closed.hold _ 1) fun _ => closed.bind (closed.write _ _) fun _ =>
    closed.bind (closed.write _ _) fun _ => closed.bind (closed.internal _ 2) fun _ => closed.pure _

theorem rotateDigit (byte digit : UInt8 → UInt8 → UInt8) : holds (cpu.rotateDigit byte digit) :=
  closed.bind (closed.read _) fun _ => closed.bind (closed.internal _ 4) fun _ =>
    closed.bind (closed.write _ _) fun _ => closed.pure _

theorem readSystem (value : UInt8) : holds (cpu.readSystem value) :=
  closed.bind (closed.internal _ 1) fun _ => closed.pure _

/-- The end of a block instruction, which may execute it once more. -/
theorem again (condition : Bool) (address : UInt16) (again done : Cpu) :
    holds (if condition then BusProgram.internal address 5 >>= fun _ => Pure.pure again else Pure.pure done : BusProgram Cpu) :=
  ite (closed.bind (closed.internal _ 5) fun _ => closed.pure _) (closed.pure _)

theorem blockLoad (direction : Direction) (repeats : Bool) : holds (cpu.blockLoad direction repeats) :=
  closed.bind (closed.read _) fun _ => closed.bind (closed.write _ _) fun _ =>
    closed.bind (closed.internal _ 2) fun _ => closed.again _ _ _ _

theorem blockCompare (direction : Direction) (repeats : Bool) : holds (cpu.blockCompare direction repeats) :=
  closed.bind (closed.read _) fun _ => closed.bind (closed.internal _ 5) fun _ => closed.again _ _ _ _

theorem blockInput (direction : Direction) (repeats : Bool) : holds (cpu.blockInput direction repeats) :=
  closed.bind (closed.internal _ 1) fun _ => closed.bind (closed.readPort _) fun _ =>
    closed.bind (closed.write _ _) fun _ => closed.again _ _ _ _

theorem blockOutput (direction : Direction) (repeats : Bool) : holds (cpu.blockOutput direction repeats) :=
  closed.bind (closed.internal _ 1) fun _ => closed.bind (closed.read _) fun _ =>
    closed.bind (closed.writePort _ _) fun _ => closed.again _ _ _ _

/-! ## Instructions -/

/-- What holds of the steps holds of every instruction. -/
theorem execute (instruction : Instruction) (cpu : Cpu) : holds (instruction.execute cpu) := by
  cases instruction with
  | load target source => exact closed.bind (closed.readOperand cpu source) fun read => closed.writeOperand read.2 target read.1
  | loadImmediate target =>
    have hplain : holds (cpu.nextByte >>= fun read => read.2.writeOperand target read.1) :=
      closed.bind (closed.nextByte cpu) fun read => closed.writeOperand read.2 target read.1
    rcases target with r | (_ | i | _)
    · exact hplain
    · exact hplain
    · exact closed.bind (closed.nextByte cpu) fun _ => closed.bind (closed.read _) fun _ =>
        closed.bind (closed.internal _ 2) fun _ => closed.bind (closed.write _ _) fun _ => closed.pure _
    · exact hplain
  | loadAccumulator pointer => exact closed.bind (closed.read _) fun _ => closed.pure _
  | storeAccumulator pointer => exact closed.bind (closed.write _ _) fun _ => closed.pure _
  | loadAccumulatorAbsolute =>
    exact closed.bind (closed.nextWord cpu) fun _ => closed.bind (closed.read _) fun _ => closed.pure _
  | storeAccumulatorAbsolute =>
    exact closed.bind (closed.nextWord cpu) fun _ => closed.bind (closed.write _ _) fun _ => closed.pure _
  | loadInterrupt => exact closed.bind (closed.internal _ 1) fun _ => closed.pure _
  | loadRefresh => exact closed.bind (closed.internal _ 1) fun _ => closed.pure _
  | readInterrupt => exact closed.readSystem cpu _
  | readRefresh => exact closed.readSystem cpu _
  | loadWordImmediate target => exact closed.bind (closed.nextWord cpu) fun _ => closed.pure _
  | loadWord target =>
    exact closed.bind (closed.nextWord cpu) fun _ => closed.bind (closed.readWord _) fun _ => closed.pure _
  | storeWord source =>
    exact closed.bind (closed.nextWord cpu) fun _ => closed.bind (closed.writeWord _ _) fun _ => closed.pure _
  | loadStackPointer source => exact closed.bind (closed.internal _ 2) fun _ => closed.pure _
  | push source => exact closed.bind (closed.internal _ 1) fun _ => closed.pushWord cpu _
  | pop target => exact closed.bind (closed.popWord cpu) fun _ => closed.pure _
  | exchangeStack target => exact closed.exchangeStack cpu target
  | alu operation source => exact closed.bind (closed.readSource cpu source) fun _ => closed.pure _
  | increment target => exact closed.bind (closed.modifyOperand cpu target _) fun _ => closed.pure _
  | decrement target => exact closed.bind (closed.modifyOperand cpu target _) fun _ => closed.pure _
  | add target source => exact closed.bind (closed.internal _ 7) fun _ => closed.pure _
  | adc source => exact closed.bind (closed.internal _ 7) fun _ => closed.pure _
  | sbc source => exact closed.bind (closed.internal _ 7) fun _ => closed.pure _
  | incrementWord target => exact closed.bind (closed.internal _ 2) fun _ => closed.pure _
  | decrementWord target => exact closed.bind (closed.internal _ 2) fun _ => closed.pure _
  | change operation target copy =>
    refine closed.bind (closed.modifyOperand cpu target _) fun changed => ?_
    cases copy <;> exact closed.pure _
  | testBit bit target =>
    cases target with
    | reg r => exact closed.pure _
    | memory p =>
      exact closed.bind (closed.resolve cpu p) fun _ => closed.bind (closed.read _) fun _ =>
        closed.bind (closed.hold _ 1) fun _ => closed.pure _
  | rotateDigitRight =>
    rw [Instruction.execute]
    exact closed.rotateDigit cpu _ _
  | rotateDigitLeft =>
    rw [Instruction.execute]
    exact closed.rotateDigit cpu _ _
  | jump condition => exact ite (closed.jumpAbsolute cpu) (closed.skipWord cpu)
  | jumpRelative condition => exact ite (closed.jumpDisplaced cpu) (closed.skipByte cpu)
  | jumpCounted =>
    exact closed.bind (closed.internal _ 1) fun _ => ite (closed.skipByte _) (closed.jumpDisplaced _)
  | call condition => exact ite (closed.callAbsolute cpu) (closed.skipWord cpu)
  | ret condition =>
    cases condition with
    | none => exact closed.popPc cpu
    | some condition => exact closed.bind (closed.internal _ 1) fun _ => ite (closed.popPc cpu) (closed.pure cpu)
  | retInterrupt => exact closed.popPc _
  | restart address =>
    exact closed.bind (closed.internal _ 1) fun _ => closed.bind (closed.pushWord cpu _) fun _ => closed.pure _
  | inputAccumulator =>
    exact closed.bind (closed.nextByte cpu) fun _ => closed.bind (closed.readPort _) fun _ => closed.pure _
  | outputAccumulator =>
    exact closed.bind (closed.nextByte cpu) fun _ => closed.bind (closed.writePort _ _) fun _ => closed.pure _
  | input target =>
    refine closed.bind (closed.readPort _) fun value => ?_
    cases target <;> exact closed.pure _
  | output source => exact closed.bind (closed.writePort _ _) fun _ => closed.pure _
  | blockLoad direction repeats => exact closed.blockLoad cpu direction repeats
  | blockCompare direction repeats => exact closed.blockCompare cpu direction repeats
  | blockInput direction repeats => exact closed.blockInput cpu direction repeats
  | blockOutput direction repeats => exact closed.blockOutput cpu direction repeats
  | _ => exact closed.pure _

theorem fetch (cpu : Cpu) : holds cpu.fetch :=
  closed.bind (closed.hold _ 4) fun _ => closed.bind (closed.look _) fun _ => closed.pure _

theorem fetchIndexed (cpu : Cpu) (i : IndexRegister) : holds (cpu.fetchIndexed i) :=
  closed.bind (closed.read _) fun _ => closed.bind (closed.read _) fun _ =>
    closed.bind (closed.internal _ 2) fun _ => closed.pure _

theorem dispatch (fuel : Nat) : ∀ (page : Page) (opcode : UInt8) (cpu : Cpu), holds (Cpu.dispatch fuel page opcode cpu) := by
  induction fuel with
  | zero => exact fun _ _ cpu => closed.pure cpu
  | succ fuel ih =>
    intro page opcode cpu
    rw [Cpu.dispatch]
    cases page.decode opcode with
    | run instruction => exact closed.execute instruction cpu
    | enter next => exact closed.bind (closed.fetch cpu) fun fetched => ih next fetched.1 fetched.2
    | enterIndexedBits i => exact closed.bind (closed.fetchIndexed cpu i) fun fetched => ih .indexedBits fetched.1 fetched.2
    | again => exact ih .base opcode cpu

theorem step (cpu : Cpu) : holds cpu.step :=
  closed.bind (closed.fetch cpu) fun fetched => closed.dispatch Cpu.pageLimit .base fetched.1 fetched.2

theorem interrupt (cpu : Cpu) : holds cpu.interrupt := by
  have htarget : ∀ cpu : Cpu, holds cpu.interruptTarget := fun _ => ite (closed.readWord _) (closed.pure _)
  exact ite (closed.bind (closed.pushWord _ _) fun _ => closed.bind (htarget _) fun _ =>
    closed.bind (closed.wait _) fun _ => closed.pure _) (closed.pure _)

theorem steps (count : Nat) : ∀ cpu : Cpu, holds (cpu.steps count) := by
  induction count with
  | zero => exact fun cpu => closed.pure cpu
  | succ count ih => exact fun cpu => closed.bind (closed.step cpu) ih

/-- What holds of the steps holds of a whole frame. -/
theorem frameProgram (machine : Machine) : holds machine.frameProgram :=
  closed.bind (closed.interrupt machine.cpu) fun interrupted => closed.steps _ interrupted.2

end Closed

end ZxSpectrum
