import ZxSpectrum.Proofs.Encodings
import ZxSpectrum.Proofs.SystemRegisters

/-!
# What encodings change

The interrupt registers, the index registers, the alternate registers and the halt flag are each changed by few encodings
(`Role.Frames`): an encoding has the role of the instruction that it means, and names an index register only behind its
prefix (`Encoding.plays_decode`). The halt flag and the latch are not looked at between instructions (`Cpu.step_frames`).
-/

namespace ZxSpectrum

open BusProgram

/-! ## Roles -/

namespace Encoding

/-- What an encoding changes beside general registers and index registers. -/
def role : Encoding → Role
  | .plain opcode =>
    match opcode.toNat with
    | 0x08 | 0xD9 => .exchange
    | 0x76 => .halt
    | 0xF3 => .disable
    | 0xFB => .enable
    | _ => .ordinary
  | .extended opcode =>
    match opcode.toNat with
    | 0x45 | 0x4D | 0x55 | 0x5D | 0x65 | 0x6D | 0x75 | 0x7D => .back
    | 0x46 | 0x4E | 0x66 | 0x6E => .mode 0
    | 0x56 | 0x76 => .mode 1
    | 0x5E | 0x7E => .mode 2
    | 0x47 => .loadInterrupt
    | 0x4F => .loadRefresh
    | _ => .ordinary
  | _ => .ordinary

/-- The index register that an encoding may change. -/
def named : Encoding → List IndexRegister
  | .index i _ => [i]
  | _ => []

/-- Whether an opcode means an instruction of the same role that changes no other index register. -/
def plays (code : Encoding) : Slot → Bool
  | .run instruction => instruction.role == code.role && instruction.targets.all fun i => code.named.contains i
  | _ => true

/-- So it is in all pages. -/
theorem plays_decode (code : Encoding) : code.plays (code.page.decode code.opcode) = true :=
  forall_encoding (P := fun code => code.plays (code.page.decode code.opcode) = true) (by decide +kernel) code

theorem role_eq {code : Encoding} {instruction : Instruction} (h : code.page.decode code.opcode = .run instruction) :
    instruction.role = code.role ∧ ∀ i ∈ instruction.targets, i ∈ code.named := by
  have hplays := code.plays_decode
  rw [h] at hplays
  simpa [plays] using hplays

end Encoding

/-! ## Frames -/

namespace Role

/-- The interrupt mode after an instruction of some role. -/
def setsMode (role : Role) (before : UInt8) : UInt8 :=
  match role with
  | .mode value => value
  | _ => before

/-- Whether interrupts are enabled after it. -/
def setsIff1 (role : Role) (iff1 iff2 : Bool) : Bool :=
  match role with
  | .disable => false
  | .enable => true
  | .back => iff2
  | _ => iff1

/-- Whether they will be after the return from an interrupt. -/
def setsIff2 (role : Role) (iff2 : Bool) : Bool :=
  match role with
  | .disable => false
  | .enable => true
  | _ => iff2

/-- What a role makes of the registers that few instructions change. Index registers that are not named stay as they are. -/
structure Frames (role : Role) (named : List IndexRegister) (cpu after : Cpu) : Prop where
  interrupt : after.regs.i = if role = .loadInterrupt then cpu.regs.a else cpu.regs.i
  mode : after.regs.im = role.setsMode cpu.regs.im
  iff1 : after.regs.iff1 = role.setsIff1 cpu.regs.iff1 cpu.regs.iff2
  iff2 : after.regs.iff2 = role.setsIff2 cpu.regs.iff2
  index : ∀ i ∉ named, after.index i = cpu.index i
  alternate : role ≠ .exchange → after.regs.alternate = cpu.regs.alternate
  halted : after.halted = (cpu.halted || role == .halt)

namespace Frames

variable {role : Role} {named : List IndexRegister} {cpu after : Cpu}

theorem mono {more : List IndexRegister} (h : role.Frames named cpu after) (hsub : ∀ i ∈ named, i ∈ more) :
    role.Frames more cpu after :=
  { h with index := fun i hi => h.index i fun hin => hi (hsub i hin) }

/-- Program counter, refresh register and latch are none of these registers. -/
theorem of_moved {pc : UInt16} {r : UInt8} {latch : UInt16}
    (h : role.Frames named { cpu with regs.pc := pc, regs.r := r, latch := latch } after) : role.Frames named cpu after :=
  ⟨h.interrupt, h.mode, h.iff1, h.iff2, fun i hi => (h.index i hi).trans (by cases i <;> rfl), h.alternate, h.halted⟩

end Frames

end Role

namespace Cpu

theorem index_rest {named : List IndexRegister} {i : IndexRegister} (h : i ∉ named) (cpu : Cpu) :
    (cpu.rest named).index i = cpu.index i := by
  cases i <;> simp only [index, rest, Registers.ix, Registers.iy, if_neg h]

/-- Who leaves the rest of the processor alone has no particular role. -/
theorem frames_of_rest {named : List IndexRegister} {cpu after : Cpu} (h : after.rest named = cpu.rest named) :
    Role.ordinary.Frames named cpu after where
  interrupt := congrArg (fun other => other.regs.i) h
  mode := congrArg (fun other => other.regs.im) h
  iff1 := congrArg (fun other => other.regs.iff1) h
  iff2 := congrArg (fun other => other.regs.iff2) h
  index i hi := by rw [← index_rest hi, h, index_rest hi]
  alternate _ := congrArg (fun other => other.regs.alternate) h
  halted := (congrArg (fun other => other.halted) h).trans (Bool.or_false _).symm

end Cpu

open Cpu

/-- Whatever the bus answers, an instruction changes what its role says, and the index registers that it names as targets. -/
theorem Instruction.frames_execute (instruction : Instruction) (cpu : Cpu) :
    (instruction.execute cpu).Yields (instruction.role.Frames instruction.targets cpu) := by
  have hordinary : instruction.role = .ordinary → (instruction.execute cpu).Yields (instruction.role.Frames instruction.targets cpu) := by
    intro hrole
    rw [hrole]
    exact (spares_execute hrole (fun _ hin => hin) cpu).mono fun _ hrest => frames_of_rest hrest
  have hsame : ∀ halted : Bool, halted = (halted || false) := fun halted => (Bool.or_false halted).symm
  cases instruction with
  | di => exact ⟨rfl, rfl, rfl, rfl, fun _ _ => rfl, fun _ => rfl, hsame _⟩
  | ei => exact ⟨rfl, rfl, rfl, rfl, fun _ _ => rfl, fun _ => rfl, hsame _⟩
  | im mode => exact ⟨rfl, rfl, rfl, rfl, fun _ _ => rfl, fun _ => rfl, hsame _⟩
  | halt => exact ⟨rfl, rfl, rfl, rfl, fun _ _ => rfl, fun _ => rfl, (Bool.or_true _).symm⟩
  | loadInterrupt => exact .after fun _ => ⟨rfl, rfl, rfl, rfl, fun _ _ => rfl, fun _ => rfl, hsame _⟩
  | loadRefresh => exact .after fun _ => ⟨rfl, rfl, rfl, rfl, fun _ _ => rfl, fun _ => rfl, hsame _⟩
  | exchangeAf => exact ⟨rfl, rfl, rfl, rfl, fun _ _ => rfl, fun hrole => absurd rfl hrole, hsame _⟩
  | exchangeMain => exact ⟨rfl, rfl, rfl, rfl, fun _ _ => rfl, fun hrole => absurd rfl hrole, hsame _⟩
  | retInterrupt =>
    let enabled : Cpu := { cpu with regs.iff1 := cpu.regs.iff2 }
    have hpop : enabled.Spares [] id enabled.popPc := enabled.spares_popPc
    refine hpop.mono fun after hrest => ?_
    have hframes : Role.ordinary.Frames [] enabled after := frames_of_rest hrest
    exact ⟨hframes.interrupt, hframes.mode, hframes.iff1, hframes.iff2, hframes.index, fun _ => hframes.alternate nofun,
      hframes.halted⟩
  | _ => exact hordinary rfl

/-! ## The halt flag and the latch -/

/-- Only the page of indexed bits uses the latch. -/
theorem Page.not_latched {page : Page} {opcode : UInt8} {instruction : Instruction} (h : page.decode opcode = .run instruction)
    (hpage : page ≠ .indexedBits) : .memory .latched ∉ instruction.operands := by
  have hregular := page.regular_decode opcode
  rw [h] at hregular
  cases instruction with
  | halt => exact List.not_mem_nil
  | im mode => exact List.not_mem_nil
  | _ => simpa [Slot.regular, hpage] using hregular

/-- An instruction that does not use the latch, or finds the same there, makes the same of registers and bus, halted or not. -/
theorem Instruction.regs_execute_carry (instruction : Instruction) (h : Bool) {l : UInt16} {cpu : Cpu}
    (hlatch : .memory .latched ∈ instruction.operands → l = cpu.latch) :
    Cpu.regs <$> instruction.execute (cpu.carry h l cpu.regs.im) = Cpu.regs <$> instruction.execute cpu := by
  by_cases hhalt : instruction = .halt
  · rw [hhalt]
    rfl
  by_cases him : ∃ mode, instruction = .im mode
  · obtain ⟨mode, rfl⟩ := him
    rfl
  have hother : ∀ mode, instruction ≠ .im mode := fun mode heq => him ⟨mode, heq⟩
  have hnew := instruction.execute_carry h l cpu.regs.im cpu hhalt hother hlatch
  have hold := instruction.execute_carry cpu.halted cpu.latch cpu.regs.im cpu hhalt hother fun _ => rfl
  calc Cpu.regs <$> instruction.execute (cpu.carry h l cpu.regs.im)
      = Cpu.regs <$> carry h l cpu.regs.im <$> instruction.execute cpu := congrArg _ hnew
    _ = Cpu.regs <$> carry cpu.halted cpu.latch cpu.regs.im <$> instruction.execute cpu := by
        rw [Functor.map_map, Functor.map_map]
        rfl
    _ = Cpu.regs <$> instruction.execute cpu := congrArg _ hold.symm

variable {β : Type} [Bus β]

/-- Programs that differ only in what a part of their results hides leave a bus alike. -/
theorem run_eq_of_map_eq {α γ : Type} {f : α → γ} {program twin : BusProgram α} (h : f <$> program = f <$> twin) (bus : β) :
    f (program.run bus).1 = f (twin.run bus).1 ∧ (program.run bus).2 = (twin.run bus).2 := by
  have hrun := congrArg (fun changed => changed.run bus) h
  simp only [map_eq_pure_bind, run_bind, run_pure, Prod.mk.injEq] at hrun
  exact hrun

namespace Encoding

/-- Prefixes and opcode are read alike, halted or not; and if the instruction uses the latch, they fill it. -/
theorem ready_carry (code : Encoding) (h : Bool) (l : UInt16) (cpu : Cpu) (bus : β) :
    ∃ l', code.ready (cpu.carry h l cpu.regs.im) bus =
        ((code.ready cpu bus).1.carry h l' (code.ready cpu bus).1.regs.im, (code.ready cpu bus).2) ∧
      (code.page = .indexedBits → l' = (code.ready cpu bus).1.latch) := by
  cases code with
  | indexedBits i opcode => exact ⟨_, by cases i <;> rfl, fun _ => rfl⟩
  | _ => exact ⟨l, rfl, nofun⟩

/-- Reading prefixes and opcode changes program counter, refresh register and latch. -/
theorem ready_eq (code : Encoding) (cpu : Cpu) (bus : β) :
    ∃ pc r latch, (code.ready cpu bus).1 = { cpu with regs.pc := pc, regs.r := r, latch := latch } := by
  cases code <;> exact ⟨_, _, _, rfl⟩

/-- From its first byte on, prefixes without effect apart, an encoding changes what its role says, halted or not. -/
theorem frames_ready {code : Encoding} {instruction : Instruction} (h : code.page.decode code.opcode = .run instruction)
    (cpu : Cpu) (bus : β) :
    let ready := code.ready cpu bus
    let after := (instruction.execute ready.1).run ready.2
    code.role.Frames code.named cpu after.1 ∧
    ∀ halted latch,
      let ready := code.ready (cpu.carry halted latch cpu.regs.im) bus
      let other := (instruction.execute ready.1).run ready.2
      other.1.regs = after.1.regs ∧ other.2 = after.2 := by
  intro ready after
  obtain ⟨hrole, htargets⟩ := role_eq h
  refine ⟨?_, fun halted latch => ?_⟩
  · have hframes : instruction.role.Frames instruction.targets ready.1 after.1 := (instruction.frames_execute ready.1).run ready.2
    obtain ⟨pc, r, latch, hready⟩ : ∃ pc r latch, ready.1 = { cpu with regs.pc := pc, regs.r := r, latch := latch } :=
      code.ready_eq cpu bus
    rw [hrole, hready] at hframes
    exact (hframes.mono htargets).of_moved
  · obtain ⟨filled, hready, hfilled⟩ := code.ready_carry halted latch cpu bus
    simp only [hready]
    refine run_eq_of_map_eq (instruction.regs_execute_carry halted fun hin => hfilled ?_) ready.2
    by_contra hpage
    exact Page.not_latched h hpage hin

end Encoding

namespace Cpu

variable [Bus.Steady β]

/-- In every memory but those of nothing but index prefixes there is an instruction at the program counter. It changes what its role
says: interrupt registers, alternate registers and halt flag by few encodings only, and an index register only behind its prefix. The
halt flag, and the address that is left in the latch, have no influence on registers and bus. -/
theorem step_frames (cpu : Cpu) (bus : β) :
    ((∃ ignored code, Encoded cpu.regs.pc bus ignored code) ↔ ∃ a, ¬ IsIndexPrefix (Bus.peek a bus)) ∧
    ∀ ignored code, Encoded cpu.regs.pc bus ignored code →
      let after := cpu.step.run bus
      code.role.Frames code.named cpu after.1 ∧
      ∀ halted latch,
        let other := ({ cpu with halted := halted, latch := latch } : Cpu).step.run bus
        other.1.regs = after.1.regs ∧ other.2 = after.2 := by
  refine ⟨cpu.exists_encoded_iff_other bus, fun ignored code h => ?_⟩
  obtain ⟨instruction, hcode⟩ := h.occurs.exists_instruction
  obtain ⟨pages, hends⟩ := h.ends hcode
  obtain ⟨hframes, halike⟩ := Encoding.frames_ready hcode (cpu.passing ignored) (chargeFetches ignored cpu.regs.pc bus)
  rw [← hends.run_step] at hframes halike
  refine ⟨hframes.of_moved, fun halted latch => ?_⟩
  have hother : Encoded (cpu.carry halted latch cpu.regs.im).regs.pc bus ignored code := h
  obtain ⟨others, hends'⟩ := hother.ends hcode
  have hsame := halike halted latch
  exact hends'.run_step ▸ hsame

/-! `IM 2`, by a processor that says that it has halted. -/

def modeSwitch : Memory := (Memory.blank.set 0 0xED).set 1 0x5E

theorem get_modeSwitch : modeSwitch.get 0 = 0xED ∧ modeSwitch.get 1 = 0x5E := by
  simp [modeSwitch, Memory.get_set]

theorem encoded_modeSwitch : Encoded 0 ({ memory := modeSwitch } : FlatBus) 0 (.extended 0x5E) := by
  obtain ⟨hfirst, hsecond⟩ := get_modeSwitch
  exact .extended ((opcodeAt_flat _ _).trans hfirst) ((opcodeAt_flat _ _).trans hsecond)

theorem step_frames_modeSwitch :
    let bus : FlatBus := { memory := modeSwitch }
    let cpu : Cpu := { regs := { i := 7, im := 1 }, halted := true, latch := 0x1234 }
    let after := cpu.step.run bus
    let other := ({ cpu with halted := false, latch := 0 } : Cpu).step.run bus
    (∃ a, ¬ IsIndexPrefix (modeSwitch.get a)) ∧ Encoded 0 bus 0 (.extended 0x5E) ∧
    after.1.regs.im = 2 ∧ after.1.regs.i = 7 ∧ after.1.halted = true ∧ other.1.regs = after.1.regs ∧ other.2 = after.2 := by
  intro bus cpu after other
  obtain ⟨hbytes, hsteps⟩ := step_frames cpu bus
  obtain ⟨hframes, halike⟩ := hsteps 0 _ encoded_modeSwitch
  have hrole : (Encoding.extended 0x5E).role = .mode 2 := by decide
  rw [hrole] at hframes
  exact ⟨hbytes.mp ⟨0, _, encoded_modeSwitch⟩, encoded_modeSwitch, hframes.mode, hframes.interrupt, hframes.halted, halike false 0⟩

end Cpu

end ZxSpectrum
