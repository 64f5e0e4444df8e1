import ZxSpectrum.Proofs.Forgetting
import ZxSpectrum.Proofs.SnaFiles
import ZxSpectrum.Proofs.SystemRegisters

/-!
# States can be saved

Whatever a machine has been through, its state is one that snapshots hold (`savable`): any machine takes the snapshot of it
and gives the same one back. What instructions, interrupts and resets keep of the system registers holds at any time if it
holds of the snapshots that were loaded (`SystemLaw.of_create`). Three such laws matter: the interrupt mode exists, the
halves of the refresh register stay apart, and without loads the interrupt flip-flops are equal, of which SNA files hold one.
-/

namespace ZxSpectrum

/-! ## The border -/

/-- Nothing makes the border another colour than those that exist. -/
theorem Board.keeps_border : Keeps fun board : Board => board.ports.border ≤ 7 where
  idle _ h := h
  contend _ _ h := h
  poke {board} address value h := by
    change (board.poke address value).ports.border ≤ 7
    rw [(clock_poke address value board).2]
    exact h
  input {board} port h := by
    change (board.ports.read port _).2.border ≤ 7
    simp only [Ports.read, Ports.noteRead]
    repeat' split
    all_goals exact h
  output {board} port value h := by
    change (board.ports.write port value _).border ≤ 7
    unfold Ports.write
    split
    · exact UInt8.and_le_right
    · exact h

namespace Machine

theorem border_perform {machine : Machine} (h : machine.board.ports.border ≤ 7) (operation : Operation) :
    (machine.perform operation).board.ports.border ≤ 7 := by
  cases operation with
  | frame => exact executed_of_keeps Board.keeps_border h
  | reset => exact (by decide : (7 : UInt8) ≤ 7)
  | load snapshot =>
    rcases machine.perform_load snapshot with hload | hload <;> rw [hload]
    · exact h
    · exact UInt8.and_le_right
  | _ => exact h

theorem border_of_create {config : Config} {machine : Machine} (hcreate : create config = .ok machine)
    (past : List Operation) : (past.foldl perform machine).board.ports.border ≤ 7 := by
  have hstart : machine.board.ports.border ≤ 7 := by
    rw [(create_eq_ok_iff.mp hcreate).2]
    exact (by decide : (7 : UInt8) ≤ 7)
  exact List.foldlRecOn (motive := fun machine : Machine => machine.board.ports.border ≤ 7) past _ hstart
    fun machine h operation _ => border_perform h operation

end Machine

/-! ## The system registers -/

namespace SystemLaw

variable {law : System → Prop} (keeps : SystemLaw law)

include keeps

/-- Whatever is done to a machine keeps the law, unless a snapshot is loaded that breaks it. -/
theorem perform {machine : Machine} (h : law machine.cpu.system) {operation : Operation}
    (hload : ∀ snapshot, operation = .load snapshot → snapshot.problem? = none → law snapshot.cpu.registers.system) :
    law (machine.perform operation).cpu.system := by
  cases operation with
  | frame => exact keeps.renderFrame h
  | reset => exact keeps.start
  | load snapshot =>
    rw [Machine.perform, Machine.loadSnapshot]
    cases hproblem : snapshot.problem? with
    | none => exact hload snapshot rfl hproblem
    | some error => exact h
  | _ => exact h

/-- Whatever a new machine has been through, the law holds if it does of the snapshots that were loaded. -/
theorem of_create {config : Config} {machine : Machine} (hcreate : Machine.create config = .ok machine)
    (past : List Operation)
    (hloads : ∀ snapshot, .load snapshot ∈ past → snapshot.problem? = none → law snapshot.cpu.registers.system) :
    law (past.foldl Machine.perform machine).cpu.system := by
  have hstart : law machine.cpu.system := by
    rw [(Machine.create_eq_ok_iff.mp hcreate).2]
    exact keeps.start
  refine List.foldlRecOn (motive := fun machine : Machine => law machine.cpu.system) past _ hstart
    fun machine h operation hoperation => ?_
  exact keeps.perform h fun snapshot heq => hloads snapshot (heq ▸ hoperation)

end SystemLaw

namespace System

/-- The refresh register has its top bit in one half, and the others in the other. -/
structure Halved (s : System) : Prop where
  low : s.r ≤ 0x7F
  high : s.r7 = 0 ∨ s.r7 = 0x80

theorem law_mode : SystemLaw fun s => s.im ≤ 2 where
  start := by decide
  count h := h
  disable h := h
  enable h := h
  mode _ hmode := hmode
  vector h _ := h
  refresh h _ := h
  back h := h

theorem law_halved : SystemLaw Halved where
  start := ⟨by decide, .inl rfl⟩
  count h := ⟨UInt8.and_le_right, h.high⟩
  disable h := ⟨h.low, h.high⟩
  enable h := ⟨h.low, h.high⟩
  mode h _ := ⟨h.low, h.high⟩
  vector h _ := ⟨h.low, h.high⟩
  refresh _ value := by
    have htop : (value &&& 0x80).toNat = _ := toNat_and_field value 7 1 rfl
    refine ⟨UInt8.and_le_right, ?_⟩
    simp only [← UInt8.toNat_inj, htop]
    change _ = 0 ∨ _ = 128
    omega
  back h := ⟨h.low, h.high⟩

theorem law_flipFlops : SystemLaw fun s => s.iff1 = s.iff2 where
  start := rfl
  count h := h
  disable _ := rfl
  enable _ := rfl
  mode h _ := h
  vector h _ := h
  refresh h _ := h
  back _ := rfl

end System

/-! ## Snapshots -/

/-- Halves that are apart are those of the whole. -/
theorem Registers.setRefresh_refresh {regs : Registers} (h : regs.system.Halved) : regs.setRefresh regs.refresh = regs := by
  have hparts : ∀ r7 ∈ [(0 : UInt8), 0x80], ∀ n < 128,
      ((UInt8.ofNat n &&& 0x7F) ||| (r7 &&& 0x80)) &&& 0x7F = UInt8.ofNat n ∧
        ((UInt8.ofNat n &&& 0x7F) ||| (r7 &&& 0x80)) &&& 0x80 = r7 := by
    decide +kernel
  have hhigh : regs.r7 = 0 ∨ regs.r7 = 0x80 := h.high
  have hlow : regs.r.toNat < 128 := Nat.lt_succ_of_le (UInt8.le_iff_toNat_le.mp h.low)
  obtain ⟨hr, hr7⟩ := hparts regs.r7 (by simpa using hhigh) regs.r.toNat hlow
  rw [UInt8.ofNat_toNat] at hr hr7
  rw [setRefresh, refresh, hr, hr7]

/-- SNA files hold all registers, if there is only one interrupt flip-flop to hold. -/
theorem Sna.registers_popped {snapshot : Snapshot} (hhalved : snapshot.cpu.registers.system.Halved)
    (hflags : snapshot.cpu.registers.iff1 = snapshot.cpu.registers.iff2) :
    (popped snapshot).cpu.registers = snapshot.cpu.registers := by
  change { snapshot.cpu.registers.setRefresh _ with iff2 := snapshot.cpu.registers.iff1 } = snapshot.cpu.registers
  rw [Registers.setRefresh_refresh hhalved, hflags]

namespace Machine

/-- What a snapshot of a machine holds. -/
theorem parts_makeSnapshot (machine : Machine) :
    machine.makeSnapshot.cpu.registers = machine.cpu.regs ∧ machine.makeSnapshot.cpu.tstates = machine.board.clock ∧
      machine.makeSnapshot.border = machine.board.ports.border ∧ machine.makeSnapshot.ram = machine.board.memory.ram := by
  refine ⟨rfl, rfl, rfl, ?_⟩
  rw [makeSnapshot]

theorem length_makeSnapshot (machine : Machine) : machine.makeSnapshot.ram.length = Memory.ramSize := by
  rw [makeSnapshot, Memory.length_ram]

/-- A machine takes a snapshot of whatever state any machine may be in, and gives it back, if interrupt mode and border colour
exist. -/
theorem reload_makeSnapshot {saved : Machine} (hmode : saved.cpu.regs.im ≤ 2) (hborder : saved.board.ports.border ≤ 7)
    (machine : Machine) : ∃ loaded, machine.loadSnapshot saved.makeSnapshot = .ok loaded ∧
      loaded.makeSnapshot = saved.makeSnapshot := by
  have hproblem : saved.makeSnapshot.problem? = none :=
    Snapshot.problem?_eq_none_iff.mpr ⟨length_makeSnapshot saved, hmode⟩
  exact ⟨machine.restore saved.makeSnapshot, loadSnapshot_eq_ok_iff.mpr ⟨hproblem, rfl⟩,
    machine.makeSnapshot_restore (length_makeSnapshot saved) hborder⟩

/-- Whatever a new machine has been through, interrupt mode and border colour exist, the halves of the refresh register are
apart if they are so in the snapshots that were loaded, and the snapshot of its state holds registers, clock, border and RAM
and is one that any machine takes and gives back. If none was loaded, the interrupt flip-flops are equal, and an SNA file of
the state holds all registers. -/
theorem savable {config : Config} {machine : Machine} (hcreate : create config = .ok machine) (past : List Operation) :
    let saved := past.foldl perform machine
    saved.cpu.regs.im ≤ 2 ∧ saved.board.ports.border ≤ 7 ∧
    ((∀ snapshot, .load snapshot ∈ past → snapshot.problem? = none → snapshot.cpu.registers.system.Halved) →
      saved.cpu.regs.system.Halved) ∧
    (saved.makeSnapshot.cpu.registers = saved.cpu.regs ∧ saved.makeSnapshot.cpu.tstates = saved.board.clock ∧
      saved.makeSnapshot.border = saved.board.ports.border ∧ saved.makeSnapshot.ram = saved.board.memory.ram) ∧
    saved.makeSnapshot.validate = .ok () ∧
    (∀ other : Machine, ∃ loaded, other.loadSnapshot saved.makeSnapshot = .ok loaded ∧
      loaded.makeSnapshot = saved.makeSnapshot) ∧
    ((∀ snapshot, .load snapshot ∈ past → snapshot.problem? ≠ none) → saved.cpu.regs.iff1 = saved.cpu.regs.iff2 ∧
      ∀ file, Sna.encode saved.makeSnapshot = .ok file → ∃ decoded, Sna.decode file = .ok decoded ∧
        decoded.cpu.registers = saved.cpu.regs) := by
  intro saved
  have hmode : saved.cpu.system.im ≤ 2 := System.law_mode.of_create hcreate past
    fun snapshot _ hproblem => (Snapshot.problem?_eq_none_iff.mp hproblem).2
  have hborder : saved.board.ports.border ≤ 7 := border_of_create hcreate past
  have hhalved := System.law_halved.of_create hcreate past
  refine ⟨hmode, hborder, hhalved, saved.parts_makeSnapshot, (Snapshot.validate_eq_ok_iff _).mpr ⟨length_makeSnapshot saved, hmode⟩,
    reload_makeSnapshot hmode hborder, fun hnone => ?_⟩
  have hflags : saved.cpu.system.iff1 = saved.cpu.system.iff2 := System.law_flipFlops.of_create hcreate past
    fun snapshot hload hproblem => absurd hproblem (hnone snapshot hload)
  refine ⟨hflags, fun file hfile => ⟨_, Sna.decode_of_encode hfile, Sna.registers_popped ?_ hflags⟩⟩
  exact hhalved fun snapshot hload hproblem => absurd hproblem (hnone snapshot hload)

/-- Two frames, the second after a load, and a machine that has been reset with a key held, whose state goes to a file. -/
theorem savable_redSnapshot : ∃ machine, create { rom := List.replicate Memory.romSize 0 } = .ok machine ∧
    ([.frame, .load redSnapshot, .frame].foldl perform machine).cpu.regs.system.Halved ∧
    ∃ file decoded, Sna.encode ([.press .a, .reset].foldl perform machine).makeSnapshot = .ok file ∧
      Sna.decode file = .ok decoded ∧ decoded.cpu.registers = ([.press .a, .reset].foldl perform machine).cpu.regs := by
  obtain ⟨machine, hcreate⟩ : ∃ machine, create { rom := List.replicate Memory.romSize 0 } = .ok machine :=
    ⟨_, create_eq_ok_iff.mpr ⟨List.length_replicate, rfl⟩⟩
  obtain ⟨-, -, hhalved, -, -, -, -⟩ := savable hcreate [.frame, .load redSnapshot, .frame]
  obtain ⟨-, -, -, -, hvalid, -, hfiles⟩ := savable hcreate [.press .a, .reset]
  have hstack : 0x4000 ≤ (0 : UInt16) - 2 ∧ (0 : UInt16) - 2 ≤ 0xFFFE := by decide
  have hfile := Sna.encode_eq_ok_iff.mpr ⟨⟨hvalid, hstack⟩, rfl⟩
  obtain ⟨-, hdecode⟩ := hfiles (by simp)
  obtain ⟨decoded, hdecoded, hregisters⟩ := hdecode _ hfile
  refine ⟨machine, hcreate, hhalved ?_, _, decoded, hfile, hdecoded, hregisters⟩
  intro snapshot hload _
  obtain rfl : snapshot = redSnapshot := by simpa using hload
  exact ⟨by decide, .inl rfl⟩

end Machine

end ZxSpectrum
