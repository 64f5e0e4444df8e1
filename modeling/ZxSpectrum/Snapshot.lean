import ZxSpectrum.Cpu.Registers
import ZxSpectrum.Memory
import ZxSpectrum.Snapshot.Error

/-!
# Snapshots

A `Snapshot` is the state of a machine that files hold: registers, clock, border colour and RAM. `validate` says whether
a machine can take it.
-/

namespace ZxSpectrum

/-- Registers and clock. -/
structure CpuState where
  registers : Registers := {}
  /-- T-states since the frame began. -/
  tstates : Nat := 0
deriving DecidableEq

structure Snapshot where
  cpu : CpuState := {}
  border : UInt8 := 0
  /-- RAM, from its first address on. -/
  ram : List UInt8 := List.replicate Memory.ramSize 0
deriving DecidableEq

namespace Snapshot

/-- Why a machine cannot take the snapshot, if so: RAM must be complete, and the interrupt mode must exist. -/
def problem? (snapshot : Snapshot) : Option SnapshotError :=
  if snapshot.ram.length ≠ Memory.ramSize then some (.invalidSize Memory.ramSize snapshot.ram.length)
  else if 2 < snapshot.cpu.registers.im then some (.invalidInterruptMode snapshot.cpu.registers.im)
  else none

/-- Refuses a snapshot that a machine cannot take. -/
def validate (snapshot : Snapshot) : Except SnapshotError Unit :=
  match snapshot.problem? with
  | some error => .error error
  | none => .ok ()

/-- The byte at an address of RAM. Addresses below RAM read 0. -/
def peek (snapshot : Snapshot) (address : UInt16) : UInt8 :=
  if Memory.isRom address then 0 else snapshot.ram[(address - Memory.ramBase).toNat]?.getD 0

theorem problem?_eq_none_iff {snapshot : Snapshot} :
    snapshot.problem? = none ↔ snapshot.ram.length = Memory.ramSize ∧ snapshot.cpu.registers.im ≤ 2 := by
  unfold problem?
  split
  · simp_all
  · split <;> simp_all

theorem validate_eq_ok_iff (snapshot : Snapshot) :
    snapshot.validate = .ok () ↔ snapshot.ram.length = Memory.ramSize ∧ snapshot.cpu.registers.im ≤ 2 := by
  rw [← problem?_eq_none_iff, validate]
  cases snapshot.problem? <;> simp

end Snapshot

end ZxSpectrum
