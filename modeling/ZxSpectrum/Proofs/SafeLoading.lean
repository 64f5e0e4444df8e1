import ZxSpectrum.Emulator
import ZxSpectrum.Proofs.CheckedDecoding
import ZxSpectrum.Proofs.Frames
import ZxSpectrum.Proofs.SnaFiles

/-!
# Safe loading

Whatever a file holds, reading it gives a state that every machine can take (`Snapshot.Sound`), or an error. Whatever is
loaded, an error leaves machine and task as they were: loading in place, change by change, makes no change before the last
check (`Snapshot.run_loadInPlace`).
-/

namespace ZxSpectrum

/-- All of RAM, an interrupt mode and a border colour that exist, and a clock within the frame. -/
structure Snapshot.Sound (snapshot : Snapshot) : Prop where
  ram : snapshot.ram.length = 49152
  mode : snapshot.cpu.registers.im ≤ 2
  border : snapshot.border ≤ 7
  clock : snapshot.cpu.tstates < 69888

/-! ## SNA -/

/-- What an SNA file holds. -/
theorem Sna.sound_of_decode {data : List UInt8} {snapshot : Snapshot} (h : decode data = .ok snapshot) :
    snapshot.Sound := by
  rw [decode] at h
  obtain ⟨hsize, h⟩ := ok_of_guard h
  obtain ⟨hmode, h⟩ := ok_of_guard h
  obtain ⟨-, h⟩ := ok_of_guard h
  cases h
  refine ⟨?_, UInt8.not_lt.mp hmode, UInt8.and_le_right, ?_⟩
  · change (data.drop headerSize).length = 49152
    rw [List.length_drop, Decidable.not_not.mp hsize]
    rfl
  · change (if (readRegisters data).iff1 then 32 else 0) < 69888
    split <;> decide

namespace Z80

open Bytes

/-! ## Z80 -/

theorem im_le_of_headerProblem? {data : List UInt8} (h : headerProblem? data = none) : (readRegisters data).im ≤ 2 := by
  unfold headerProblem? at h
  split at h
  · cases h
  · exact UInt8.not_lt.mp ‹_›

theorem length_of_readImage {compressed : Bool} {body ram : List UInt8} (h : readImage compressed body = .ok ram) :
    ram.length = Memory.ramSize := by
  have hcheck : ∃ image : List UInt8, (if image.length = Memory.ramSize then .ok image
      else .error (.decompressedLength Memory.ramSize image.length) : Except SnapshotError (List UInt8)) = .ok ram := by
    cases compressed with
    | false => exact ⟨body, h⟩
    | true =>
      rw [readImage, if_pos rfl] at h
      cases himage : dropEndMarker? body with
      | none =>
        rw [himage] at h
        cases h
      | some image =>
        rw [himage] at h
        exact ⟨decompress image, h⟩
  obtain ⟨image, hcheck⟩ := hcheck
  obtain ⟨hlength, rfl⟩ := ok_of_check hcheck
  exact hlength

/-- Every block that is read holds a whole page. -/
theorem length_of_readBlocks {data : List UInt8} {blocks : List (PageSlot × List UInt8)} (h : readBlocks data = .ok blocks) :
    ∀ block ∈ blocks, block.2.length = pageSize := by
  induction hlength : data.length using Nat.strongRecOn generalizing data blocks with
  | ind length ih =>
    match data with
    | low :: high :: number :: data =>
      rw [readBlocks_three] at h
      obtain ⟨first, hfirst, h⟩ := ok_of_bind h
      obtain ⟨more, hmore, rfl⟩ := ok_of_map h
      have hless := length_readBlock_le hfirst
      simp only [List.length_cons] at hlength
      exact List.forall_mem_cons.mpr ⟨(readBlock_ok hfirst).1, ih _ (by omega) hmore rfl⟩
    | [] =>
      rw [readBlocks] at h
      cases h
      simp
    | [_] | [_, _] =>
      rw [readBlocks] at h
      · cases h
      all_goals simp

theorem mem_of_pageOf? {blocks : List (PageSlot × List UInt8)} {slot : PageSlot} {page : List UInt8}
    (h : pageOf? blocks slot = some page) : ∃ block ∈ blocks, block.2 = page := by
  rw [pageOf?, Option.map_eq_some_iff] at h
  obtain ⟨block, hfound, hpage⟩ := h
  exact ⟨block, List.mem_reverse.mp (List.mem_of_find?_eq_some hfound), hpage⟩

/-- Three whole pages make up RAM. -/
theorem length_of_readPages {data ram : List UInt8} (h : readPages data = .ok ram) : ram.length = Memory.ramSize := by
  rw [readPages] at h
  obtain ⟨blocks, hblocks, h⟩ := ok_of_bind h
  obtain ⟨-, h⟩ := ok_of_guard h
  have hpage : ∀ {slot page}, pageOf? blocks slot = some page → page.length = pageSize := by
    intro slot page hslot
    obtain ⟨block, hmem, rfl⟩ := mem_of_pageOf? hslot
    exact length_of_readBlocks hblocks block hmem
  split at h
  · rename_i low middle high hlow hmiddle hhigh
    cases h
    rw [List.length_append, List.length_append, hpage hlow, hpage hmiddle, hpage hhigh]
    rfl
  · cases h

/-- The clock stays within the frame. -/
theorem restoreClock_lt (low : UInt16) (high : UInt8) : restoreClock low high < 69888 := by
  have hquarter : quarter = 17472 := rfl
  rw [restoreClock, hquarter]
  omega

/-- What a Z80 file holds. -/
theorem sound_of_decode {data : List UInt8} {snapshot : Snapshot} (h : decode data = .ok snapshot) :
    snapshot.Sound := by
  obtain ⟨layout, hlayout, -⟩ := ok_of_bind h
  by_cases hv1 : layout = .v1
  · rw [decode_v1 (hv1 ▸ hlayout)] at h
    cases hproblem : headerProblem? data with
    | some error =>
      rw [hproblem] at h
      cases h
    | none =>
      rw [hproblem] at h
      obtain ⟨ram, hram, rfl⟩ := ok_of_map h
      exact ⟨length_of_readImage hram, im_le_of_headerProblem? hproblem, UInt8.and_le_right, (by decide : 0 < 69888)⟩
  · rw [decode_extended hv1 hlayout] at h
    cases hproblem : headerProblem? data with
    | some error =>
      rw [hproblem] at h
      cases h
    | none =>
      cases hextended : extendedProblem? layout data with
      | some error =>
        rw [hproblem, hextended] at h
        cases h
      | none =>
        rw [hproblem, hextended] at h
        obtain ⟨ram, hram, rfl⟩ := ok_of_map h
        refine ⟨length_of_readPages hram, im_le_of_headerProblem? hproblem, UInt8.and_le_right, ?_⟩
        change (if layout = .v2 then 0 else restoreClock _ _) < 69888
        split
        · decide
        · exact restoreClock_lt _ _

end Z80

namespace Snapshot

/-- What a file holds. -/
theorem sound_of_decode {data : List UInt8} {format : SnapshotFormat} {snapshot : Snapshot}
    (h : decode data format = .ok snapshot) : snapshot.Sound := by
  cases format with
  | sna => exact Sna.sound_of_decode h
  | z80 => exact Z80.sound_of_decode h

/-- Nothing is wrong with a sound state. -/
theorem Sound.problem? {snapshot : Snapshot} (sound : snapshot.Sound) : snapshot.problem? = none :=
  problem?_eq_none_iff.mpr ⟨sound.ram, sound.mode⟩

/-! ## Loading -/

/-- Takes the state of a snapshot into a machine in place. What has been changed when an error is thrown stays changed. -/
def loadInPlace (snapshot : Snapshot) : ExceptT SnapshotError (StateM Machine) Unit := do
  ExceptT.mk (pure snapshot.validate)
  if snapshot.ram.length ≠ Memory.ramSize then throw (.invalidSize Memory.ramSize snapshot.ram.length)
  modify Machine.reset
  modify fun machine => { machine with cpu.regs := snapshot.cpu.registers }
  modify fun machine => { machine with board.memory := machine.board.memory.loadRam snapshot.ram }
  modify fun machine => { machine with board.ports := machine.board.ports.setBorder snapshot.border }
  modify fun machine => { machine with board.clock := snapshot.cpu.tstates }

/-- No change is made before the last check. -/
theorem run_loadInPlace (snapshot : Snapshot) (machine : Machine) : snapshot.loadInPlace.run.run machine =
    match machine.loadSnapshot snapshot with
    | .ok loaded => (.ok (), loaded)
    | .error error => (.error error, machine) := by
  rw [Machine.loadSnapshot]
  cases hproblem : snapshot.problem? with
  | some error =>
    have hrefused : snapshot.validate = .error error := by rw [validate, hproblem]
    rw [loadInPlace, hrefused]
    rfl
  | none =>
    have hvalid : snapshot.validate = .ok () := by rw [validate, hproblem]
    have hram := ((validate_eq_ok_iff snapshot).mp hvalid).1
    rw [loadInPlace, hvalid, if_neg (fun h => h hram)]
    rfl

end Snapshot

/-- A snapshot that cannot be taken leaves the task as it was. -/
theorem Task.step_loadSnapshot_of_error {task : Task} {snapshot : Snapshot} {error : SnapshotError}
    (h : task.machine.loadSnapshot snapshot = .error error) (format : SnapshotFormat) :
    (task.step (.command (.loadSnapshot snapshot format))).1 = task := by
  cases hphase : task.phase <;> simp only [step, serve, hphase, execute, load, h]

namespace Emulator

/-- A running task answers with what became of the load. -/
theorem request_loadSnapshot_of_running {emulator : Emulator} (hphase : emulator.task.phase = .running)
    {snapshot : Snapshot} {loaded : Machine} (hload : emulator.task.machine.loadSnapshot snapshot = .ok loaded)
    (format : SnapshotFormat) : (emulator.request (.loadSnapshot snapshot format)).1 = .ok (.loaded (.ok ())) := by
  simp [request, send, Task.isAlive, advance, Task.step, Task.serve, Task.execute, Task.load, Task.report, answers, hphase,
    hload]

/-- A task that does not run takes no snapshot. -/
theorem request_loadSnapshot_of_not_running {emulator : Emulator} (hphase : emulator.task.phase ≠ .running)
    (snapshot : Snapshot) (format : SnapshotFormat) :
    (emulator.request (.loadSnapshot snapshot format)).1 = .error .terminated ∧
      (emulator.request (.loadSnapshot snapshot format)).2.task = emulator.task := by
  cases hother : emulator.task.phase with
  | running => exact absurd hother hphase
  | paused => simp [request, send, Task.isAlive, advance, Task.step, Task.serve, Task.report, answers, note, hother]
  | stopped | failed => simp [request, send, Task.isAlive, hother]

/-- A file that cannot be loaded leaves the task as it was. -/
theorem task_loadFile_of_error {emulator after : Emulator} {data : List UInt8} {format : SnapshotFormat}
    {error : EmulatorError} (h : emulator.loadFile data format = (.error error, after)) : after.task = emulator.task := by
  rw [loadFile] at h
  cases hdecode : Snapshot.decode data format with
  | error error =>
    rw [hdecode] at h
    cases h
    rfl
  | ok snapshot =>
    rw [hdecode] at h
    dsimp only at h
    cases hrequest : emulator.request (.loadSnapshot snapshot format) with
    | mk result last =>
      rw [hrequest] at h
      by_cases hphase : emulator.task.phase = .running
      · have hload : emulator.task.machine.loadSnapshot snapshot = .ok (emulator.task.machine.restore snapshot) :=
          Machine.loadSnapshot_eq_ok_iff.mpr ⟨(Snapshot.sound_of_decode hdecode).problem?, rfl⟩
        have hresult := request_loadSnapshot_of_running hphase hload format
        rw [hrequest] at hresult
        cases hresult
        cases h
      · obtain ⟨hresult, htask⟩ := request_loadSnapshot_of_not_running hphase snapshot format
        rw [hrequest] at hresult htask
        cases hresult
        cases h
        exact htask

/-- Loading is safe: no byte string makes a reader go wrong, what it reads can be loaded into every machine, and a file that
cannot be read or a snapshot that cannot be taken changes nothing in machine and task. The limit of sizes is any that has
room for the file and for the longest header that it can announce. -/
theorem loading_safe (emulator : Emulator) (data : List UInt8) (format : SnapshotFormat) :
    (∀ limit, data.length + 65567 ≤ limit →
      Snapshot.decodeChecked limit data format = Checked.safe (Snapshot.decode data format)) ∧
    (∀ snapshot, Snapshot.decode data format = .ok snapshot →
      snapshot.Sound ∧ snapshot.validate = .ok () ∧ ∀ machine : Machine,
        machine.loadSnapshot snapshot = .ok (machine.restore snapshot) ∧
        snapshot.loadInPlace.run.run machine = (.ok (), machine.restore snapshot)) ∧
    (∀ error, Snapshot.decode data format = .error error →
      emulator.loadFile data format = (.error (.snapshot error), emulator)) ∧
    (∀ error after, emulator.loadFile data format = (.error error, after) → after.task = emulator.task) ∧
    ∀ snapshot error, emulator.task.machine.loadSnapshot snapshot = .error error →
      snapshot.loadInPlace.run.run emulator.task.machine = (.error error, emulator.task.machine) ∧
      (emulator.task.step (.command (.loadSnapshot snapshot format))).1 = emulator.task := by
  refine ⟨fun limit hlimit => Snapshot.decodeChecked_eq data format hlimit, fun snapshot hdecode => ?_,
    fun error hdecode => ?_, fun error after => task_loadFile_of_error, fun snapshot error hload => ⟨?_, ?_⟩⟩
  · have sound := Snapshot.sound_of_decode hdecode
    refine ⟨sound, (Snapshot.validate_eq_ok_iff snapshot).mpr ⟨sound.ram, sound.mode⟩, ?_⟩
    intro machine
    have hload : machine.loadSnapshot snapshot = .ok (machine.restore snapshot) :=
      Machine.loadSnapshot_eq_ok_iff.mpr ⟨sound.problem?, rfl⟩
    refine ⟨hload, ?_⟩
    rw [Snapshot.run_loadInPlace, hload]
  · rw [loadFile, hdecode]
  · rw [Snapshot.run_loadInPlace, hload]
  · exact Task.step_loadSnapshot_of_error hload format

/-- An emulator of a machine without a ROM. -/
def bareEmulator : Emulator := { task := { machine := { rom := [], romKind := .sinclair, frameRate := .default } } }

/-- A state with an interrupt mode that does not exist. -/
def strayMode : Snapshot := { cpu := { registers := { im := 3 } } }

/-- An empty file, one with the stack at the top of RAM, and a state that no file holds. -/
theorem loading_safe_bareEmulator :
    Snapshot.decodeChecked (2 ^ 64 - 1) [] .z80 = Checked.safe (.error .truncated) ∧
    bareEmulator.loadFile [] .z80 = (.error (.snapshot .truncated), bareEmulator) ∧
    (∃ snapshot, Snapshot.decode Sna.topFile .sna = .ok snapshot ∧ snapshot.Sound ∧ ∀ machine : Machine,
      snapshot.loadInPlace.run.run machine = (.ok (), machine.restore snapshot)) ∧
    strayMode.loadInPlace.run.run bareEmulator.task.machine =
      (.error (.invalidInterruptMode 3), bareEmulator.task.machine) ∧
    (bareEmulator.task.step (.command (.loadSnapshot strayMode .z80))).1 = bareEmulator.task := by
  have hsize : Sna.topFile.length = Sna.fileSize := by
    rw [Sna.topFile, List.length_append, List.length_replicate]
    rfl
  have htop : Snapshot.decode Sna.topFile .sna = .ok (Sna.contents Sna.topFile) :=
    Sna.decode_eq_contents hsize (by decide) (by decide) (by decide)
  have hstray : bareEmulator.task.machine.loadSnapshot strayMode = .error (.invalidInterruptMode 3) := by
    have hram : strayMode.ram.length = Memory.ramSize := List.length_replicate
    rw [Machine.loadSnapshot, Snapshot.problem?, if_neg (fun h => h hram)]
    rfl
  obtain ⟨hchecked, -, hrefused, -, hkept⟩ := loading_safe bareEmulator [] .z80
  obtain ⟨-, htaken, -⟩ := loading_safe bareEmulator Sna.topFile .sna
  obtain ⟨sound, -, hload⟩ := htaken _ htop
  exact ⟨hchecked (2 ^ 64 - 1) (by decide), hrefused .truncated rfl, ⟨_, htop, sound, fun machine => (hload machine).2⟩,
    hkept strayMode _ hstray⟩

end Emulator

end ZxSpectrum
