import ZxSpectrum.Proofs.LatchAndHalt
import ZxSpectrum.Proofs.PrefixChains
import ZxSpectrum.Proofs.TaskSteps

/-!
# Notices that the ROM has started

Where the ROM waits for a key once it has started, a notice is told so exactly on a frame that finds the program counter there
(`told_true_iff`). The notice belongs to the last reset that was served (`notice_run_eq_some`). If no snapshot has been taken
since, the processor itself has come there: at the end of a frame that was run after the reset (`told_true`). A snapshot that is
taken in between leaves the notice waiting, and may bring the program counter with it (`told_true_waitingSnapshot`).
-/

namespace ZxSpectrum

open Effect

/-! ## What moves the program counter -/

/-- An operation sets the whole machine at once: a reset, or the load of a snapshot that can be taken. -/
def Operation.restarts : Operation → Bool
  | .reset => true
  | .load snapshot => snapshot.problem?.isNone
  | _ => false

namespace Machine

/-- Running from `fresh` the processor has come to where the ROM waits for a key: it stood there at the end of a frame, since when
no other frame has been run. -/
def Reaches (fresh : Machine) (operations : List Operation) : Prop :=
  ∃ before inputs, operations = before ++ .frame :: inputs ∧ .frame ∉ inputs ∧
    (before.foldl perform fresh).renderFrame.atRomReady = true

theorem atRomReady_iff {machine : Machine} : machine.atRomReady = true ↔ machine.cpu.regs.pc = romReadyPc := beq_iff_eq

/-- Only frames, resets and loads concern the processor. -/
theorem cpu_perform (machine : Machine) {operation : Operation} (hrestarts : operation.restarts = false)
    (hframe : operation ≠ .frame) : (machine.perform operation).cpu = machine.cpu := by
  cases operation with
  | frame => exact absurd rfl hframe
  | reset => exact absurd hrestarts.symm Bool.false_ne_true
  | load snapshot =>
    rw [perform, loadSnapshot]
    cases hproblem : snapshot.problem? with
    | none => simp [Operation.restarts, hproblem] at hrestarts
    | some error => rfl
  | _ => rfl

/-- Without resets and loads the processor is as the last frame left it. -/
theorem cpu_foldl_perform {operations : List Operation} (h : ∀ operation ∈ operations, operation.restarts = false)
    (machine : Machine) : (.frame ∉ operations ∧ (operations.foldl perform machine).cpu = machine.cpu) ∨
      ∃ before inputs, operations = before ++ .frame :: inputs ∧ .frame ∉ inputs ∧
        (operations.foldl perform machine).cpu = (before.foldl perform machine).renderFrame.cpu := by
  induction operations generalizing machine with
  | nil => exact .inl ⟨List.not_mem_nil, rfl⟩
  | cons operation rest ih =>
    rw [List.forall_mem_cons] at h
    rcases ih h.2 (machine.perform operation) with ⟨hinputs, hcpu⟩ | ⟨before, inputs, hrest, hinputs, hcpu⟩
    · by_cases hframe : operation = .frame
      · subst hframe
        exact .inr ⟨[], rest, rfl, hinputs, hcpu⟩
      · refine .inl ⟨?_, hcpu.trans (machine.cpu_perform h.1 hframe)⟩
        rw [List.mem_cons, not_or]
        exact ⟨Ne.symm hframe, hinputs⟩
    · subst hrest
      exact .inr ⟨operation :: before, inputs, rfl, hinputs, hcpu⟩

/-- A machine that waits for a key has come there by itself, or did so at first. -/
theorem reaches_of_atRomReady {fresh : Machine} {operations : List Operation}
    (h : ∀ operation ∈ operations, operation.restarts = false)
    (hready : (operations.foldl perform fresh).atRomReady = true) :
    (.frame ∉ operations ∧ fresh.atRomReady = true) ∨ fresh.Reaches operations := by
  rcases cpu_foldl_perform h fresh with ⟨hnone, hcpu⟩ | ⟨before, inputs, hsplit, hinputs, hcpu⟩
  · rw [atRomReady, hcpu] at hready
    exact .inl ⟨hnone, hready⟩
  · rw [atRomReady, hcpu] at hready
    exact .inr ⟨before, inputs, hsplit, hinputs, hready⟩

end Machine

/-! ## Which reset a notice belongs to -/

namespace Task

variable {task : Task} {notice : Nat}

/-- Where the ROM waits for a key, exactly a frame that finds it waiting tells a notice that it has started. -/
theorem told_true_iff (hkind : task.machine.romKind = .sinclair) (event : TaskEvent) :
    (notice, true) ∈ told (task.step event).2 ↔
      task.notice = some notice ∧ task.rendersOn event = true ∧ task.machine.atRomReady = true := by
  have hopen : task.machine.romKind ≠ .openSe := by
    rw [hkind]
    exact RomKind.noConfusion
  rw [told_step, rendersOn_iff]
  cases hdeed : task.deed event with
  | none => simp
  | some command =>
    rw [Option.elim_some]
    cases command with
    | renderFrame awaited =>
      rw [tells]
      split <;> simp_all
    | reset => simp [tells, if_neg hopen]
    | _ => simp [tells]

/-- A notice that waits has waited before, and the machine was not reset, or comes from a reset. -/
theorem notice_step_eq_some {event : TaskEvent} (h : (task.step event).1.notice = some notice) :
    (task.notice = some notice ∧ .reset ∉ task.operationsOn event) ∨
      (event = .command (.reset (some notice)) ∧ task.phase = .running) := by
  cases hdeed : task.deed event with
  | none =>
    rw [(step_of_deed_none hdeed).1] at h
    exact .inl ⟨h, by simp [operationsOn, hdeed]⟩
  | some command =>
    rw [(step_of_deed hdeed).2] at h
    have hafter : task.noticeAfter command = some notice := by
      rw [← notice_execute]
      split at h
      · exact absurd h.symm (Option.some_ne_none notice)
      · exact h
    rw [operationsOn, hdeed, Option.elim_some]
    cases command with
    | reset sent =>
      have hphase : task.phase = .running := by
        by_cases hrunning : task.phase = .running
        · exact hrunning
        · exact absurd (deed_of_not_running hrunning hdeed) Command.noConfusion
      have hsent : sent = some notice := by
        rw [noticeAfter] at hafter
        split at hafter
        · exact absurd hafter.symm (Option.some_ne_none notice)
        · exact hafter
      cases event with
      | frameDue => simp [deed] at hdeed
      | command other =>
        rw [← eq_of_deed_command hdeed, hsent]
        exact .inr ⟨rfl, hphase⟩
    | renderFrame awaited =>
      rw [noticeAfter] at hafter
      split at hafter
      · exact absurd hafter.symm (Option.some_ne_none notice)
      · exact .inl ⟨hafter, by simp [Command.operations]⟩
    | pause => exact absurd hafter.symm (Option.some_ne_none notice)
    | terminate => exact absurd hafter.symm (Option.some_ne_none notice)
    | _ => exact .inl ⟨hafter, by simp [Command.operations]⟩

theorem notice_run_eq_some {events : List TaskEvent} (h : (task.run events).1.notice = some notice) :
    (task.notice = some notice ∧ .reset ∉ task.history events) ∨
      ∃ early since, events = early ++ .command (.reset (some notice)) :: since ∧ (task.run early).1.phase = .running ∧
        .reset ∉ (task.run (early ++ [.command (.reset (some notice))])).1.history since := by
  induction events generalizing task with
  | nil => exact .inl ⟨h, List.not_mem_nil⟩
  | cons event events ih =>
    have hlast : ((task.step event).1.run events).1.notice = some notice := h
    rcases ih hlast with ⟨hnotice, hreset⟩ | ⟨early, since, rfl, hphase, hreset⟩
    · rcases notice_step_eq_some hnotice with ⟨hwaits, hfirst⟩ | ⟨rfl, hphase⟩
      · refine .inl ⟨hwaits, ?_⟩
        rw [history, List.mem_append, not_or]
        exact ⟨hfirst, hreset⟩
      · exact .inr ⟨[], events, rfl, hphase, hreset⟩
    · exact .inr ⟨event :: early, since, rfl, hphase, hreset⟩

theorem romKind_run (task : Task) (events : List TaskEvent) : (task.run events).1.machine.romKind = task.machine.romKind := by
  rw [machine_run]
  exact (Machine.settings_foldl_perform _ _).2.2

/-- A notice that the ROM has started belongs to a reset that was served, and no other reset since. The frame that tells it finds
the program counter where the ROM waits for a key. If no snapshot has been taken since the reset, the processor has come there
itself, in at least one frame. Otherwise it has come there in the frames since the last snapshot was taken, or the snapshot
brought it and no frame has been run since. -/
theorem told_true (machine : Machine) (hkind : machine.romKind = .sinclair) (past : List TaskEvent) (event : TaskEvent)
    (notice : Nat) (h : (notice, true) ∈ told ((Task.run { machine := machine } past).1.step event).2) :
    let start : Task := { machine := machine }
    let task := (start.run past).1
    task.rendersOn event = true ∧ task.machine.cpu.regs.pc = Machine.romReadyPc ∧
      ∃ early since, past = early ++ .command (.reset (some notice)) :: since ∧ (start.run early).1.phase = .running ∧
        let fresh := (start.run early).1.machine.reset
        let operations := (start.run (early ++ [.command (.reset (some notice))])).1.history since
        task.machine = operations.foldl Machine.perform fresh ∧ .reset ∉ operations ∧
          ((∀ snapshot, .load snapshot ∈ operations → snapshot.problem? ≠ none) → fresh.Reaches operations) ∧
          ∀ earlier snapshot later, operations = earlier ++ .load snapshot :: later → snapshot.problem? = none →
            (∀ operation ∈ later, operation.restarts = false) →
              (.frame ∉ later ∧ snapshot.cpu.registers.pc = Machine.romReadyPc) ∨
                ((earlier.foldl Machine.perform fresh).restore snapshot).Reaches later := by
  intro start task
  have hkind' : task.machine.romKind = .sinclair := (start.romKind_run past).trans hkind
  obtain ⟨hnotice, hrenders, hready⟩ := (told_true_iff hkind' event).mp h
  refine ⟨hrenders, Machine.atRomReady_iff.mp hready, ?_⟩
  rcases notice_run_eq_some hnotice with ⟨hnone, -⟩ | ⟨early, since, rfl, hphase, hreset⟩
  · exact absurd hnone.symm (Option.some_ne_none notice)
  refine ⟨early, since, rfl, hphase, ?_⟩
  intro fresh operations
  have hfresh : (start.run (early ++ [.command (.reset (some notice))])).1.machine = fresh := by
    rw [run_append, run_cons, step_of_running hphase, execute, reset_eq]
    rfl
  have hmachine : task.machine = operations.foldl Machine.perform fresh := by
    rw [← hfresh, ← machine_run]
    simp only [task, run_append, run]
  refine ⟨hmachine, hreset, fun hloads => ?_, fun earlier snapshot later hsplit hproblem hlater => ?_⟩
  · have hrestarts : ∀ operation ∈ operations, operation.restarts = false := by
      intro operation hoperation
      cases operation with
      | reset => exact absurd hoperation hreset
      | load snapshot => simpa [Operation.restarts, Option.isSome_iff_ne_none] using hloads snapshot hoperation
      | _ => rfl
    rw [hmachine] at hready
    rcases Machine.reaches_of_atRomReady hrestarts hready with ⟨-, hfirst⟩ | hreaches
    · exact absurd hfirst Bool.false_ne_true
    · exact hreaches
  · have hload : (earlier.foldl Machine.perform fresh).perform (.load snapshot) =
        (earlier.foldl Machine.perform fresh).restore snapshot := by
      rw [Machine.perform, Machine.loadSnapshot, hproblem]
    rw [hmachine, hsplit, List.foldl_append, List.foldl_cons, hload] at hready
    rcases Machine.reaches_of_atRomReady hlater hready with ⟨hnone, hfirst⟩ | hreaches
    · exact .inl ⟨hnone, Machine.atRomReady_iff.mp hfirst⟩
    · exact .inr hreaches

/-- A ROM that jumps at once to where it waits for a key, and halts there. -/
def bootingRom : List UInt8 := [0xC3, 0xAC, 0x10] ++ List.replicate 16381 0x76

theorem length_bootingRom : bootingRom.length = Memory.romSize := by
  rw [bootingRom, List.length_append, List.length_replicate]
  rfl

theorem romKindOf_bootingRom : Machine.romKindOf bootingRom = .sinclair := by
  refine Machine.romKindOf_of_not_mem ?_
  rw [bootingRom, List.mem_append, List.mem_replicate]
  decide

/-- It needs one frame to get there. -/
theorem atRomReady_bootingRom {machine : Machine} (hrom : machine.rom = bootingRom) :
    machine.reset.renderFrame.atRomReady = true := by
  have hmemory : machine.reset.opened.memory = Memory.ofRom bootingRom := by
    rw [← hrom]
    rfl
  have hget : ∀ a : UInt16, Memory.isRom a = true → machine.reset.opened.memory.get a = bootingRom[a.toNat]?.getD 0 := by
    intro a ha
    rw [hmemory, Memory.get_ofRom length_bootingRom, if_pos ha]
  have hclock : machine.reset.opened.clock = 0 := rfl
  have hjump : (Cpu.step {}).run machine.reset.opened =
      ({ regs := { pc := 0x10AC, r := 1 } }, { machine.reset.opened with clock := 10 }) := by
    have hexecute : ∀ board : Board, ((Instruction.jump none).execute (Cpu.fetched {})).run board =
        ((Cpu.fetched {}).jumpTo (Word.ofBytes (board.memory.get 2) (board.memory.get 1)),
          { board with clock := Ula.access 2 3 (Ula.access 1 3 board.clock) }) := fun _ => rfl
    rw [Cpu.run_step {} machine.reset.opened (.jump none) (by rw [hget _ (by decide)]; rfl), hexecute, hget _ (by decide),
      hget _ (by decide), hclock]
    rfl
  have hhalt : machine.reset.opened.memory.get 0x10AC = 0x76 := by
    rw [hget _ (by decide), bootingRom, List.getElem?_append_right (by decide), List.getElem?_replicate]
    rfl
  obtain ⟨fuel, hfuel⟩ : ∃ fuel, Ula.tstatesPerFrame - Bus.clock machine.reset.opened = fuel + 1 := ⟨69887, rfl⟩
  obtain ⟨r, halted, clock, hrun, -⟩ := Cpu.runFor_halt Ula.tstatesPerFrame fuel { regs := { pc := 0x10AC, r := 1 } }
    { machine.reset.opened with clock := 10 } hhalt
  have hcpu : machine.reset.cpu = {} := rfl
  rw [Machine.atRomReady_iff, Machine.renderFrame_cpu, Machine.executed, Machine.acknowledged, hcpu,
    Cpu.run_interrupt_of_disabled rfl, Cpu.runUntil, hfuel, Cpu.runFor_succ (show 0 < Ula.tstatesPerFrame by decide), hjump,
    hrun]
  rfl

/-- A task on whose machine the ROM waits for a key is reset with a notice before anything else. -/
theorem step_reset {machine : Machine} (hkind : machine.romKind = .sinclair) :
    Task.step { machine := machine } (.command (.reset (some 0))) =
      ({ machine := machine.reset, notice := some 0 }, [report .info "reset"]) := by
  have hopen : machine.romKind ≠ .openSe := by
    rw [hkind]
    exact RomKind.noConfusion
  rw [step_of_running rfl, execute, reset_of_notice_none hopen rfl]

/-- A new machine with that ROM is reset with a notice. After one frame it waits for a key, and the next frame tells. -/
theorem told_true_bootingRom : ∃ machine, Machine.create { rom := bootingRom } = .ok machine ∧ machine.romKind = .sinclair ∧
    (0, true) ∈ told ((Task.run { machine := machine } [.command (.reset (some 0)), .command (.renderFrame false)]).1.step
      (.command (.renderFrame false))).2 ∧ machine.reset.Reaches [.frame] := by
  obtain ⟨machine, hcreate⟩ : ∃ machine, Machine.create { rom := bootingRom } = .ok machine :=
    ⟨_, Machine.create_eq_ok_iff.mpr ⟨length_bootingRom, rfl⟩⟩
  obtain ⟨-, hrom, hkind⟩ := Machine.settings_of_create hcreate
  rw [romKindOf_bootingRom] at hkind
  have hready : machine.reset.renderFrame.atRomReady = true := atRomReady_bootingRom hrom
  have htold : (0, true) ∈ told ((Task.run { machine := machine } [.command (.reset (some 0)),
      .command (.renderFrame false)]).1.step (.command (.renderFrame false))).2 := by
    have hlast : (Task.run { machine := machine } [.command (.reset (some 0)), .command (.renderFrame false)]).1 =
        { machine := machine.reset.renderFrame, notice := some 0 } := by
      rw [run_cons, step_reset hkind, run_cons, step_of_running rfl, execute, renderFrame_fst]
      rfl
    rw [hlast, told_true_iff hkind]
    exact ⟨rfl, rfl, hready⟩
  obtain ⟨-, -, early, since, hsplit, -, -, -, hreaches, -⟩ := told_true machine hkind _ _ 0 htold
  obtain ⟨rfl, rfl⟩ : early = [] ∧ since = [.command (.renderFrame false)] := by
    cases early with
    | nil => simpa using hsplit.symm
    | cons first rest => cases rest <;> simp at hsplit
  have hhistory : (Task.run { machine := machine } [.command (.reset (some 0))]).1.history [.command (.renderFrame false)] =
      [.frame] := by
    rw [run_cons, step_reset hkind]
    rfl
  rw [List.nil_append, hhistory] at hreaches
  exact ⟨machine, hcreate, hkind, htold, hreaches fun snapshot hload => by simp at hload⟩

/-- RAM of zeros, and the program counter where the ROM waits for a key. -/
def waitingSnapshot : Snapshot := { cpu := { registers := { pc := Machine.romReadyPc } } }

/-- A machine is reset with a notice and takes a snapshot before it has run any frame. The next frame tells that the ROM has
started. -/
theorem told_true_waitingSnapshot : ∃ machine, Machine.create { rom := List.replicate Memory.romSize 0 } = .ok machine ∧
    machine.romKind = .sinclair ∧
    let start : Task := { machine := machine }
    let past := [.command (.reset (some 0)), .command (.loadSnapshot waitingSnapshot .sna)]
    (0, true) ∈ told ((start.run past).1.step (.command (.renderFrame false))).2 ∧
      .frame ∉ start.history past ∧ .load waitingSnapshot ∈ start.history past ∧ waitingSnapshot.problem? = none := by
  obtain ⟨machine, hcreate⟩ : ∃ machine, Machine.create { rom := List.replicate Memory.romSize 0 } = .ok machine :=
    ⟨_, Machine.create_eq_ok_iff.mpr ⟨List.length_replicate, rfl⟩⟩
  obtain ⟨-, -, hkind⟩ := Machine.settings_of_create hcreate
  rw [Machine.romKindOf_of_not_mem (by simp [List.mem_replicate])] at hkind
  refine ⟨machine, hcreate, hkind, ?_⟩
  have hproblem : waitingSnapshot.problem? = none := Snapshot.problem?_eq_none_iff.mpr ⟨List.length_replicate, by decide⟩
  intro start past
  have hlast : (start.run past).1 = { machine := machine.reset.restore waitingSnapshot, notice := some 0 } := by
    rw [run_cons, step_reset hkind, run_cons, step_of_running rfl, execute, load, Machine.loadSnapshot, hproblem]
    rfl
  have hhistory : start.history past = [.reset, .load waitingSnapshot] := by
    rw [history, step_reset hkind]
    rfl
  refine ⟨?_, ?_, ?_, hproblem⟩
  · rw [hlast, told_true_iff hkind]
    exact ⟨rfl, rfl, rfl⟩
  · rw [hhistory]
    simp
  · rw [hhistory]
    simp

end Task

end ZxSpectrum
