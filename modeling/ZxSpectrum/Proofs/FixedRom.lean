import ZxSpectrum.Proofs.BusCycles
import ZxSpectrum.Proofs.Forgetting
import ZxSpectrum.Proofs.PrefixChains
import ZxSpectrum.Proofs.ProgramParts

/-!
# The ROM does not change

No bus cycle changes a byte of the ROM (`keeps_holdsRom`), and nothing else that is done to a machine does
(`holdsRom_perform`). Writes take their time all the same: what the processor executes changes a byte only right after an
access of three T-states to its address (`closed_paced`), be it ROM or not. `rom_fixed` puts both together.
-/

namespace ZxSpectrum

open BusProgram

variable {α γ β : Type}

/-! ## Cycles one after the other -/

/-- The bus after some cycles. -/
def Cycle.playAll [Bus β] (cycles : List (Nat × Cycle)) (bus : β) : β := cycles.foldl (fun bus cycle => cycle.2.play bus) bus

/-- What every cycle keeps, whichever it is. -/
theorem Keeps.play [Bus β] {holds : β → Prop} (keeps : Keeps holds) (cycle : Cycle) {bus : β} (h : holds bus) :
    holds (cycle.play bus) := by
  cases cycle with
  | idle time => exact keeps.idle time h
  | contend address time => exact keeps.contend address time h
  | peek address => exact h
  | poke address value => exact keeps.poke address value h
  | input port value => exact keeps.input port h
  | output port value => exact keeps.output port value h

/-- What every cycle keeps, cycles one after the other keep. -/
theorem Keeps.playAll [Bus β] {holds : β → Prop} (keeps : Keeps holds) (cycles : List (Nat × Cycle)) {bus : β} (h : holds bus) :
    holds (Cycle.playAll cycles bus) :=
  List.foldlRecOn cycles _ h fun _ h cycle _ => keeps.play cycle.2 h

namespace BusProgram

/-- A run is its cycles, one after the other. -/
theorem playAll_cycles [Bus β] (program : BusProgram α) (bus : β) :
    Cycle.playAll (program.cycles bus) bus = (program.run bus).2 :=
  run_cycles (motive := fun bus cycles last => Cycle.playAll cycles bus = last) (fun _ => rfl)
    (fun _ _ _ _ h => h) program bus

/-- A cycle begins when those before it are over. -/
theorem time_of_cycles [Bus β] (program : BusProgram α) (bus : β) : ∀ {seen rest : List (Nat × Cycle)} {time : Nat} {cycle : Cycle},
    program.cycles bus = seen ++ (time, cycle) :: rest → time = Bus.clock (Cycle.playAll seen bus) := by
  refine run_cycles (motive := fun bus cycles _ => ∀ {seen rest : List (Nat × Cycle)} {time : Nat} {cycle : Cycle},
    cycles = seen ++ (time, cycle) :: rest → time = Bus.clock (Cycle.playAll seen bus))
    (fun bus seen rest time cycle h => by simp at h) (fun first bus later last ih seen rest time cycle h => ?_) program bus
  cases seen with
  | nil =>
    simp only [List.nil_append, List.cons.injEq, Prod.mk.injEq] at h
    exact h.1.1.symm
  | cons entry seen =>
    simp only [List.cons_append, List.cons.injEq] at h
    obtain ⟨rfl, h⟩ := h
    exact ih h

/-! ## Writes take time -/

/-- Whatever the bus answers, a byte changes only right after an access to its address of three T-states; `paid` is the address
of such an access just before the program. -/
def Paced : BusProgram α → (paid : Option UInt16) → Prop
  | .done _, _ => True
  | .idle _ next, _ => next.Paced none
  | .contend address time next, _ => next.Paced (if time = 3 then some address else none)
  | .peek _ next, _ => ∀ value, (next value).Paced none
  | .poke address _ next, paid => paid = some address ∧ next.Paced none
  | .input _ next, _ => ∀ value, (next value).Paced none
  | .output _ _ next, _ => next.Paced none

theorem Paced.of_none {program : BusProgram α} (h : program.Paced none) (paid : Option UInt16) : program.Paced paid := by
  cases program with
  | poke address value next => exact absurd h.1.symm (Option.some_ne_none address)
  | _ => exact h

theorem Paced.bind {program : BusProgram α} {next : α → BusProgram γ} {paid : Option UInt16} (h : program.Paced paid)
    (hnext : ∀ result, (next result).Paced none) : (program >>= next).Paced paid := by
  induction program generalizing paid with
  | done result => exact (hnext result).of_none paid
  | idle time rest ih => exact ih h
  | contend address time rest ih => exact ih h
  | peek address rest ih => exact fun value => ih value (h value)
  | poke address value rest ih => exact ⟨h.1, ih h.2⟩
  | input port rest ih => exact fun value => ih value (h value)
  | output port value rest ih => exact ih h

theorem closed_paced : Closed fun {_} program => program.Paced none where
  pure _ := trivial
  bind h hnext := h.bind hnext
  wait _ := trivial
  hold _ _ := trivial
  look _ _ := trivial
  read _ _ := trivial
  write _ _ := ⟨rfl, trivial⟩
  readPort _ _ := trivial
  writePort _ _ := trivial

/-- What follows on a cycle that is not the one in question contains that one. -/
theorem split_of_ne {first entry : Nat × Cycle} {cycles seen rest : List (Nat × Cycle)} (hne : first.2 ≠ entry.2)
    (h : first :: cycles = seen ++ entry :: rest) : ∃ later, seen = first :: later ∧ cycles = later ++ entry :: rest := by
  rcases List.cons_eq_append_iff.mp h with ⟨-, hfirst⟩ | hlater
  · rw [List.cons.injEq] at hfirst
    exact absurd (congrArg Prod.snd hfirst.1.symm) hne
  · exact hlater

/-- In a run of such a program a byte changes right after an access to its address. -/
theorem Paced.access_of_cycles [Bus β] {program : BusProgram α} {paid : Option UInt16} (h : program.Paced paid) (bus : β)
    {seen rest : List (Nat × Cycle)} {time : Nat} {address : UInt16} {value : UInt8}
    (hsplit : program.cycles bus = seen ++ (time, .poke address value) :: rest) :
    (seen = [] ∧ paid = some address) ∨ ∃ earlier start, seen = earlier ++ [(start, .contend address 3)] := by
  -- An access before later cycles, which begin unpaid, comes before all.
  have hcons : ∀ {first : Nat × Cycle} {later : List (Nat × Cycle)},
      ((later = [] ∧ none = some address) ∨ ∃ earlier start, later = earlier ++ [(start, Cycle.contend address 3)]) →
        ∃ earlier start, first :: later = earlier ++ [(start, Cycle.contend address 3)] := by
    rintro first later (⟨-, hnone⟩ | ⟨earlier, start, rfl⟩)
    · exact absurd hnone.symm (Option.some_ne_none address)
    · exact ⟨first :: earlier, start, rfl⟩
  induction program generalizing paid bus seen with
  | done result => simp [cycles] at hsplit
  | idle length next ih =>
    obtain ⟨later, rfl, hlater⟩ := split_of_ne Cycle.noConfusion hsplit
    exact .inr (hcons (ih h _ hlater))
  | contend place length next ih =>
    obtain ⟨later, rfl, hlater⟩ := split_of_ne Cycle.noConfusion hsplit
    rcases ih h _ hlater with ⟨rfl, hpaid⟩ | haccess
    · split at hpaid
      · rename_i hlength
        obtain rfl := Option.some.inj hpaid
        exact .inr ⟨[], Bus.clock bus, by rw [hlength]; rfl⟩
      · exact absurd hpaid.symm (Option.some_ne_none address)
    · exact .inr (hcons (.inr haccess))
  | peek place next ih =>
    obtain ⟨later, rfl, hlater⟩ := split_of_ne Cycle.noConfusion hsplit
    exact .inr (hcons (ih _ (h _) _ hlater))
  | poke place byte next ih =>
    rcases List.cons_eq_append_iff.mp hsplit with ⟨rfl, hfirst⟩ | ⟨later, rfl, hlater⟩
    · simp only [List.cons.injEq, Prod.mk.injEq, Cycle.poke.injEq] at hfirst
      obtain ⟨⟨-, rfl, -⟩, -⟩ := hfirst
      exact .inl ⟨rfl, h.1⟩
    · exact .inr (hcons (ih h.2 _ hlater))
  | input port next ih =>
    obtain ⟨later, rfl, hlater⟩ := split_of_ne Cycle.noConfusion hsplit
    exact .inr (hcons (ih _ (h _) _ hlater))
  | output port byte next ih =>
    obtain ⟨later, rfl, hlater⟩ := split_of_ne Cycle.noConfusion hsplit
    exact .inr (hcons (ih h _ hlater))

end BusProgram

/-! ## The ROM -/

/-- An access to the ROM does not wait. -/
theorem Ula.access_of_isRom {address : UInt16} (h : Memory.isRom address = true) (time clock : Nat) :
    access address time clock = clock + time := by
  have hfree : ¬ isContended address = true := by
    rw [isContended_iff]
    have hlt : address.toNat < 16384 := (Memory.isRom_iff address).mp h
    omega
  rw [access, if_neg hfree]

/-- Below RAM the memory of the board is a ROM. -/
def Board.HoldsRom (rom : List UInt8) (board : Board) : Prop :=
  ∀ address, Memory.isRom address = true → rom[address.toNat]? = some (board.memory.get address)

namespace Board

variable {rom : List UInt8} {board : Board}

/-- That is, what is there is what a ROM of the right size put there. -/
theorem holdsRom_iff (hlength : rom.length = Memory.romSize) : board.HoldsRom rom ↔
    ∀ address, Memory.isRom address = true → board.memory.get address = (Memory.ofRom rom).get address := by
  refine forall₂_congr fun address haddress => ?_
  have hlt : address.toNat < rom.length := by
    rw [hlength]
    exact (Memory.isRom_iff address).mp haddress
  rw [Memory.get_ofRom hlength, if_pos haddress, List.getElem?_eq_getElem hlt, Option.getD_some, Option.some.injEq, eq_comm]

theorem keeps_holdsRom (hlength : rom.length = Memory.romSize) : Keeps (HoldsRom rom) := by
  have hsame : HoldsRom rom = fun board => ∀ address, Memory.isRom address = true →
      board.memory.get address = (Memory.ofRom rom).get address := funext fun _ => propext (holdsRom_iff hlength)
  rw [hsame]
  exact keeps_rom (Memory.ofRom rom)

end Board

namespace Machine

/-- Whatever is done to a machine keeps its ROM in place. -/
theorem holdsRom_perform {machine : Machine} (hlength : machine.rom.length = Memory.romSize)
    (h : machine.board.HoldsRom machine.rom) (operation : Operation) :
    (machine.perform operation).board.HoldsRom machine.rom := by
  cases operation with
  | frame => exact executed_of_keeps (Board.keeps_holdsRom hlength) h
  | reset => exact (Board.holdsRom_iff hlength).mpr fun _ _ => rfl
  | load snapshot =>
    rw [perform]
    split
    · rename_i loaded hload
      obtain ⟨hproblem, rfl⟩ := loadSnapshot_eq_ok_iff.mp hload
      refine (Board.holdsRom_iff hlength).mpr fun address haddress => ?_
      rw [memory_restore, Memory.get_loadRam _ (Snapshot.problem?_eq_none_iff.mp hproblem).1, if_pos haddress]
    · exact h
  | _ => exact h

theorem holdsRom_foldl_perform {machine : Machine} (hlength : machine.rom.length = Memory.romSize)
    (h : machine.board.HoldsRom machine.rom) (past : List Operation) :
    (past.foldl perform machine).board.HoldsRom machine.rom := by
  induction past generalizing machine with
  | nil => exact h
  | cons operation rest ih =>
    have hrom := (machine.rom_perform operation).1
    have hnext : (machine.perform operation).board.HoldsRom (machine.perform operation).rom := by
      rw [hrom]
      exact holdsRom_perform hlength h operation
    have hlast := ih (by rw [hrom, hlength]) hnext
    rw [hrom] at hlast
    exact hlast

/-- Whatever a machine goes through, its ROM stays, from cycle to cycle of each frame, and at the end of all cycles the frame
has been executed. In a frame a byte changes when three T-states of access to its address are over, waits included; if the
address belongs to the ROM, there are no waits, and nothing changes. -/
theorem rom_fixed {config : Config} {machine : Machine} (hcreate : create config = .ok machine) (past : List Operation) :
    let now := past.foldl perform machine
    now.board.HoldsRom config.rom ∧
      Cycle.playAll (now.frameProgram.cycles now.opened) now.opened = now.executed.2 ∧
      ∀ seen rest, now.frameProgram.cycles now.opened = seen ++ rest →
        (Cycle.playAll seen now.opened).HoldsRom config.rom ∧
          ∀ time address value later, rest = (time, .poke address value) :: later →
            ∃ earlier start, seen = earlier ++ [(start, .contend address 3)] ∧ time = Ula.access address 3 start ∧
              (Memory.isRom address = true → time = start + 3 ∧
                (Cycle.poke address value).play (Cycle.playAll seen now.opened) = Cycle.playAll seen now.opened) := by
  intro now
  obtain ⟨hlength, -⟩ := create_eq_ok_iff.mp hcreate
  obtain ⟨-, hrom, -⟩ := settings_of_create hcreate
  have hstart : machine.board.HoldsRom machine.rom := by
    obtain ⟨-, rfl⟩ := create_eq_ok_iff.mp hcreate
    exact (Board.holdsRom_iff hlength).mpr fun _ _ => rfl
  have hnow : now.board.HoldsRom config.rom := by
    rw [← hrom]
    exact holdsRom_foldl_perform (by rw [hrom, hlength]) hstart past
  have hopened : now.opened.HoldsRom config.rom := hnow
  refine ⟨hnow, ?_, fun seen rest hsplit => ⟨(Board.keeps_holdsRom hlength).playAll seen hopened, ?_⟩⟩
  · rw [playAll_cycles, run_frameProgram]
  · rintro time address value later rfl
    have htime := time_of_cycles _ _ hsplit
    rcases (closed_paced.frameProgram now).access_of_cycles _ hsplit with ⟨-, hnone⟩ | ⟨earlier, start, rfl⟩
    · exact absurd hnone.symm (Option.some_ne_none address)
    have hstart : start = (Cycle.playAll earlier now.opened).clock :=
      time_of_cycles now.frameProgram now.opened (by rw [hsplit, List.append_assoc]; rfl)
    have haccess : time = Ula.access address 3 start := by
      rw [htime, hstart, Cycle.playAll, List.foldl_append]
      rfl
    refine ⟨earlier, start, rfl, haccess, fun hisRom => ⟨?_, ?_⟩⟩
    · rw [haccess, Ula.access_of_isRom hisRom]
    · exact if_pos hisRom

/-- A ROM that stores the accumulator over its own first byte. -/
def selfWritingRom : List UInt8 := 0x32 :: List.replicate 16383 0

theorem length_selfWritingRom : selfWritingRom.length = Memory.romSize := by
  rw [selfWritingRom, List.length_cons, List.length_replicate]
  rfl

/-- In the first frame of that ROM the write comes after ten T-states of reads. -/
theorem cycles_selfWritingRom {machine : Machine} (h : create { rom := selfWritingRom } = .ok machine) :
    ∃ seen later, machine.frameProgram.cycles machine.opened = seen ++ (13, .poke 0 0) :: later := by
  obtain ⟨-, hmachine⟩ := create_eq_ok_iff.mp h
  have hcpu : machine.cpu = {} := by rw [hmachine, reset]
  have hclock : machine.opened.clock = 0 := by
    rw [hmachine]
    rfl
  have hmemory : machine.opened.memory = Memory.ofRom selfWritingRom := by rw [hmachine, reset, opened, Board.beginFrame]
  have hget : ∀ a : UInt16, Memory.isRom a = true → machine.opened.memory.get a = selfWritingRom[a.toNat]?.getD 0 := by
    intro a ha
    rw [hmemory, Memory.get_ofRom length_selfWritingRom, if_pos ha]
  have hinterrupt : (Cpu.interrupt {}).run machine.opened = _ := Cpu.run_interrupt_of_disabled rfl machine.opened
  have hcount : ∃ count, machine.frameProgram = Cpu.interrupt {} >>= fun taken => taken.2.steps (count + 1) := by
    have hfuel : Ula.tstatesPerFrame - machine.opened.clock = 69887 + 1 := by rw [hclock]; rfl
    have hrunning : Bus.clock machine.opened < Ula.tstatesPerFrame := by
      change machine.opened.clock < _
      rw [hclock]
      decide
    refine ⟨Cpu.stepsUntil Ula.tstatesPerFrame 69887 (Cpu.step {} |>.run machine.opened).1
      (Cpu.step {} |>.run machine.opened).2, ?_⟩
    rw [frameProgram, acknowledged, hcpu, hinterrupt, hfuel, Cpu.stepsUntil, if_pos hrunning]
  have hexecute : ∀ board : Board, (Instruction.storeAccumulatorAbsolute.execute (Cpu.fetched {})).cycles board =
      [(board.clock, .contend 1 3), (Ula.access 1 3 board.clock, .peek 1), (Ula.access 1 3 board.clock, .contend 2 3),
        (Ula.access 2 3 (Ula.access 1 3 board.clock), .peek 2),
        (Ula.access 2 3 (Ula.access 1 3 board.clock),
          .contend (Word.ofBytes (board.memory.get 2) (board.memory.get 1)) 3),
        (Ula.access (Word.ofBytes (board.memory.get 2) (board.memory.get 1)) 3
          (Ula.access 2 3 (Ula.access 1 3 board.clock)),
          .poke (Word.ofBytes (board.memory.get 2) (board.memory.get 1)) 0)] := fun _ => rfl
  obtain ⟨count, hprogram⟩ := hcount
  have hcycles : machine.frameProgram.cycles machine.opened = (Cpu.interrupt {}).cycles machine.opened ++
      (Cpu.step {} >>= Cpu.steps count).cycles machine.opened := by
    rw [hprogram, cycles_bind, hinterrupt]
    rfl
  have hstep : (Cpu.step {}).cycles machine.opened = [(0, .contend 0 4), (4, .peek 0), (4, .contend 1 3), (7, .peek 1),
      (7, .contend 2 3), (10, .peek 2), (10, .contend 0 3), (13, .poke 0 0)] := by
    rw [Cpu.cycles_step {} machine.opened .storeAccumulatorAbsolute (by rw [hget _ (by decide)]; rfl), hexecute,
      hget _ (by decide), hget _ (by decide), hclock]
    rfl
  rw [hcycles, cycles_bind, hstep]
  exact ⟨(Cpu.interrupt {}).cycles machine.opened ++ [(0, .contend 0 4), (4, .peek 0), (4, .contend 1 3), (7, .peek 1),
    (7, .contend 2 3), (10, .peek 2), (10, .contend 0 3)], _, by rw [List.append_assoc]; rfl⟩

/-- Its write takes three T-states and is lost. -/
theorem rom_fixed_selfWritingRom : ∃ machine, create { rom := selfWritingRom } = .ok machine ∧
    (∃ earlier later, machine.frameProgram.cycles machine.opened =
      earlier ++ (10, .contend 0 3) :: (13, .poke 0 0) :: later) ∧
    machine.renderFrame.board.memory.get 0 = 0x32 := by
  obtain ⟨machine, hcreate⟩ : ∃ machine, create { rom := selfWritingRom } = .ok machine :=
    ⟨_, create_eq_ok_iff.mpr ⟨length_selfWritingRom, rfl⟩⟩
  obtain ⟨seen, later, hsplit⟩ := cycles_selfWritingRom hcreate
  obtain ⟨-, -, hcycles⟩ := rom_fixed hcreate []
  obtain ⟨earlier, start, rfl, -, htime⟩ := (hcycles _ _ hsplit).2 13 0 0 later rfl
  obtain rfl : start = 10 := by
    have := (htime (by decide)).1
    omega
  refine ⟨machine, hcreate, ⟨earlier, later, ?_⟩, ?_⟩
  · rw [hsplit, List.append_assoc]
    rfl
  · have hfirst := (rom_fixed hcreate [.frame]).1 0 (by decide)
    exact (Option.some.inj hfirst).symm

end Machine

end ZxSpectrum
