import Mathlib.Algebra.Ring.Nat
import ZxSpectrum.Bus.Flat
import ZxSpectrum.Proofs.BusRuns

/-!
# Bus cycles and what they cost

The cycles of a run, each with the time at which it begins (`cycles`). On the flat bus they take their own time and no more
(`flat_clock_run`); on the main board each of them may ask how long it has to wait, at the times `lookups`, and what it is
told comes on top (`board_clock_run`). All this happens between the begin and the end of the run (`mem_cycles`,
`mem_lookups`).
-/

namespace ZxSpectrum

variable {α γ β : Type}

/-- A bus cycle, with the byte that it moved. -/
inductive Cycle where
  | idle (time : Nat)
  | contend (address : UInt16) (time : Nat)
  | peek (address : UInt16)
  | poke (address : UInt16) (value : UInt8)
  | input (port : UInt16) (value : UInt8)
  | output (port : UInt16) (value : UInt8)
deriving DecidableEq

/-- T-states of a cycle beside its waits. -/
def Cycle.time : Cycle → Nat
  | .idle time | .contend _ time => time
  | .peek _ | .poke _ _ => 0
  | .input _ _ | .output _ _ => FlatBus.portTime

/-- The bus after a cycle. -/
def Cycle.play [Bus β] : Cycle → β → β
  | .idle time, bus => Bus.idle time bus
  | .contend address time, bus => Bus.contend address time bus
  | .peek _, bus => bus
  | .poke address value, bus => Bus.poke address value bus
  | .input port _, bus => (Bus.input port bus).2
  | .output port value, bus => Bus.output port value bus

/-! ## Waits of one cycle -/

namespace Ula

/-- When an access to an address asks how long it has to wait. -/
def accessLookups (address : UInt16) (clock : Nat) : List Nat := if isContended address then [clock] else []

/-- When the rest of a port access asks, after the T-state in which the port address is on the bus. -/
def afterPortLookups (port : UInt16) (clock : Nat) : List Nat :=
  if isUlaPort port then [clock]
  else if isContended port then [clock, contend 1 clock, contend 1 (contend 1 clock)]
  else []

/-- When a cycle that begins at a time asks how long it has to wait. -/
def lookups (start : Nat) : Cycle → List Nat
  | .contend address _ => accessLookups address start
  | .input port _ | .output port _ => accessLookups port start ++ afterPortLookups port (beforePort port start)
  | .idle _ | .peek _ | .poke _ _ => []

/-- What a cycle is told at some times, together. -/
def waits (times : List Nat) : Nat := (times.map delay).sum

theorem waits_append (times more : List Nat) : waits (times ++ more) = waits times + waits more := by
  rw [waits, List.map_append, List.sum_append]
  rfl

/-- A cycle waits at most six T-states. -/
theorem delay_le (clock : Nat) : delay clock ≤ 6 := by
  have hall : ∀ i (h : i < 8), contentionPattern[i] ≤ 6 := by decide
  unfold delay
  split
  · dsimp only
    split
    · exact hall _ _
    · exact Nat.zero_le 6
  · exact Nat.zero_le 6

theorem waits_le (times : List Nat) : waits times ≤ 6 * times.length := by
  induction times with
  | nil => exact Nat.zero_le _
  | cons time times ih =>
    have hone := delay_le time
    have hwaits : waits (time :: times) = delay time + waits times := List.sum_cons
    rw [hwaits, List.length_cons]
    omega

theorem access_eq (address : UInt16) (time clock : Nat) :
    access address time clock = clock + time + waits (accessLookups address clock) := by
  unfold access accessLookups
  split
  · simp only [contend, waits, List.map_cons, List.map_nil, List.sum_cons, List.sum_nil]
    omega
  · rfl

theorem afterPort_eq (port : UInt16) (clock : Nat) :
    afterPort port clock = clock + 3 + waits (afterPortLookups port clock) := by
  unfold afterPort afterPortLookups
  split
  · simp only [contend, waits, List.map_cons, List.map_nil, List.sum_cons, List.sum_nil]
    omega
  · split
    · simp only [contend, waits, List.map_cons, List.map_nil, List.sum_cons, List.sum_nil]
      omega
    · rfl

/-- A port access takes four T-states and its waits. -/
theorem port_eq (port : UInt16) (clock : Nat) : afterPort port (beforePort port clock) = clock + FlatBus.portTime +
    waits (accessLookups port clock ++ afterPortLookups port (beforePort port clock)) := by
  rw [afterPort_eq, waits_append]
  have hbefore : beforePort port clock = clock + 1 + waits (accessLookups port clock) := access_eq port 1 clock
  have htime : FlatBus.portTime = 4 := rfl
  omega

theorem mem_accessLookups {address : UInt16} {clock time : Nat} (h : time ∈ accessLookups address clock) :
    time = clock := by
  unfold accessLookups at h
  split at h
  · exact List.mem_singleton.mp h
  · exact absurd h List.not_mem_nil

theorem mem_afterPortLookups {port : UInt16} {clock time : Nat} (h : time ∈ afterPortLookups port clock) :
    clock ≤ time ∧ time ≤ afterPort port clock := by
  have h1 := clock_le_contend 1 clock
  have h2 := clock_le_contend 1 (contend 1 clock)
  have h3 := clock_le_contend 1 (contend 1 (contend 1 clock))
  have hula := clock_le_contend 3 clock
  unfold afterPortLookups at h
  unfold afterPort
  split at h
  · rw [if_pos ‹_›]
    have htime := List.mem_singleton.mp h
    omega
  · rw [if_neg ‹_›]
    split at h
    · rw [if_pos ‹_›]
      simp only [List.mem_cons, List.not_mem_nil, or_false] at h
      omega
    · exact absurd h List.not_mem_nil

/-- An access to an address asks at most once. -/
theorem length_accessLookups_le (address : UInt16) (clock : Nat) : (accessLookups address clock).length ≤ 1 := by
  unfold accessLookups
  split <;> simp

/-- A port access asks at most once in each of its four T-states. -/
theorem length_portLookups_le (port : UInt16) (clock : Nat) :
    (accessLookups port clock ++ afterPortLookups port (beforePort port clock)).length ≤ 4 := by
  have hafter : ∀ clock, (afterPortLookups port clock).length ≤ 3 := fun clock => by
    unfold afterPortLookups
    split
    · simp
    · split <;> simp
  rw [List.length_append]
  exact Nat.add_le_add (length_accessLookups_le port clock) (hafter _)

/-- Screen bytes are being fetched. -/
def Fetches (time : Nat) : Prop :=
  (contentionStart ≤ time ∧ time < contentionStart + screenLines * tstatesPerLine) ∧
    (time - contentionStart) % tstatesPerLine < fetchLength

instance (time : Nat) : Decidable (Fetches time) := inferInstanceAs (Decidable (_ ∧ _))

/-- Nobody waits while nothing is fetched. -/
theorem delay_of_not_fetches {time : Nat} (h : ¬ Fetches time) : delay time = 0 := by
  unfold delay
  split
  · rename_i hlines
    exact if_neg fun hfetch => h ⟨hlines, hfetch⟩
  · rfl

theorem waits_of_not_fetches {times : List Nat} (h : ∀ time ∈ times, ¬ Fetches time) : waits times = 0 := by
  rw [waits, List.sum_eq_zero_iff_forall_eq_nat]
  intro wait hwait
  obtain ⟨time, htime, rfl⟩ := List.mem_map.mp hwait
  exact delay_of_not_fetches (h time htime)

/-- When the last line of the bitmap is over. -/
def contentionEnd : Nat := contentionStart + screenLines * tstatesPerLine

theorem waits_of_late {times : List Nat} (h : ∀ time ∈ times, contentionEnd ≤ time) : waits times = 0 :=
  waits_of_not_fetches fun time hmem hfetches => Nat.not_lt_of_le (h time hmem) hfetches.1.2

end Ula

/-! ## Cycles of a run -/

namespace BusProgram

/-- The bus cycles of a run, each after the time at which it begins. -/
def cycles [Bus β] : BusProgram α → β → List (Nat × Cycle)
  | .done _, _ => []
  | .idle t next, b => (Bus.clock b, .idle t) :: next.cycles (Bus.idle t b)
  | .contend a t next, b => (Bus.clock b, .contend a t) :: next.cycles (Bus.contend a t b)
  | .peek a next, b => (Bus.clock b, .peek a) :: (next (Bus.peek a b)).cycles b
  | .poke a v next, b => (Bus.clock b, .poke a v) :: next.cycles (Bus.poke a v b)
  | .input p next, b =>
    (Bus.clock b, .input p (Bus.input p b).1) :: (next (Bus.input p b).1).cycles (Bus.input p b).2
  | .output p v next, b => (Bus.clock b, .output p v) :: next.cycles (Bus.output p v b)

/-- T-states of the cycles of a run, without waits. -/
def time [Bus β] (program : BusProgram α) (b : β) : Nat := ((program.cycles b).map fun cycle => cycle.2.time).sum

/-- When a run on the main board asks how long it has to wait. -/
def lookups (program : BusProgram α) (board : Board) : List Nat :=
  (program.cycles board).flatMap fun cycle => Ula.lookups cycle.1 cycle.2

/-- A sequence has the cycles of its parts. -/
theorem cycles_bind [Bus β] (program : BusProgram α) (next : α → BusProgram γ) (b : β) : (program >>= next).cycles b =
    program.cycles b ++ (next (program.run b).1).cycles (program.run b).2 := by
  change (program.bind next).cycles b = _
  induction program generalizing b <;> simp_all [BusProgram.bind, cycles, run]

/-- What holds of no cycles, and of one cycle more if it holds of those after it, holds of the cycles of a run. -/
theorem run_cycles [Bus β] {motive : β → List (Nat × Cycle) → β → Prop} (none : ∀ b, motive b [] b)
    (more : ∀ cycle b rest last, motive (cycle.play b) rest last → motive b ((Bus.clock b, cycle) :: rest) last)
    (program : BusProgram α) (b : β) : motive b (program.cycles b) (program.run b).2 := by
  induction program generalizing b with
  | done result => exact none b
  | idle time next ih => exact more (.idle time) b _ _ (ih _)
  | contend address time next ih => exact more (.contend address time) b _ _ (ih _)
  | peek address next ih => exact more (.peek address) b _ _ (ih _ b)
  | poke address value next ih => exact more (.poke address value) b _ _ (ih _)
  | input port next ih => exact more (.input port (Bus.input port b).1) b _ _ (ih _ _)
  | output port value next ih => exact more (.output port value) b _ _ (ih _)

/-- On the flat bus a run takes the time of its cycles. -/
theorem flat_clock_run (program : BusProgram α) (flat : FlatBus) :
    (program.run flat).2.clock = flat.clock + program.time flat := by
  refine run_cycles (motive := fun flat cycles last => last.clock = flat.clock + (cycles.map (·.2.time)).sum) (fun _ => rfl)
    (fun cycle flat rest last h => ?_) program flat
  rw [h, List.map_cons, List.sum_cons, ← Nat.add_assoc]
  cases cycle <;> rfl

end BusProgram

/-- A cycle on the main board takes its own time and what it has to wait. -/
theorem Board.clock_play (cycle : Cycle) (board : Board) :
    (cycle.play board).clock = board.clock + cycle.time + Ula.waits (Ula.lookups board.clock cycle) := by
  cases cycle with
  | contend address time => exact Ula.access_eq address time board.clock
  | poke address value => exact (Board.clock_poke address value board).1
  | input port value => exact Ula.port_eq port board.clock
  | output port value => exact Ula.port_eq port board.clock
  | _ => rfl

/-- A cycle on the main board asks before it is over. -/
theorem Board.mem_lookups_play {cycle : Cycle} {board : Board} {time : Nat} (h : time ∈ Ula.lookups board.clock cycle) :
    board.clock ≤ time ∧ time ≤ (cycle.play board).clock := by
  have hport : ∀ port, time ∈ Ula.accessLookups port board.clock ++
      Ula.afterPortLookups port (Ula.beforePort port board.clock) →
      board.clock ≤ time ∧ time ≤ Ula.afterPort port (Ula.beforePort port board.clock) := fun port hmem => by
    have hbefore := Ula.clock_le_beforePort port board.clock
    have hafter := Ula.clock_le_afterPort port (Ula.beforePort port board.clock)
    rcases List.mem_append.mp hmem with hmem | hmem
    · have htime := Ula.mem_accessLookups hmem
      omega
    · have htime := Ula.mem_afterPortLookups hmem
      omega
  cases cycle with
  | contend address length =>
    have htime := Ula.mem_accessLookups h
    have hle : board.clock ≤ ((Cycle.contend address length).play board).clock :=
      Ula.clock_le_access address length board.clock
    omega
  | input port value => exact hport port h
  | output port value => exact hport port h
  | _ => exact absurd h List.not_mem_nil

namespace BusProgram

/-- On the main board the waits come on top. -/
theorem board_clock_run (program : BusProgram α) (board : Board) :
    (program.run board).2.clock = board.clock + program.time board + Ula.waits (program.lookups board) := by
  refine run_cycles (motive := fun board cycles last => last.clock = board.clock + (cycles.map (·.2.time)).sum +
    Ula.waits (cycles.flatMap fun cycle => Ula.lookups cycle.1 cycle.2)) (fun _ => rfl)
    (fun cycle board rest last h => ?_) program board
  have hplay := Board.clock_play cycle board
  rw [List.map_cons, List.sum_cons, List.flatMap_cons, Ula.waits_append, h, hplay]
  dsimp only [Bus.clock]
  omega

/-- Cycles begin, and ask how long they have to wait, between the begin and the end of the run. -/
theorem mem_cycles (program : BusProgram α) (board : Board) : board.clock ≤ (program.run board).2.clock ∧
    ∀ cycle ∈ program.cycles board, ∀ time ∈ cycle.1 :: Ula.lookups cycle.1 cycle.2,
      board.clock ≤ time ∧ time ≤ (program.run board).2.clock := by
  refine run_cycles (motive := fun board cycles last => board.clock ≤ last.clock ∧
    ∀ cycle ∈ cycles, ∀ time ∈ cycle.1 :: Ula.lookups cycle.1 cycle.2, board.clock ≤ time ∧ time ≤ last.clock)
    (fun _ => ⟨Nat.le_refl _, fun _ h => absurd h List.not_mem_nil⟩) (fun cycle board rest last h => ?_) program board
  obtain ⟨hle, hrest⟩ := h
  have hplay : board.clock ≤ (cycle.play board).clock := by
    rw [Board.clock_play]
    omega
  refine ⟨Nat.le_trans hplay hle, fun entry hentry time htime => ?_⟩
  rcases List.mem_cons.mp hentry with rfl | hentry
  · rcases List.mem_cons.mp htime with rfl | htime
    · exact ⟨Nat.le_refl _, Nat.le_trans hplay hle⟩
    · have hasked := Board.mem_lookups_play htime
      exact ⟨hasked.1, Nat.le_trans hasked.2 hle⟩
  · have hafter := hrest entry hentry time htime
    exact ⟨Nat.le_trans hplay hafter.1, hafter.2⟩

theorem mem_lookups {program : BusProgram α} {board : Board} {time : Nat} (h : time ∈ program.lookups board) :
    board.clock ≤ time ∧ time ≤ (program.run board).2.clock := by
  obtain ⟨cycle, hcycle, htime⟩ := List.mem_flatMap.mp h
  exact (program.mem_cycles board).2 cycle hcycle time (List.mem_cons_of_mem _ htime)

end BusProgram

end ZxSpectrum
