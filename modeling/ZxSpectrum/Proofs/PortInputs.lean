import ZxSpectrum.Proofs.KeyMatrix
import ZxSpectrum.Proofs.PortHistory
import ZxSpectrum.Proofs.SaveRestore
import ZxSpectrum.Proofs.TapeActivity

/-!
# What ports answer

A read of a port answers what was last done to its inputs: keys pressed and released, the joystick moved, the tape input driven.
The invariant is `Reflects`: a bit of the key matrix is low if the last change of its key was a press. Bus cycles and frames leave
the inputs alone, and so the answers at any time are given by the history of the inputs (`reads_reflect_inputs`); in a machine
these are the answers that its programs get (`frame_reads_inputs`).
-/

namespace ZxSpectrum

/-! ## The history of the inputs -/

/-- What can be done to the inputs of the ports. -/
inductive InputChange where
  | press (key : Key)
  | release (key : Key)
  | releaseAll
  | joystick (bits : UInt8)
  | tapeEar (ear : Option Bool)
deriving DecidableEq

namespace InputChange

/-- The key that is pressed or released. -/
def key? : InputChange → Option Key
  | press key | release key => some key
  | _ => none

/-- Whether a change presses or releases a key. -/
def concerns (key : Key) : InputChange → Bool
  | press other | release other => other = key
  | releaseAll => true
  | _ => false

def joystick? : InputChange → Option UInt8
  | joystick bits => some bits
  | _ => none

def tapeEar? : InputChange → Option (Option Bool)
  | tapeEar ear => some ear
  | _ => none

/-- What a reset does to the inputs. The tape stays connected. -/
def restart : List InputChange := [releaseAll, joystick 0]

end InputChange

/-- The last change of a key was a press. -/
def Held (history : List InputChange) (key : Key) : Prop := (history.filter (·.concerns key)).getLast? = some (.press key)

instance (history : List InputChange) (key : Key) : Decidable (Held history key) := inferInstanceAs (Decidable (_ = _))

/-- The joystick as it was moved last; at first it is at rest. -/
def joystickAfter (history : List InputChange) : UInt8 := (history.filterMap InputChange.joystick?).getLast?.getD 0

/-- The tape input as it was driven last; at first no tape is connected. -/
def tapeEarAfter (history : List InputChange) : Option Bool := (history.filterMap InputChange.tapeEar?).getLast?.getD none

section History

variable (history : List InputChange) (change : InputChange) (key : Key)

theorem held_concat : Held (history ++ [change]) key ↔
    if change.concerns key then change = .press key else Held history key := by
  unfold Held
  rw [List.filter_append]
  by_cases h : change.concerns key = true
  · rw [if_pos h, List.filter_cons_of_pos h, List.filter_nil, List.getLast?_concat, Option.some.injEq]
  · rw [if_neg h, List.filter_cons_of_neg h, List.filter_nil, List.append_nil]

theorem held_press : Held (history ++ [.press key]) key := by simp [held_concat, InputChange.concerns]

theorem not_held_release : ¬Held (history ++ [.release key]) key := by simp [held_concat, InputChange.concerns]

theorem not_held_releaseAll : ¬Held (history ++ [.releaseAll]) key := by simp [held_concat, InputChange.concerns]

/-- What is held at a place stays held through a change of keys elsewhere, or of none. -/
theorem held_at_iff {row : Fin 8} {column : Nat}
    (h : ∀ key : Key, key.row = row ∧ key.column = column → change.concerns key = false) :
    (∃ key : Key, (key.row = row ∧ key.column = column) ∧ Held (history ++ [change]) key) ↔
      ∃ key : Key, (key.row = row ∧ key.column = column) ∧ Held history key := by
  refine exists_congr fun key => and_congr_right fun hkey => ?_
  rw [held_concat, h key hkey, if_neg Bool.false_ne_true]

theorem joystickAfter_concat : joystickAfter (history ++ [change]) = change.joystick?.getD (joystickAfter history) := by
  unfold joystickAfter
  rw [List.filterMap_append]
  cases h : change.joystick? <;> simp [h]

theorem tapeEarAfter_concat : tapeEarAfter (history ++ [change]) = change.tapeEar?.getD (tapeEarAfter history) := by
  unfold tapeEarAfter
  rw [List.filterMap_append]
  cases h : change.tapeEar? <;> simp [h]

end History

/-! ## Ports that show a history -/

/-- The ports after a change of their inputs. -/
def Ports.change (ports : Ports) : InputChange → Ports
  | .press key => { ports with keyboard := ports.keyboard.press key }
  | .release key => { ports with keyboard := ports.keyboard.release key }
  | .releaseAll => { ports with keyboard := .released }
  | .joystick bits => { ports with joystick := bits }
  | .tapeEar ear => { ports with tapeEar := ear }

/-- A change of a key is one of the two moves of a key on the keyboard. -/
theorem InputChange.change_of_key {change : InputChange} {key : Key} (h : key ∈ change.key?) :
    ∃ move : Keyboard → Key → Keyboard, (move = .press ∨ move = .release) ∧
      ∀ ports : Ports, ports.change change = { ports with keyboard := move ports.keyboard key } := by
  cases change with
  | press other =>
    obtain rfl := Option.some.inj h
    exact ⟨.press, .inl rfl, fun _ => rfl⟩
  | release other =>
    obtain rfl := Option.some.inj h
    exact ⟨.release, .inr rfl, fun _ => rfl⟩
  | _ => exact absurd h (Option.not_mem_none key)

/-- The inputs are as their last changes left them. -/
structure Reflects (history : List InputChange) (ports : Ports) : Prop where
  keys : ∀ row, ∀ column < 8, ports.keyboard.bit row column = false ↔
    ∃ key : Key, (key.row = row ∧ key.column = column) ∧ Held history key
  joystick : ports.joystick = joystickAfter history
  tapeEar : ports.tapeEar = tapeEarAfter history

namespace Reflects

variable {history : List InputChange} {ports other : Ports}

/-- At first nothing is pressed, moved or connected. -/
theorem new : Reflects [] {} where
  keys row column h := by
    have hbit : (Ports.keyboard {}).bit row column = true := Keyboard.bit_released row h
    simp [hbit, Held]
  joystick := rfl
  tapeEar := rfl

theorem of_inputs (reflects : Reflects history ports) (h : other.inputs = ports.inputs) : Reflects history other := by
  obtain ⟨hkeyboard, hjoystick, hear⟩ : other.keyboard = ports.keyboard ∧ other.joystick = ports.joystick ∧
      other.tapeEar = ports.tapeEar := by simpa [Ports.inputs] using h
  exact ⟨by rw [hkeyboard]; exact reflects.keys, hjoystick.trans reflects.joystick, hear.trans reflects.tapeEar⟩

/-- A change of a key changes the bit of that key, which no other key shares. -/
theorem keys_change (reflects : Reflects history ports) (change : InputChange) (row : Fin 8) {column : Nat} (h : column < 8) :
    (ports.change change).keyboard.bit row column = false ↔
      ∃ key : Key, (key.row = row ∧ key.column = column) ∧ Held (history ++ [change]) key := by
  have hkeys := reflects.keys row column h
  cases change with
  | press key =>
    rw [Ports.change, Keyboard.bit_press _ _ _ h]
    by_cases hplace : key.row = row ∧ key.column = column
    · rw [if_pos hplace]
      exact iff_of_true rfl ⟨key, hplace, held_press history key⟩
    · rw [if_neg hplace, hkeys, held_at_iff]
      exact fun other hother => decide_eq_false fun heq => hplace (heq ▸ hother)
  | release key =>
    rw [Ports.change, Keyboard.bit_release]
    by_cases hplace : key.row = row ∧ key.column = column
    · rw [if_pos hplace]
      refine iff_of_false Bool.false_ne_true.symm ?_
      rintro ⟨other, ⟨hrow, hcolumn⟩, hheld⟩
      obtain rfl := Key.eq_of_place (hplace.1.trans hrow.symm) (hplace.2.trans hcolumn.symm)
      exact not_held_release history key hheld
    · rw [if_neg hplace, hkeys, held_at_iff]
      exact fun other hother => decide_eq_false fun heq => hplace (heq ▸ hother)
  | releaseAll =>
    rw [Ports.change, Keyboard.bit_released row h]
    exact iff_of_false Bool.false_ne_true.symm fun ⟨key, _, hheld⟩ => not_held_releaseAll history key hheld
  | joystick bits => exact hkeys.trans (held_at_iff history (.joystick bits) fun _ _ => rfl).symm
  | tapeEar ear => exact hkeys.trans (held_at_iff history (.tapeEar ear) fun _ _ => rfl).symm

/-- A change of the inputs is the last one from then on. -/
theorem change (reflects : Reflects history ports) (change : InputChange) :
    Reflects (history ++ [change]) (ports.change change) where
  keys row _ h := reflects.keys_change change row h
  joystick := by
    rw [joystickAfter_concat]
    cases change with
    | joystick bits => rfl
    | _ => exact reflects.joystick
  tapeEar := by
    rw [tapeEarAfter_concat]
    cases change with
    | tapeEar ear => rfl
    | _ => exact reflects.tapeEar

theorem restart (reflects : Reflects history ports) (h : other.inputs = (.released, 0, ports.tapeEar)) :
    Reflects (history ++ InputChange.restart) other := by
  have hlast := (reflects.change .releaseAll).change (.joystick 0)
  rw [List.append_assoc] at hlast
  exact hlast.of_inputs h

/-- What every step adds to the history, a run adds step after step. -/
theorem foldl {σ ε : Type} (portsOf : σ → Ports) {step : σ → ε → σ} {changes : ε → List InputChange}
    (hstep : ∀ {history : List InputChange} {state : σ}, Reflects history (portsOf state) →
      ∀ event, Reflects (history ++ changes event) (portsOf (step state event)))
    (events : List ε) {state : σ} (reflects : Reflects history (portsOf state)) :
    Reflects (history ++ events.flatMap changes) (portsOf (events.foldl step state)) := by
  induction events generalizing history state with
  | nil => rwa [List.flatMap_nil, List.append_nil]
  | cons event events ih =>
    rw [List.flatMap_cons, ← List.append_assoc]
    exact ih (hstep reflects event)

end Reflects

/-! ## What a read answers -/

/-- The byte that a port answers after a history of the inputs. -/
structure Answers (history : List InputChange) (port : UInt16) (byte : UInt8) : Prop where
  /-- A column of an even port is low while a key of it is held in a half-row that the address selects. -/
  keys : Even port.toNat → ∀ column < 5, byte.toNat.testBit column = false ↔
    ∃ row : Fin 8, port.toNat.testBit (8 + row) = false ∧
      ∃ key : Key, (key.row = row ∧ key.column = column) ∧ Held history key
  /-- Bit 6 is the tape input, which is high while no tape is connected. -/
  ear : Even port.toNat → (byte.toNat.testBit 6 = false ↔ tapeEarAfter history = some false)
  unused : Even port.toNat → byte.toNat.testBit 5 = true ∧ byte.toNat.testBit 7 = true
  joystick : Odd port.toNat → (∀ line ∈ [5, 6, 7], port.toNat.testBit line = false) → byte = joystickAfter history
  /-- Nothing answers at the other odd ports. -/
  nothing : Odd port.toNat → (∃ line ∈ [5, 6, 7], port.toNat.testBit line = true) → byte = 0xFF

/-- A history leaves no choice of the answer. -/
theorem Answers.unique {history : List InputChange} {port : UInt16} {byte other : UInt8} (h : Answers history port byte)
    (hother : Answers history port other) : byte = other := by
  rcases Nat.even_or_odd port.toNat with heven | hodd
  · have hsame : ∀ {x y : Bool} {p : Prop}, (x = false ↔ p) → (y = false ↔ p) → x = y := fun hx hy =>
      Bool.eq_iff_iff.mpr (by simpa using not_congr (hx.trans hy.symm))
    refine byte_ext fun column hcolumn => ?_
    by_cases hkey : column < 5
    · exact hsame (h.keys heven column hkey) (hother.keys heven column hkey)
    · obtain rfl | rfl | rfl : column = 5 ∨ column = 6 ∨ column = 7 := by omega
      · rw [(h.unused heven).1, (hother.unused heven).1]
      · exact hsame (h.ear heven) (hother.ear heven)
      · rw [(h.unused heven).2, (hother.unused heven).2]
  · by_cases hlines : ∀ line ∈ [5, 6, 7], port.toNat.testBit line = false
    · rw [h.joystick hodd hlines, hother.joystick hodd hlines]
    · simp only [not_forall, Bool.not_eq_false, exists_prop] at hlines
      rw [h.nothing hodd hlines, hother.nothing hodd hlines]

namespace Ports

/-- The tape input clears bit 6 of what the keyboard answers, and nothing else. -/
theorem testBit_ulaByte (ports : Ports) (port : UInt16) {column : Nat} (h : column < 8) :
    (ports.ulaByte port).toNat.testBit column =
      ((ports.keyboard.read (Word.high port)).toNat.testBit column && !decide (column = 6 ∧ ports.tapeEar = some false)) := by
  have hmask : ∀ column < 8, (0xBF : UInt8).toNat.testBit column = !decide (column = 6) := by decide
  unfold ulaByte
  by_cases hear : ports.tapeEar = some false
  · rw [if_pos hear, UInt8.toNat_and, Nat.testBit_and, hmask column h]
    simp [hear]
  · rw [if_neg hear]
    simp [hear]

/-- The joystick is at the odd ports with three address lines low. -/
theorem joystick_selected_iff (port : UInt16) :
    (port &&& 0x00E0 == 0) = true ↔ ∀ line ∈ [5, 6, 7], port.toNat.testBit line = false := by
  have hfield : (port &&& 0x00E0).toNat = port.toNat / 2 ^ 5 % 2 ^ 3 * 2 ^ 5 := by
    rw [UInt16.toNat_and]
    exact and_field port.toNat 5 3
  rw [beq_iff_eq, ← UInt16.toNat_inj, hfield]
  simp only [List.forall_mem_cons, List.not_mem_nil, false_implies, implies_true, and_true,
    Nat.testBit_eq_decide_div_mod_eq, decide_eq_false_iff_not, UInt16.toNat_zero]
  omega

end Ports

namespace Reflects

variable {history : List InputChange} {ports : Ports} (reflects : Reflects history ports)

include reflects

/-- A column is low if a key is held in one of the selected half-rows. -/
theorem testBit_read (port : UInt16) {column : Nat} (h : column < 8) :
    (ports.keyboard.read (Word.high port)).toNat.testBit column = false ↔
      ∃ row : Fin 8, port.toNat.testBit (8 + row) = false ∧
        ∃ key : Key, (key.row = row ∧ key.column = column) ∧ Held history key := by
  rw [Keyboard.testBit_read _ _ h]
  exact exists_congr fun row => and_congr (by rw [Alu.testBit_high, Nat.add_comm]) (reflects.keys row column h)

/-- No key is in the last three columns. -/
theorem testBit_read_of_le (port : UInt16) {column : Nat} (hle : 5 ≤ column) (h : column < 8) :
    (ports.keyboard.read (Word.high port)).toNat.testBit column = true := by
  refine Bool.of_not_eq_false fun hlow => ?_
  obtain ⟨row, -, key, ⟨-, hcolumn⟩, -⟩ := (reflects.testBit_read port h).mp hlow
  have hlt := key.column_lt
  omega

/-- Ports that show a history answer as it says. -/
theorem answers (port : UInt16) : Answers history port (ports.answer port) := by
  have heven : Even port.toNat → ports.answer port = ports.ulaByte port := fun h =>
    if_pos (by rw [Ula.isUlaPort_eq, Nat.even_iff.mp h]; rfl)
  have hodd : Odd port.toNat → ports.answer port = if port &&& 0x00E0 == 0 then ports.joystick else 0xFF := fun h =>
    if_neg (by rw [Ula.isUlaPort_eq, Nat.odd_iff.mp h]; decide)
  constructor
  case keys =>
    intro h column hcolumn
    have hne : column ≠ 6 := by omega
    rw [heven h, Ports.testBit_ulaByte _ _ (by omega), ← reflects.testBit_read port (by omega)]
    simp [hne]
  case ear =>
    intro h
    rw [heven h, Ports.testBit_ulaByte _ _ (by decide), reflects.testBit_read_of_le port (by decide) (by decide),
      reflects.tapeEar]
    simp
  case unused =>
    intro h
    rw [heven h, Ports.testBit_ulaByte _ _ (by decide), Ports.testBit_ulaByte _ _ (by decide),
      reflects.testBit_read_of_le port (by decide) (by decide), reflects.testBit_read_of_le port (by decide) (by decide)]
    exact ⟨rfl, rfl⟩
  case joystick =>
    intro h hlines
    rw [hodd h, if_pos ((Ports.joystick_selected_iff port).mpr hlines), reflects.joystick]
  case nothing =>
    rintro h ⟨line, hline, hhigh⟩
    rw [hodd h, if_neg fun hlow => ?_]
    rw [(Ports.joystick_selected_iff port).mp hlow line hline] at hhigh
    exact Bool.false_ne_true hhigh

end Reflects

/-! ## Everything that can happen to the ports -/

inductive PortEvent where
  | input (change : InputChange)
  /-- A bus cycle; reads and writes of ports are among them. -/
  | cycle (cycle : Cycle)
  | openFrame
  | closeFrame
  | border (colour : UInt8)
  | acceleratedLoad (accelerated : Bool)
  | tapeNoise (heard : Bool)
  | reset

/-- What an event does to the inputs. -/
def PortEvent.changes : PortEvent → List InputChange
  | input change => [change]
  | reset => InputChange.restart
  | _ => []

namespace Board

/-- The board after an event. -/
def undergo (board : Board) : PortEvent → Board
  | .input change => { board with ports := board.ports.change change }
  | .cycle cycle => cycle.play board
  | .openFrame => board.openFrame
  | .closeFrame => board.closeFrame
  | .border colour => { board with ports := board.ports.setBorder colour }
  | .acceleratedLoad accelerated => { board with ports := { board.ports with acceleratedLoad := accelerated } }
  | .tapeNoise heard => { board with ports := { board.ports with tapeNoise := heard } }
  | .reset => { board with ports := board.ports.reset }

/-- A bus cycle leaves the inputs alone. -/
theorem reflects_play {history : List InputChange} {board : Board} (cycle : Cycle) (reflects : Reflects history board.ports) :
    Reflects history (cycle.play board).ports :=
  reflects.of_inputs ((keeps_inputs board.ports.inputs).play cycle rfl)

/-- An event adds to the history what it does to the inputs. -/
theorem reflects_undergo {history : List InputChange} {board : Board} (reflects : Reflects history board.ports)
    (event : PortEvent) : Reflects (history ++ event.changes) (board.undergo event).ports := by
  cases event with
  | input change => exact reflects.change change
  | reset => exact reflects.restart rfl
  | cycle cycle =>
    simp only [PortEvent.changes, List.append_nil]
    exact reflects_play cycle reflects
  | openFrame | closeFrame | border | acceleratedLoad | tapeNoise =>
    simp only [PortEvent.changes, List.append_nil]
    exact reflects.of_inputs rfl

theorem reflects_foldl_undergo {history : List InputChange} (events : List PortEvent) {board : Board}
    (reflects : Reflects history board.ports) :
    Reflects (history ++ events.flatMap PortEvent.changes) (events.foldl undergo board).ports :=
  Reflects.foldl Board.ports reflects_undergo events reflects

/-- Changes of different keys can change places. -/
theorem undergo_comm (board : Board) {one two : InputChange} {key other : Key} (hone : key ∈ one.key?)
    (htwo : other ∈ two.key?) (hne : key ≠ other) :
    (board.undergo (.input one)).undergo (.input two) = (board.undergo (.input two)).undergo (.input one) := by
  obtain ⟨move, hmove, hports⟩ := InputChange.change_of_key hone
  obtain ⟨again, hagain, hports'⟩ := InputChange.change_of_key htwo
  simp only [undergo, hports, hports', Keyboard.move_comm hmove hagain hne]

/-- A change made twice is made once. -/
theorem undergo_undergo (board : Board) (change : InputChange) :
    (board.undergo (.input change)).undergo (.input change) = board.undergo (.input change) := by
  cases change with
  | press key => simp only [undergo, Ports.change, Keyboard.move_move (.inl rfl)]
  | release key => simp only [undergo, Ports.change, Keyboard.move_move (.inr rfl)]
  | releaseAll | joystick | tapeEar => rfl

/-- What ports answer, from the start of the ports on and whatever happens to them: a read at any time is given by the history
of the inputs. Presses and releases of different keys can change places, a change made twice is made once, and a read makes no
difference to any later one. -/
theorem reads_reflect_inputs (board : Board) (events : List PortEvent) :
    let now := events.foldl undergo { board with ports := {} }
    (∀ port, Answers (events.flatMap PortEvent.changes) port (Bus.input port now).1) ∧
      (∀ one two : InputChange, ∀ key ∈ one.key?, ∀ other ∈ two.key?, key ≠ other →
        (now.undergo (.input one)).undergo (.input two) = (now.undergo (.input two)).undergo (.input one)) ∧
      (∀ change, (now.undergo (.input change)).undergo (.input change) = now.undergo (.input change)) ∧
      ∀ port value (later : List PortEvent) other,
        (Bus.input other (later.foldl undergo (now.undergo (.cycle (.input port value))))).1 =
          (Bus.input other (later.foldl undergo now)).1 := by
  intro now
  have hnew : Reflects [] ({ board with ports := {} } : Board).ports := Reflects.new
  have reflects : Reflects (events.flatMap PortEvent.changes) now.ports := reflects_foldl_undergo events hnew
  refine ⟨fun port => reflects.answers port, fun one two key hone other htwo hne => undergo_comm now hone htwo hne,
    undergo_undergo now, fun port value later other => ?_⟩
  -- A read adds nothing to the history, and a history leaves no choice of the answer.
  have hread := (reflects_foldl_undergo later (reflects_undergo reflects (.cycle (.input port value)))).answers other
  have hskip := (reflects_foldl_undergo later reflects).answers other
  simp only [PortEvent.changes, List.append_nil] at hread
  exact hread.unique hskip

/-- A key is pressed before a reset; then keys are pressed in two half-rows, and one of them is released. Meanwhile ports are read
and written. -/
def twoRows : List PortEvent :=
  [.input (.press .z), .reset, .openFrame, .input (.press .a), .cycle (.input 0xFDFE 0xFE), .input (.press .q),
    .input (.press .t), .cycle (.output 0x00FE 0x12), .input (.release .q), .input (.joystick 0x18),
    .input (.tapeEar (some false)), .closeFrame]

/-- With three half-rows selected, what is held in two of them shows, and so does the tape input. -/
theorem reads_reflect_inputs_twoRows :
    let now := twoRows.foldl undergo {}
    (Bus.input 0xF8FE now).1.toNat.testBit 0 = false ∧ (Bus.input 0xF8FE now).1.toNat.testBit 4 = false ∧
      (Bus.input 0xF8FE now).1.toNat.testBit 6 = false ∧ (Bus.input 0x001F now).1 = 0x18 ∧ (Bus.input 0x00FF now).1 = 0xFF ∧
      (now.undergo (.input (.press .q))).undergo (.input (.release .a)) =
        (now.undergo (.input (.release .a))).undergo (.input (.press .q)) := by
  intro now
  obtain ⟨answers, comm, -, -⟩ := reads_reflect_inputs {} twoRows
  have heven : Even (0xF8FE : UInt16).toNat := by decide
  refine ⟨?_, ?_, ?_, ?_, ?_, ?_⟩
  · exact ((answers 0xF8FE).keys heven 0 (by decide)).mpr ⟨1, by decide, .a, by decide, by decide⟩
  · exact ((answers 0xF8FE).keys heven 4 (by decide)).mpr ⟨2, by decide, .t, by decide, by decide⟩
  · exact ((answers 0xF8FE).ear heven).mpr (by decide)
  · exact (answers 0x001F).joystick (by decide) (by decide)
  · exact (answers 0x00FF).nothing (by decide) (by decide)
  · exact comm (.press .q) (.release .a) .q rfl .a rfl (by decide)

example : (Bus.input 0xF8FE (twoRows.foldl undergo {})).1 = 0xAE := by decide

end Board

/-! ## What the programs of a machine read -/

/-- If the inputs show a history, so does every byte that a program reads from a port. -/
theorem BusProgram.answers_of_mem_cycles {α : Type} {history : List InputChange} (program : BusProgram α) {board : Board}
    (reflects : Reflects history board.ports) {time : Nat} {port : UInt16} {value : UInt8}
    (h : (time, .input port value) ∈ program.cycles board) : Answers history port value := by
  induction program generalizing board with
  | done result => exact absurd h List.not_mem_nil
  | idle length next ih => exact ih (Board.reflects_play (.idle length) reflects) (List.mem_of_ne_of_mem (by simp) h)
  | contend address length next ih =>
    exact ih (Board.reflects_play (.contend address length) reflects) (List.mem_of_ne_of_mem (by simp) h)
  | peek address next ih => exact ih _ reflects (List.mem_of_ne_of_mem (by simp) h)
  | poke address byte next ih =>
    exact ih (Board.reflects_play (.poke address byte) reflects) (List.mem_of_ne_of_mem (by simp) h)
  | input place next ih =>
    rcases List.mem_cons.mp h with hhere | hlater
    · simp only [Prod.mk.injEq, Cycle.input.injEq] at hhere
      obtain ⟨-, rfl, rfl⟩ := hhere
      exact reflects.answers port
    · exact ih _ (Board.reflects_play (.input place (Bus.input place board).1) reflects) hlater
  | output place byte next ih =>
    exact ih (Board.reflects_play (.output place byte) reflects) (List.mem_of_ne_of_mem (by simp) h)

/-- What an operation does to the inputs. -/
def Operation.changes : Operation → List InputChange
  | .press key => [.press key]
  | .release key => [.release key]
  | .joystick bits => [.joystick bits]
  | .tapeEar ear => [.tapeEar ear]
  | .reset => InputChange.restart
  | .load snapshot => if snapshot.problem? = none then InputChange.restart else []
  | _ => []

namespace Machine

/-- An operation adds to the history what it does to the inputs. -/
theorem reflects_perform {history : List InputChange} {machine : Machine} (reflects : Reflects history machine.board.ports)
    (operation : Operation) : Reflects (history ++ operation.changes) (machine.perform operation).board.ports := by
  cases operation with
  | press key => exact reflects.change (.press key)
  | release key => exact reflects.change (.release key)
  | joystick bits => exact reflects.change (.joystick bits)
  | tapeEar ear => exact reflects.change (.tapeEar ear)
  | reset => exact reflects.restart rfl
  | load snapshot =>
    cases hproblem : snapshot.problem? with
    | none =>
      rw [Operation.changes, if_pos hproblem, perform, loadSnapshot_eq_ok_iff.mpr ⟨hproblem, rfl⟩]
      exact reflects.restart rfl
    | some error =>
      simp only [Operation.changes, perform, loadSnapshot, hproblem, reduceCtorEq, if_false, List.append_nil]
      exact reflects
  | frame =>
    simp only [Operation.changes, List.append_nil]
    exact reflects.of_inputs (executed_of_keeps (Board.keeps_inputs _) rfl)
  | acceleratedLoad | accurate | frameRate =>
    simp only [Operation.changes, List.append_nil]
    exact reflects.of_inputs rfl

/-- Whatever a machine has gone through, every byte that is read from a port in its next frame is given by what was last done to
the inputs. -/
theorem frame_reads_inputs {config : Config} {machine : Machine} (hcreate : create config = .ok machine)
    (past : List Operation) {time : Nat} {port : UInt16} {value : UInt8}
    (h : (time, .input port value) ∈ (past.foldl perform machine).frameCycles) :
    Answers (past.flatMap Operation.changes) port value := by
  have hstart : Reflects [] machine.board.ports := by
    obtain ⟨-, rfl⟩ := create_eq_ok_iff.mp hcreate
    exact Reflects.new.of_inputs rfl
  have reflects : Reflects (past.flatMap Operation.changes) (past.foldl perform machine).opened.ports :=
    (Reflects.foldl (fun machine : Machine => machine.board.ports) reflects_perform past hstart).of_inputs rfl
  exact BusProgram.answers_of_mem_cycles _ reflects h

end Machine

end ZxSpectrum
