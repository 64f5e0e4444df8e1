/-!
# The keyboard

Forty keys in eight half-rows of five. A half-row is selected by a low bit in the high byte of the port address; a
pressed key reads as a low bit.
-/

namespace ZxSpectrum

/-- The keys in the order of the matrix: half-row by half-row, from the outer key inwards. -/
inductive Key where
  | capsShift | z | x | c | v
  | a | s | d | f | g
  | q | w | e | r | t
  | n1 | n2 | n3 | n4 | n5
  | n0 | n9 | n8 | n7 | n6
  | p | o | i | u | y
  | enter | l | k | j | h
  | space | symShift | m | n | b
deriving DecidableEq, Repr

namespace Key

/-- All keys, in the order of the matrix. -/
def all : List Key :=
  [.capsShift, .z, .x, .c, .v, .a, .s, .d, .f, .g, .q, .w, .e, .r, .t, .n1, .n2, .n3, .n4, .n5, .n0, .n9, .n8, .n7, .n6,
    .p, .o, .i, .u, .y, .enter, .l, .k, .j, .h, .space, .symShift, .m, .n, .b]

/-- The names of all keys, in the order of the matrix. -/
def names : List String :=
  ["CapsShift", "Z", "X", "C", "V", "A", "S", "D", "F", "G", "Q", "W", "E", "R", "T", "N1", "N2", "N3", "N4", "N5",
    "N0", "N9", "N8", "N7", "N6", "P", "O", "I", "U", "Y", "Enter", "L", "K", "J", "H", "Space", "SymShift", "M", "N",
    "B"]

/-- The place of a key in the matrix. -/
def index (key : Key) : Nat := key.ctorIdx

theorem index_lt (key : Key) : key.index < 40 := by cases key <;> decide

/-- The half-row of a key. -/
def row (key : Key) : Fin 8 := ⟨key.index / 5, by have := key.index_lt; omega⟩

/-- The bit of a key in its half-row. -/
def mask (key : Key) : UInt8 := 1 <<< UInt8.ofNat (key.index % 5)

def name (key : Key) : String := names.getD key.index ""

/-- The key that types a character, of either case; a line feed is typed by Enter. -/
def ofChar? (c : Char) : Option Key :=
  let c := c.toUpper
  let typed : List (Option Char) :=
    none :: "ZXCVASDFGQWERT1234509876POIUY\nLKJH ".toList.map some ++ none :: "MNB".toList.map some
  (typed.zip all).findSome? fun (typed, key) => if typed = some c then some key else none

end Key

/-- The half-rows, a low bit for each pressed key. -/
structure Keyboard where
  rows : Vector UInt8 8 := Vector.replicate 8 0xFF
deriving DecidableEq

namespace Keyboard

/-- No key pressed. -/
def released : Keyboard := {}

/-- Changes the half-row of a key. -/
def modifyRow (keyboard : Keyboard) (key : Key) (f : UInt8 → UInt8) : Keyboard :=
  ⟨keyboard.rows.set key.row (f keyboard.rows[key.row])⟩

def press (keyboard : Keyboard) (key : Key) : Keyboard := keyboard.modifyRow key fun row => row &&& ~~~key.mask

def release (keyboard : Keyboard) (key : Key) : Keyboard := keyboard.modifyRow key fun row => row ||| key.mask

def isPressed (keyboard : Keyboard) (key : Key) : Bool := keyboard.rows[key.row] &&& key.mask == 0

/-- What the keyboard answers to the high byte of a port address: all selected half-rows at once. -/
def read (keyboard : Keyboard) (select : UInt8) : UInt8 :=
  (List.finRange 8).foldl (fun keys (row : Fin 8) =>
    if select &&& (1 : UInt8) <<< UInt8.ofNat row.val == 0 then keys &&& keyboard.rows[row] else keys) 0xFF

end Keyboard

end ZxSpectrum
