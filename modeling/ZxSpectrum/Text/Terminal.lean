/-!
# Text for terminals

What is left of a text when the sequences that steer a terminal are taken out: colours, cursor moves, titles and single
control characters. Line ends, tabs and form feeds stay (`plain_of_text`).
-/

namespace ZxSpectrum.Terminal

/-- What a terminal waits for. -/
inductive State where
  | text
  /-- The rest of a sequence that an escape character has begun. -/
  | escape | escapeMore
  /-- The rest of a control sequence: its parameters, its other characters, or its end if it is not well formed. -/
  | control | parameters | controlMore | controlIgnored
  /-- The rest of what begins a string for a device. -/
  | device | deviceParameters | deviceMore
  /-- The end of a string for a device. -/
  | string
  /-- The end of a command of the operating system. -/
  | command
deriving DecidableEq, Repr

namespace State

/-- Whether the encoding of a character holds the byte that ends a string. -/
def endsString (c : Char) : Bool := (String.utf8EncodeChar c).contains 0x9c

/-- What the terminal waits for after a character. -/
def next (state : State) (c : Char) : State :=
  let within (low high : Nat) : Bool := low ≤ c.toNat && c.toNat ≤ high
  if c.toNat = 0x18 ∨ c.toNat = 0x1a then .text
  else if c.toNat = 0x1b then .escape
  else
    match state with
    | .text => .text
    | .escape =>
      if within 0x20 0x2f then .escapeMore
      else if c = '[' then .control
      else if c = ']' then .command
      else if c = 'P' then .device
      else if c = 'X' ∨ c = '^' ∨ c = '_' then .string
      else if within 0x30 0x7e then .text
      else .escape
    | .escapeMore => if within 0x30 0x7e then .text else .escapeMore
    | .control =>
      if within 0x20 0x2f then .controlMore
      else if within 0x30 0x3f then .parameters
      else if within 0x40 0x7e then .text
      else .control
    | .parameters =>
      if within 0x20 0x2f then .controlMore
      else if within 0x3c 0x3f then .controlIgnored
      else if within 0x40 0x7e then .text
      else .parameters
    | .controlMore =>
      if within 0x30 0x3f then .controlIgnored else if within 0x40 0x7e then .text else .controlMore
    | .controlIgnored => if within 0x40 0x7e then .text else .controlIgnored
    | .device =>
      if within 0x20 0x2f then .deviceMore
      else if within 0x30 0x3f then .deviceParameters
      else if within 0x40 0x7e then .string
      else .device
    | .deviceParameters =>
      if within 0x20 0x2f then .deviceMore else if within 0x3c 0x7e then .string else .deviceParameters
    | .deviceMore => if within 0x30 0x7e then .string else .deviceMore
    | .string => if endsString c then .text else .string
    | .command => if c.toNat = 0x07 then .text else .command

/-- Whether line ends and tabs are obeyed at once, in the middle of a sequence too. -/
def obeysLayout : State → Bool
  | .device | .deviceParameters | .deviceMore | .string | .command => false
  | _ => true

end State

/-- Tabs, line ends and form feeds. -/
def isLayout (c : Char) : Bool := c = '\t' || c = '\n' || c = '\x0c' || c = '\r'

/-- Whether a character is neither a control character nor the delete character. -/
def isPrintable (c : Char) : Bool := 0x20 ≤ c.toNat && c.toNat ≠ 0x7f

/-- Whether a character appears on the terminal. -/
def State.shows (state : State) (c : Char) : Bool :=
  (state = .text && isPrintable c) || (state.obeysLayout && isLayout c)

/-- The characters that appear; after one of them no sequence is open. -/
def shown : State → List Char → List Char
  | _, [] => []
  | state, c :: rest => if state.shows c then c :: shown .text rest else shown (state.next c) rest

/-- A text without control sequences and control characters. -/
def plain (text : String) : String := String.ofList (shown .text text.toList)

theorem shown_text (cs : List Char) (h : ∀ c ∈ cs, isPrintable c = true ∨ isLayout c = true) :
    shown .text cs = cs := by
  induction cs with
  | nil => rfl
  | cons c cs ih =>
    have hc : State.shows .text c = true := by
      have := h c List.mem_cons_self
      simpa [State.shows, State.obeysLayout] using this
    rw [shown, if_pos hc, ih fun d hd => h d (List.mem_cons_of_mem c hd)]

/-- A text without control characters stays as it is. -/
theorem plain_of_text (text : String) (h : ∀ c ∈ text.toList, isPrintable c = true ∨ isLayout c = true) :
    plain text = text := by
  rw [plain, shown_text _ h, String.ofList_toList]

end ZxSpectrum.Terminal
