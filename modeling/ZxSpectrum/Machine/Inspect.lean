import ZxSpectrum.Machine
import ZxSpectrum.Numeral

/-!
# Inspecting the machine

Paths below `cpu`, `ula` and `memory`, and the registers of the processor without a prefix. An address is written in
decimal, or in hexadecimal after `0x` or `$`.
-/

namespace ZxSpectrum

/-- The address that a text writes. -/
def readAddress? (text : List Char) : Option UInt16 :=
  (match text with
    | '0' :: 'x' :: digits | '0' :: 'X' :: digits | '$' :: digits => Numeral.read? 16 65536 digits
    | digits => Numeral.read? 10 65536 digits).map UInt16.ofNat

/-- What follows `start` in a path that begins with it. -/
def pathBelow? (start path : String) : Option String :=
  if start.toList.isPrefixOf path.toList then some (String.ofList (path.toList.drop start.length)) else none

namespace Machine

/-- The paths that `query` answers; names in angle brackets stand for many. -/
def queryPaths : List String :=
  ["cpu.<z80_paths>", "ula.tstate", "ula.frame", "ula.border", "memory.<address>", "tape_active"]

/-- The value that a path names. -/
def query (machine : Machine) (path : String) : Option Value :=
  if let some rest := pathBelow? "cpu." path then machine.cpu.query rest
  else if let some rest := pathBelow? "ula." path then
    match rest with
    | "tstate" => some (.number machine.board.clock)
    | "frame" => some (.number machine.board.shadow.frame.toNat)
    | "border" => some (.byte machine.board.ports.border)
    | _ => none
  else if let some rest := pathBelow? "memory." path then
    (readAddress? rest.toList).map fun address => .byte (machine.board.memory.get address)
  else if path = "tape_active" then some (.flag machine.tapeActive)
  else machine.cpu.query path

end Machine

end ZxSpectrum
