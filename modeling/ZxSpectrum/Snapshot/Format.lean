import ZxSpectrum.Snapshot.Sna
import ZxSpectrum.Snapshot.Z80

/-!
# Snapshot formats

The two file formats. The format of a file is told from the extension of its name.
-/

namespace ZxSpectrum

inductive SnapshotFormat where
  | sna | z80
deriving DecidableEq, Repr

def SnapshotFormat.name : SnapshotFormat → String
  | .sna => "SNA"
  | .z80 => "Z80"

/-- Reads a file of a known format. -/
def Snapshot.decode (data : List UInt8) : SnapshotFormat → Except SnapshotError Snapshot
  | .sna => Sna.decode data
  | .z80 => Z80.decode data

namespace FilePath

/-- The last part of a path. Empty parts and parts that name the same directory do not count. -/
def lastPart? (path : String) : Option String :=
  ((path.splitOn "/").filter fun part => part ≠ "" ∧ part ≠ ".").getLast?

/-- What follows the last dot of a file name. A dot at the start of the name does not count, and the name of the directory
above has no extension. -/
def extension? (path : String) : Option String :=
  match lastPart? path with
  | none | some ".." => none
  | some name =>
    let parts := name.splitOn "."
    let stem := ".".intercalate parts.dropLast
    if parts.length < 2 ∨ stem = "" then none else parts.getLast?

end FilePath

/-- The format that the extension of a path names, in either case. -/
def SnapshotFormat.ofPath (path : String) : Except SnapshotError SnapshotFormat :=
  match (FilePath.extension? path).map String.toLower with
  | some "sna" => .ok .sna
  | some "z80" => .ok .z80
  | _ => .error (.unknownFormat path)

end ZxSpectrum
