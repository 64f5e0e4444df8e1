/-!
# Snapshot errors

Why a snapshot cannot be read, written or loaded, and the text that says so.
-/

namespace ZxSpectrum

/-- Hardware that a snapshot file may ask for and that the machine does not have. -/
inductive Feature where
  | samRom | issue2 | modifiedHardware | mgtRom | multifaceRom | lowRam | middleRam
deriving DecidableEq, Repr

def Feature.name : Feature → String
  | .samRom => "SamRom"
  | .issue2 => "Issue 2 emulation"
  | .modifiedHardware => "modified hardware"
  | .mgtRom => "MGT ROM paging"
  | .multifaceRom => "Multiface ROM paging"
  | .lowRam => "RAM at 0-8191"
  | .middleRam => "RAM at 8192-16383"

inductive SnapshotError where
  | invalidSize (expected actual : Nat)
  | invalidInterruptMode (mode : UInt8)
  | missingEndMarker
  | decompressedLength (expected actual : Nat)
  | unsupportedVersion
  | unsupportedFeature (feature : Feature)
  | unsupportedHardwareMode (mode : UInt8)
  | invalidPage (page : UInt8)
  | pageLength (page : UInt8) (length : Nat)
  | pageCount (count : Nat)
  | trailingData
  /-- The word on top of the stack, which holds the program counter, lies outside of RAM. -/
  | stackOutsideRam
  | truncated
  | unknownFormat (path : String)
deriving DecidableEq, Repr

def SnapshotError.message : SnapshotError → String
  | .invalidSize expected actual => s!"snapshot has invalid size: expected {expected} bytes, got {actual}"
  | .invalidInterruptMode mode => s!"invalid interrupt mode {mode}"
  | .missingEndMarker => "compressed memory image has no end marker"
  | .decompressedLength expected actual => s!"decompressed memory is {actual} bytes, expected {expected}"
  | .unsupportedVersion => "unsupported Z80 snapshot version"
  | .unsupportedFeature feature => "unsupported feature: " ++ feature.name
  | .unsupportedHardwareMode mode => s!"unsupported hardware mode {mode}"
  | .invalidPage page => s!"memory block for unknown page {page}"
  | .pageLength page length => s!"memory page {page} is {length} bytes, expected 16384"
  | .pageCount count => s!"expected 3 memory pages, found {count}"
  | .trailingData => "trailing data after the last memory block"
  | .stackOutsideRam => "cannot simulate RETN: stack pointer too low to push PC"
  | .truncated => "snapshot data is truncated"
  | .unknownFormat path => "unrecognized snapshot format: " ++ path

end ZxSpectrum
