import ZxSpectrum.Memory
import ZxSpectrum.Snapshot.Error

/-!
# Errors of the emulator

Why a request to the emulator fails, and the text that says so.
-/

namespace ZxSpectrum

inductive EmulatorError where
  /-- The ROM has the given length, which is not that of a ROM. -/
  | rom (actual : Nat)
  | snapshot (error : SnapshotError)
  /-- Nobody serves requests any more. -/
  | terminated
  /-- A file could not be read or written. -/
  | file (reason : String)
deriving DecidableEq, Repr

def EmulatorError.message : EmulatorError → String
  | .rom actual => s!"ROM must be {Memory.romSize} bytes, got {actual}"
  | .snapshot error => error.message
  | .terminated => "emulator task has terminated"
  | .file reason => reason

end ZxSpectrum
