import ZxSpectrum.CommandLine

/-!
# The program

Arguments, environment, files and output of the process, handed to `CommandLine.run`.
-/

namespace ZxSpectrum.Program

/-- A failure of the system by its number, which may come negated; the words are for numbers that are not known. -/
def systemError (code : UInt32) (details : String) : FileError :=
  let code := if 0x80000000 ≤ code then 0 - code else code
  match code.toNat with
  | 2 => .noSuchFile
  | 20 => .notADirectory
  | 21 => .isADirectory
  | 28 => .noSpace
  | 36 => .nameTooLong
  | _ => .other s!"{details.capitalize} (os error {code})"

/-- A failure of the system. -/
def fileError (error : IO.Error) : FileError :=
  match error with
  | .noFileOrDirectory .. => .noSuchFile
  | .inappropriateType _ code details | .permissionDenied _ code details | .resourceExhausted _ code details
  | .alreadyExists _ code details | .invalidArgument _ code details | .noSuchThing _ code details
  | .otherError code details | .resourceBusy code details | .unsupportedOperation code details
  | .hardwareFault code details => systemError code details
  | error => .other (toString error)

/-- The result of an action, its failure as an error of files. -/
def attempt {α : Type} (action : IO α) : IO (Except FileError α) := do
  match ← action.toBaseIO with
  | .ok result => return .ok result
  | .error error => return .error (fileError error)

/-- The files of the system. -/
def disk : Files IO where
  read path := attempt do return (← IO.FS.readBinFile path).toList
  write path data := attempt (IO.FS.writeBinFile path (ByteArray.mk data.toArray))

/-- Runs the program; the environment says what of the log is shown. -/
def run (arguments : List String) : IO UInt32 := do
  let filter := LogFilter.ofText ((← IO.getEnv "RUST_LOG").getD "")
  let result ← CommandLine.run disk arguments filter
  IO.print result.output
  IO.eprint result.errorOutput
  return UInt32.ofNat result.exitCode

end ZxSpectrum.Program

def main (arguments : List String) : IO UInt32 := ZxSpectrum.Program.run arguments
