/-!
# Log records

What the machine and its task report about their work. A record has a level, the part of the program that it comes from
and a text.
-/

namespace ZxSpectrum

/-- Levels, the most severe first. -/
inductive LogLevel where
  | error | warn | info | debug | trace
deriving DecidableEq, Repr

namespace LogLevel

def name : LogLevel → String
  | .error => "ERROR"
  | .warn => "WARN"
  | .info => "INFO"
  | .debug => "DEBUG"
  | .trace => "TRACE"

/-- The place of a level, counted from the most severe one. -/
def severity (level : LogLevel) : Nat := level.ctorIdx

end LogLevel

/-- The parts of the program that log. -/
inductive LogSource where
  | main | task | display | audio | spectrum
deriving DecidableEq, Repr

/-- The dotted name of a source. -/
def LogSource.target : LogSource → String
  | .main => "emu_spectrum"
  | .task => "emu_spectrum::task"
  | .display => "emu_spectrum::display"
  | .audio => "emu_spectrum::audio"
  | .spectrum => "emu_spectrum::spectrum"

structure LogRecord where
  level : LogLevel
  source : LogSource
  text : String
deriving DecidableEq, Repr

end ZxSpectrum
