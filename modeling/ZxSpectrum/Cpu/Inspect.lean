import ZxSpectrum.Cpu.Execute
import ZxSpectrum.Inspect

/-!
# Inspecting the processor

The registers, pairs, flip-flops and single flags by name.
-/

namespace ZxSpectrum.Cpu

/-- The paths that `query` answers, in the order in which they are listed. -/
def queryPaths : List String :=
  ["pc", "sp", "a", "f", "b", "c", "d", "e", "h", "l", "bc", "de", "hl", "ix", "iy", "af'", "bc'", "de'", "hl'", "i",
    "r", "iff1", "iff2", "im", "halted", "flags.c", "flags.n", "flags.p", "flags.h", "flags.z", "flags.s", "flags.x",
    "flags.y"]

/-- The value that a path names. -/
def query (cpu : Cpu) (path : String) : Option Value :=
  let regs := cpu.regs
  let flag (mask : UInt8) : Option Value := some (.flag (Flags.test regs.f mask))
  match path with
  | "pc" => some (.word regs.pc)
  | "sp" => some (.word regs.sp)
  | "a" => some (.byte regs.a)
  | "f" => some (.byte regs.f)
  | "b" => some (.byte regs.b)
  | "c" => some (.byte regs.c)
  | "d" => some (.byte regs.d)
  | "e" => some (.byte regs.e)
  | "h" => some (.byte regs.h)
  | "l" => some (.byte regs.l)
  | "bc" => some (.word regs.bc)
  | "de" => some (.word regs.de)
  | "hl" => some (.word regs.hl)
  | "ix" => some (.word regs.ix)
  | "iy" => some (.word regs.iy)
  | "af'" => some (.word regs.alternate.af)
  | "bc'" => some (.word regs.alternate.bc)
  | "de'" => some (.word regs.alternate.de)
  | "hl'" => some (.word regs.alternate.hl)
  | "i" => some (.byte regs.i)
  | "r" => some (.byte regs.refresh)
  | "iff1" => some (.flag regs.iff1)
  | "iff2" => some (.flag regs.iff2)
  | "im" => some (.byte regs.im)
  | "halted" => some (.flag cpu.halted)
  | "flags.c" => flag Flags.carry
  | "flags.n" => flag Flags.subtract
  | "flags.p" => flag Flags.parity
  | "flags.h" => flag Flags.half
  | "flags.z" => flag Flags.zero
  | "flags.s" => flag Flags.sign
  | "flags.x" => flag Flags.bit3
  | "flags.y" => flag Flags.bit5
  | _ => none

end ZxSpectrum.Cpu
