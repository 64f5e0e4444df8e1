/-!
# Frame timing

The video chip draws 312 lines of 224 T-states. Fetching screen bytes takes the first 128 T-states of 192 of the lines,
and meanwhile the processor waits for it when it wants the same memory: `delay` is the wait of an access that starts at a
given time. Accesses to ports wait too, in a pattern that depends on the port.
-/

namespace ZxSpectrum.Ula

def linesPerFrame : Nat := 312

def tstatesPerLine : Nat := 224

/-- T-states of one frame. -/
def tstatesPerFrame : Nat := 69888

/-- Lines above the first one of the bitmap. -/
def linesTop : Nat := 64

/-- Lines of the bitmap. -/
def screenLines : Nat := 192

/-- T-states at the start of a line in which screen bytes are fetched. -/
def fetchLength : Nat := 128

/-- When the first byte of the bitmap is displayed. -/
def firstScreenByte : Nat := 14336

def pixelsPerTstate : Nat := 2

/-- When the first fetch begins: one T-state before its byte is displayed. -/
def contentionStart : Nat := firstScreenByte - 1

/-- The waits within a group of eight T-states of fetching. -/
def contentionPattern : Vector Nat 8 := #v[6, 5, 4, 3, 2, 1, 0, 0]

/-- The times for which waits are tabulated: a frame, and what an instruction may need beyond its end. -/
def delayTableLength : Nat := tstatesPerFrame + 100

/-- How long an access that starts at `t` waits. -/
def delay (t : Nat) : Nat :=
  if contentionStart ≤ t ∧ t < contentionStart + screenLines * tstatesPerLine then
    let u := (t - contentionStart) % tstatesPerLine
    if u < fetchLength then
      have : u % 8 < 8 := Nat.mod_lt _ (by decide)
      contentionPattern[u % 8]
    else 0
  else 0

/-- All tabulated waits. -/
def delayTable : List Nat := (List.range delayTableLength).map delay

/-- The clock after an access of `time` T-states that may have to wait. -/
@[inline] def contend (time clock : Nat) : Nat := clock + delay clock + time

/-- An address that the processor shares with the video chip. -/
@[inline] def isContended (address : UInt16) : Bool := address &&& 0xC000 == 0x4000

/-- The clock after an access to an address. -/
def access (address : UInt16) (time clock : Nat) : Nat :=
  if isContended address then contend time clock else clock + time

/-- The clock after the first part of a port access, in which the port address is on the bus. -/
def beforePort (port : UInt16) (clock : Nat) : Nat := access port 1 clock

/-- Even ports belong to the video chip. -/
@[inline] def isUlaPort (port : UInt16) : Bool := port &&& 1 == 0

/-- The clock after the rest of a port access. The video chip makes its own ports wait once; other ports wait in every
T-state if their address looks like shared memory. -/
def afterPort (port : UInt16) (clock : Nat) : Nat :=
  if isUlaPort port then contend 3 clock
  else if isContended port then contend 1 (contend 1 (contend 1 clock))
  else clock + 3

/-- The clock of the next frame, which keeps what the last instruction ran over. -/
def wrapFrame (clock : Nat) : Nat := clock % tstatesPerFrame

theorem frame_eq_lines : linesPerFrame * tstatesPerLine = tstatesPerFrame := rfl

theorem firstScreenByte_eq_lines : linesTop * tstatesPerLine = firstScreenByte := rfl

theorem clock_le_contend (time clock : Nat) : clock + time ≤ contend time clock := by
  unfold contend
  omega

end ZxSpectrum.Ula
