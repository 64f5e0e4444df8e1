import ZxSpectrum.Bus
import ZxSpectrum.Ports
import ZxSpectrum.Ula.Shadow

/-!
# The main board

Memory, clock, screen shadow and ports, wired as the machine wires them: the ROM ignores writes, shared memory and ports
make the processor wait, and the shadow hears of a change of a screen byte before memory changes.
-/

namespace ZxSpectrum

structure Board where
  memory : Memory := .blank
  /-- T-states since the frame began. -/
  clock : Nat := 0
  shadow : Ula.Shadow := {}
  ports : Ports := {}

namespace Board

/-- Begins a frame on the ports and the shadow. -/
def beginFrame (board : Board) : Board :=
  { board with shadow := board.shadow.beginFrame, ports := board.ports.beginFrame }

/-- Writes a byte of RAM; a write to the ROM has no effect. -/
def poke (address : UInt16) (value : UInt8) (board : Board) : Board :=
  if Memory.isRom address then board
  else
    let old := board.memory.get address
    let { memory, clock, shadow, ports } := board
    let shadow := if old != value then shadow.noteWrite address old clock else shadow
    { memory := memory.set address value, clock, shadow, ports }

instance : Bus Board where
  clock board := board.clock
  idle time board := { board with clock := board.clock + time }
  contend address time board := { board with clock := Ula.access address time board.clock }
  peek address board := board.memory.get address
  poke := poke
  input port board :=
    let { memory, clock, shadow, ports } := board
    let clock := Ula.beforePort port clock
    let (value, ports) := ports.read port clock
    (value, { memory, clock := Ula.afterPort port clock, shadow, ports })
  output port value board :=
    let { memory, clock, shadow, ports } := board
    let clock := Ula.beforePort port clock
    { memory, clock := Ula.afterPort port clock, shadow, ports := ports.write port value clock }

/-- The picture of the frame. -/
def composeScreen (board : Board) (diff : Bool) : Ula.ScreenImage := board.shadow.compose diff board.memory

end Board

end ZxSpectrum
