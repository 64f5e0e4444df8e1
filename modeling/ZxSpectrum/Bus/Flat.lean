import ZxSpectrum.Bus
import ZxSpectrum.Memory

/-!
# The flat bus

64K of RAM without contention: every cycle takes its base cost, a port access four T-states. All ports read one byte and
port writes are kept in order.
-/

namespace ZxSpectrum

structure FlatBus where
  memory : Memory := .blank
  clock : Nat := 0
  /-- The byte that every port reads. -/
  portValue : UInt8 := 0xFF
  /-- Port writes, oldest first. -/
  portWrites : Array (UInt16 × UInt8) := #[]

namespace FlatBus

/-- T-states of a port access. -/
def portTime : Nat := 4

instance : Bus FlatBus where
  clock bus := bus.clock
  idle time bus := { bus with clock := bus.clock + time }
  contend _ time bus := { bus with clock := bus.clock + time }
  peek address bus := bus.memory.get address
  poke address value bus := { bus with memory := bus.memory.set address value }
  input _ bus := (bus.portValue, { bus with clock := bus.clock + portTime })
  output port value bus :=
    { bus with clock := bus.clock + portTime, portWrites := bus.portWrites.push (port, value) }

end FlatBus

end ZxSpectrum
