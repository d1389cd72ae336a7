import Exokernel.Device.Bench
import Exokernel.Firmware.Discovery
/-!
# Boards

What a machine is built of apart from its processors: low memory with the firmware's tables, blocks
of device registers at physical addresses, and room for kernel stacks. A board also says how long
each processor takes to come up once it has been started.
-/

namespace Exokernel

/-- The parts of a machine. -/
structure Board where
  /-- The topology, where it need not be looked for in memory. -/
  topology : Option Topology := none
  /-- Low physical memory. -/
  phys : PhysMemory
  /-- The devices with their physical addresses. -/
  devices : List (UInt32 × Device) := []
  /-- Where the kernel stacks begin. -/
  stackBase : Nat := 0x100000
  /-- The processor with a controller number is up, so many events and so many turns of a waiting
  loop after it was started. -/
  wakes : UInt8 → Nat → Nat → Bool

namespace Board

/-- Processors that come up after some turns of a waiting loop, some of them never. -/
def wakesAfter (turns : Nat) (never : List UInt8) (apicId : UInt8) (_events hints : Nat) : Bool :=
  !never.contains apicId && turns ≤ hints

/-- The top of the kernel stack of a CPU. -/
def stackTop (b : Board) (cpu : CpuIndex) : Nat :=
  b.stackBase + Layout.kernelStackSize * (cpu.val + 1)

/-- The registers at a physical address, if there are any. -/
def deviceAt? (b : Board) (paddr : UInt32) : Option Device :=
  (b.devices.find? (·.1 = paddr)).map (·.2)

/-- The topology of the machine, with what the search for it said. -/
def findTopology (b : Board) : Topology × List Log.Record :=
  match b.topology with
  | some t => (t, [])
  | none => Firmware.discover b.phys

end Board

/-- What a processor reads when it comes up. -/
structure BootArgs where
  /-- The number of the CPU. -/
  cpu : Nat := 0
  /-- The top of its kernel stack. -/
  stackTop : Nat := 0
  /-- The physical address of its interrupt controller. -/
  lapicAddr : UInt32 := 0
deriving DecidableEq

end Exokernel
