import Exokernel.Layout
/-!
# Topology

The processors and interrupt controllers of a machine, as far as the kernel uses them.
-/

namespace Exokernel

/-- A processor of the machine. -/
structure CpuEntry where
  apicId : UInt8
  apicVersion : UInt8
deriving DecidableEq, Inhabited

/-- What is known about the machine. -/
structure Topology where
  /-- The processors, in the order in which they were found. -/
  cpus : List CpuEntry
  cpus_le : cpus.length ≤ cpuLimit
  /-- The place of the processor the machine started on. -/
  bsp : Nat
  ioApicId : UInt8
  ioApicAddr : UInt32
  /-- The physical address of the local interrupt controllers. -/
  lapicAddr : UInt32
  /-- The old interrupt controller has to be disconnected. -/
  imcr : Bool
  /-- The machine has more than the one processor it is assumed to have at least. -/
  isMp : Bool

namespace Topology

/-- A machine with a single processor and no interrupt controller but the old one. -/
def uniprocessor : Topology where
  cpus := [⟨0, 0⟩]
  cpus_le := by decide
  bsp := 0
  ioApicId := 0
  ioApicAddr := 0
  lapicAddr := 0
  imcr := false
  isMp := false

/-- The number of processors. -/
def ncpu (t : Topology) : Nat := t.cpus.length

end Topology

end Exokernel
