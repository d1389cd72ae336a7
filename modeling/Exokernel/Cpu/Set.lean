import Exokernel.Firmware.Topology
/-!
# The processors

The CPUs the kernel knows of: the number of the interrupt controller of each, and whether it has
reported that it is up. The kernel has room for a fixed number of them and uses the first ones.
-/

namespace Exokernel

/-- What the kernel knows about a CPU. -/
structure Processor where
  apicId : UInt8 := 0
  /-- The CPU has reported that it is up. -/
  booted : Bool := false
deriving DecidableEq, Inhabited

/-- The CPUs the kernel knows of. -/
structure CpuSet where
  cpus : Vector Processor cpuLimit
  /-- The number of CPUs in use. -/
  count : Nat
  count_le : count ≤ cpuLimit
  /-- The number of the CPU the machine started on. -/
  bsp : Nat

namespace CpuSet

/-- A single CPU. -/
def fresh : CpuSet where
  cpus := Vector.replicate cpuLimit {}
  count := 1
  count_le := by decide
  bsp := 0

/-- The CPU at a place. -/
def cpu (s : CpuSet) (i : CpuIndex) : Processor := getElem s.cpus i.val i.isLt

/-- Takes the processors of a topology over. Which CPUs are up is not forgotten. -/
def configure (s : CpuSet) (t : Topology) : CpuSet where
  cpus := Vector.ofFn fun i =>
    match t.cpus[i.val]? with
    | some e => { s.cpu i with apicId := e.apicId }
    | none => s.cpu i
  count := t.ncpu
  count_le := t.cpus_le
  bsp := t.bsp

/-- The CPUs in use, in order. -/
def members (s : CpuSet) : List CpuIndex :=
  (List.finRange cpuLimit).filter (·.val < s.count)

/-- The CPU in use of a number. -/
def get? (s : CpuSet) (n : Nat) : Option CpuIndex :=
  if h : n < s.count then some ⟨n, Nat.lt_of_lt_of_le h s.count_le⟩ else none

/-- The first CPU in use whose controller has a number. -/
def byApicId? (s : CpuSet) (apicId : UInt8) : Option CpuIndex :=
  s.members.find? fun i => (s.cpu i).apicId = apicId

/-- The CPU the machine started on, if there is room for one of that number. -/
def bsp? (s : CpuSet) : Option CpuIndex :=
  if h : s.bsp < cpuLimit then some ⟨s.bsp, h⟩ else none

/-- A CPU reports that it is up. -/
def setBooted (s : CpuSet) (i : CpuIndex) : CpuSet :=
  { s with cpus := s.cpus.set i { s.cpu i with booted := true } i.isLt }

end CpuSet

end Exokernel
