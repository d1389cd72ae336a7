import Exokernel.Machine.Boot
import Exokernel.Memory.Frames
/-!
# Working with a machine

What is done to a machine from outside, with CPUs, slots and devices that go by number.
-/

namespace Exokernel

namespace Machine

variable {M : Type}

/-- The CPU in use of a number. -/
def cpuInUse (n : Nat) : Act M CpuIndex := do
  match (← get).cpus.get? n with
  | some cpu => pure cpu
  | none => throw (.failed none)

/-- A CPU takes the big kernel lock and keeps it. -/
def holdLock (n : Nat) : Act M CpuIndex := do
  let cpu ← cpuInUse n
  actAs cpu
  acquire cpu
  pure cpu

/-- The CPU that keeps the big kernel lock gives it back. -/
def yieldLock : Act M Unit := do
  match (← get).lock.holder with
  | some cpu =>
    actAs cpu
    unlock cpu
  | none => throw (.failed none)

/-- Starts every CPU but one through the controller at a physical address. -/
def startOthersAt (paddr : UInt32) (me : Nat) : Act M Unit := do
  let me ← cpuInUse me
  match ← mapRegisters paddr with
  | some lapic =>
    let board := (← get).board
    startOthers lapic platform me fun cpu => pure (board.stackTop cpu)
  | none => throw (.failed none)

/-- A system call trap on a CPU, with the registers it last went to user mode with but for what
`call` changes. -/
def trapWith [Memory M] (n : Nat) (call : TrapFrame → TrapFrame) : Act M Exit := do
  let cpu ← cpuInUse n
  syscallEntry cpu (call ((← get).context cpu))

/-- Maps a new page filled with a byte in the environment of a slot. -/
def mapFilled (n : Nat) (va : Nat) (perm : Perm) (b : UInt8) :
    Act Frames (Except MemoryError Unit) :=
  underLock do
    let s ← Request.slot n
    let dir := ((← get).env s).pgdir
    Request.onMemory (Frames.mapFilled dir va perm b)

/-- The memory as it is, looked at under the lock. -/
def inspectMemory : Act M M := underLock (Request.read (·.memory))

/-- Changes the memory from outside, under the lock. -/
def changeMemory (f : M → M) : Act M Unit :=
  underLock (modify fun k => { k with memory := f k.memory })

/-- Every CPU in use is outside of all pairs of disabled interrupts, with interrupts on. -/
def isQuiet (m : Machine M) : Bool :=
  m.cpus.members.all fun i => (m.interrupts.nest i).depth == 0 && m.interrupts.flag i

end Machine

end Exokernel
