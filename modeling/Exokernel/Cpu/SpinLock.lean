import Exokernel.Cpu.Interrupts
/-!
# Spin locks

A lock is held by at most one CPU, with that CPU's interrupts disabled. A CPU that asks for a lock
it already holds, or gives back one it does not hold, fails; a CPU that asks for a lock another one
holds waits.
-/

namespace Exokernel

/-- A lock. -/
structure SpinLock where
  name : String
  /-- The CPU that holds the lock. -/
  holder : Option CpuIndex := none
deriving DecidableEq

namespace SpinLock

/-- A computation on a lock and the interrupts of the CPUs. -/
abbrev Act (α : Type) := EStateM Fault (SpinLock × Interrupts) α

/-- What is wrong with asking for a lock twice. -/
def alreadyHeld (l : SpinLock) (cpu : CpuIndex) : String :=
  "CPU " ++ toString cpu.val ++ " is trying to acquire lock `" ++ l.name ++
    "` that it already holds"

/-- What is wrong with giving back a lock that is not held. -/
def notHeld (l : SpinLock) (cpu : CpuIndex) : String :=
  "CPU " ++ toString cpu.val ++ " is trying to release lock `" ++ l.name ++
    "` that it doesn't hold"

/-- Takes the lock for a CPU if it is free, and tells whether it was. -/
def take (cpu : CpuIndex) : Act Bool := fun s =>
  match s.1.holder with
  | none => .ok true ({ s.1 with holder := some cpu }, s.2)
  | some _ => .ok false s

/-- Asks for the lock on behalf of a CPU, which must not hold it. Interrupts are disabled before
anything else, and stay so. The answer tells whether the CPU has the lock or has to wait. -/
def request (acting cpu : CpuIndex) : Act Bool := do
  modify fun s => (s.1, s.2.push acting cpu)
  let l := (← get).1
  if l.holder = some cpu then
    throw (.failed (some (l.alreadyHeld cpu)))
  take cpu

/-- Gives the lock back on behalf of a CPU, which has to hold it, and ends the pair of disabled
interrupts. -/
def release (acting cpu : CpuIndex) : Act Unit := do
  let l := (← get).1
  if l.holder ≠ some cpu then
    throw (.failed (some (l.notHeld cpu)))
  modify fun s => ({ s.1 with holder := none }, s.2)
  let (l, i) ← get
  match i.pop acting cpu with
  | .ok i => set (l, i)
  | .error e => throw e

end SpinLock

end Exokernel
