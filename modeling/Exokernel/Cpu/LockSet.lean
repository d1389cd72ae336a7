import Exokernel.Cpu.SpinLock
/-!
# Guarded words

A few spin locks, each of which protects a word. A guard is the right to reach the word: taking one
takes the lock, and giving it back releases the lock on behalf of the CPU that took it, whichever
CPU executes that. The guards taken are kept beside their locks.
-/

namespace Exokernel

/-- A word behind a lock. -/
structure GuardedWord where
  lock : SpinLock
  value : UInt64 := 0
  /-- The CPU whose guard is kept. -/
  guard : Option CpuIndex := none

/-- Guarded words and the interrupts of the CPUs. -/
structure LockSet (n : Nat) where
  words : Vector GuardedWord n
  interrupts : Interrupts

namespace LockSet

/-- A computation on a set of locks. -/
abbrev Act (n : Nat) (α : Type) := EStateM Fault (LockSet n) α

variable {n : Nat}

/-- All locks are free, all words 0. -/
def fresh (names : Vector String n) (interrupts : Interrupts) : LockSet n where
  words := names.map fun name => { lock := { name } }
  interrupts := interrupts

/-- The word at a place. -/
def word (s : LockSet n) (i : Fin n) : GuardedWord := s.words[i]

/-- The set with a word replaced. -/
def setWord (s : LockSet n) (i : Fin n) (w : GuardedWord) : LockSet n :=
  { s with words := s.words.set i w }

/-- The CPU has the lock. -/
def holding (s : LockSet n) (i : Fin n) (cpu : CpuIndex) : Bool :=
  (s.word i).lock.holder = some cpu

/-- A computation on one lock of a set. -/
def onLock {α : Type} (i : Fin n) (x : SpinLock.Act α) : Act n α :=
  focus (fun s => ((s.word i).lock, s.interrupts))
    (fun t s => { s.setWord i { s.word i with lock := t.1 } with interrupts := t.2 }) x

/-- A CPU takes a lock. Nothing else happens meanwhile, so a lock that is not free never will
be. -/
def acquire (i : Fin n) (cpu : CpuIndex) : Act n Unit := do
  unless ← onLock i (SpinLock.request cpu cpu) do
    throw .hung

/-- A CPU gives a lock back. -/
def release (i : Fin n) (cpu : CpuIndex) : Act n Unit :=
  onLock i (SpinLock.release cpu cpu)

/-- The CPU `acting` gives back a guard of the CPU `owner`. -/
def dropGuard (i : Fin n) (acting owner : CpuIndex) : Act n Unit :=
  onLock i (SpinLock.release acting owner)

/-- A CPU takes a guard, which replaces the one kept so far. -/
def takeGuard (i : Fin n) (cpu : CpuIndex) : Act n Unit := do
  acquire i cpu
  let kept := ((← get).word i).guard
  modify fun s => s.setWord i { s.word i with guard := some cpu }
  match kept with
  | some owner => dropGuard i cpu owner
  | none => pure ()

/-- The guard that is kept for a lock. -/
def guardOf (i : Fin n) : Act n CpuIndex := do
  match ((← get).word i).guard with
  | some owner => pure owner
  | none => throw (.failed none)

/-- Adds to a word through its guard. The answer is the sum and the guard's CPU. -/
def add (i : Fin n) (amount : UInt64) : Act n (UInt64 × CpuIndex) := do
  let owner ← guardOf i
  let w := (← get).word i
  if w.value.toNat + amount.toNat < UInt64.size then
    let sum := w.value + amount
    modify fun s => s.setWord i { w with value := sum }
    pure (sum, owner)
  else
    throw (.failed none)

/-- The CPU `acting` gives the guard that is kept for a lock back. -/
def unlock (i : Fin n) (acting : CpuIndex) : Act n Unit := do
  let owner ← guardOf i
  modify fun s => s.setWord i { s.word i with guard := none }
  dropGuard i acting owner

/-- A CPU begins a pair of disabled interrupts. -/
def push (cpu : CpuIndex) : Act n Unit :=
  modify fun s => { s with interrupts := s.interrupts.push cpu cpu }

/-- A CPU ends a pair of disabled interrupts. -/
def pop (cpu : CpuIndex) : Act n Unit := do
  let s ← get
  match s.interrupts.pop cpu cpu with
  | .ok i => set { s with interrupts := i }
  | .error e => throw e

/-- Two pairs of disabled interrupts of a CPU, one inside the other. The answer is what holds
inside. -/
def nestedPairs (cpu : CpuIndex) : Act n (LockSet n) := do
  push cpu
  push cpu
  let inside ← get
  pop cpu
  pop cpu
  pure inside

/-- Sets the interrupt flag of a CPU. -/
def setFlag (cpu : CpuIndex) (on : Bool) : Act n Unit :=
  modify fun s => { s with interrupts := s.interrupts.setFlag cpu on }

end LockSet

end Exokernel
