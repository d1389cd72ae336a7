import Exokernel.Kernel.Calls
import Exokernel.Kernel.Schedule
/-!
# Requests with any number

The kernel's operations for CPU and slot numbers that come from outside. Where the operation looks
up the run queue of a CPU that has none, or a slot past the table, the request faults; everywhere
else it is the operation itself.
-/

namespace Exokernel

/-- An operation on the kernel that may fault. -/
abbrev Request (M α : Type) := StateT (State M) (Except Fault) α

namespace Request

variable {M α : Type}

/-- A number that has to be within bounds. -/
def requires (p : State M → Prop) [DecidablePred p] : Request M Unit := do
  Fault.unless (p (← get))

/-- The CPU has a run queue. -/
def served (cpu : Nat) : Request M Unit := requires (·.Serves cpu)

/-- The slot of a number. -/
def slot (n : Nat) : Request M Slot :=
  if h : n < slotCount then pure ⟨n, h⟩ else throw (.failed none)

/-- A request that reads the kernel. -/
def read (f : State M → α) : Request M α := f <$> get

/-- An operation, with its refusal as an answer. -/
def ofOp (op : Op M α) : Request M (Except KernelError α) := fun k => .ok (op.run k)

/-- An operation of the kernel's memory alone, with its refusal as an answer. -/
def onMemory (op : EStateM MemoryError M α) : Request M (Except MemoryError α) := fun k =>
  match op k.memory with
  | .ok a mem => .ok (.ok a, { k with memory := mem })
  | .error e mem => .ok (.error e, { k with memory := mem })

/-- A total operation. -/
def ofState (f : State M → α × State M) : Request M α := fun k => .ok (f k)

/-- Sets the environment table up. -/
def init (policy : Policy) (ncpu : Nat) : Request M Policy := fun k => do
  let k ← k.init policy ncpu
  pure (k.policy, k)

/-- The run queue of a CPU. -/
def runQueue (cpu : Nat) : Request M RunQueue := do
  served cpu
  read (·.runQueue cpu)

/-- The identifier of the environment running on a CPU. -/
def currentId (cpu : Nat) : Request M (Option EnvId) := do
  served cpu
  read (·.currentId cpu)

/-- The slot of the environment a word names. A word other than 0 leads to the caller only for the
permission check, once the environment is known to exist. -/
def resolve (cpu : Nat) (raw : UInt32) (check : Bool) : Request M (Except KernelError Slot) := do
  requires fun k =>
    k.Serves cpu ∨ raw ≠ 0 ∧ (check = false ∨ (k.resolve cpu raw false).toOption = none)
  read (·.resolve cpu raw check)

/-- Picks the next environment of a CPU. -/
def select (cpu : Nat) : Request M (Except NothingRunnable Slot) := do
  served cpu
  let k ← get
  k.select cpu

/-- Gives a CPU to the environment of a slot. -/
def dispatch (cpu : Nat) (n : Nat) : Request M Dispatch := do
  served cpu
  let s ← slot n
  fun k => k.dispatch cpu s

/-- Picks the next environment of a CPU and gives it the CPU. -/
def scheduleNext (cpu : Nat) : Request M (Except NothingRunnable Dispatch) := do
  served cpu
  fun k => k.scheduleNext cpu

/-- Lets the environment running on a CPU go on. -/
def resume (cpu : Nat) : Request M (Option Dispatch) := do
  served cpu
  fun k => k.resume cpu

/-- Blocks the environment running on a CPU until a message arrives; a bad address is refused
before anything else. -/
def ipcRecv (cpu : Nat) (dstva : Nat) : Request M (Except KernelError Unit) := do
  requires fun k =>
    k.Serves cpu ∨ dstva < Layout.userTop ∧ dstva % Layout.pageSize ≠ 0
  ofOp (State.ipcRecv cpu dstva)

variable [Memory M]

/-- Takes a slot for a new environment. -/
def alloc (parent : Option EnvId) (cpu : Nat) : Request M (Except KernelError Slot) := do
  served cpu
  ofOp (State.alloc parent cpu)

/-- Makes a runnable environment that runs a program image. -/
def create (image : Image) (cpu : Nat) : Request M (Except KernelError EnvId) := do
  served cpu
  ofOp (State.create image cpu)

/-- Frees a slot. -/
def free (n : Nat) : Request M Unit := do
  let s ← slot n
  modify (State.free s)

/-- Destroys an environment on behalf of a CPU; one that runs on another CPU is marked without a
look at the caller. -/
def destroy (cpu : Nat) (n : Nat) : Request M Disposal := do
  let s ← slot n
  requires fun k =>
    k.Serves cpu ∨ (k.env s).status = .running ∧ (k.env s).cpu.val ≠ cpu
  ofState (State.destroy cpu s)

/-- Frees the environment running on a CPU if it was marked as dying. -/
def reap (cpu : Nat) : Request M Bool := do
  served cpu
  ofState (State.reap cpu)

/-- Sends a message. -/
def ipcTrySend (cpu : Nat) (target value : UInt32) (srcva : Nat) (perm : UInt32) :
    Request M (Except KernelError Unit) := do
  served cpu
  ofOp (State.ipcTrySend cpu target value srcva perm)

/-- Handles a system call. -/
def syscall (cpu : Nat) (tf : TrapFrame) : Request M Next := do
  served cpu
  ofState (State.syscall cpu tf)

/-- Handles a system call by the environment running on a CPU, made with its saved registers but
for what `call` changes. -/
def syscallWith (cpu : Nat) (call : TrapFrame → TrapFrame) : Request M Next := do
  served cpu
  let k ← get
  let frame := ((k.current cpu).map fun s => (k.env s).frame).getD TrapFrame.user
  syscall cpu (call frame)

end Request

end Exokernel
