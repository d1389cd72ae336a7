import Exokernel.Kernel.Naming
/-!
# Messages between environments

A receiver parks itself, not runnable and with its inbox marked as receiving; a sender writes
straight into that inbox and makes the receiver runnable again. There are no queues: the receiver
is picked up by the ordinary scan of its own CPU.
-/

namespace Exokernel

namespace State

variable {M : Type}

/-- Blocks the environment running on a CPU until a message arrives. It takes a page at `dstva` if
that is an address of the user's, which then has to be page-aligned. The environment resumes with 0
as its result. -/
def ipcRecv (cpu : Nat) (dstva : Nat) : Op M Unit := do
  if dstva < Layout.userTop ∧ dstva % Layout.pageSize ≠ 0 then
    throw .invalidArgument
  let s ← Op.ofOption .badTarget ((← get).current cpu)
  modify fun k => k.mapEnv s fun e =>
    { e with
      inbox := { e.inbox with receiving := true, dstva := dstva }
      status := .notRunnable
      frame := { e.frame with eax := 0 } }

variable [Memory M]

/-- The page mapped at an address, for use with a permission that allows writing only where the
mapping does. -/
def shareable (k : State M) (dir : PageDir) (va : Nat) (perm : Perm) : Option PhysPage :=
  match Memory.lookup k.memory dir va with
  | some (page, mapped) =>
    if perm.contains Perm.write && !mapped.contains Perm.write then none else some page
  | none => none

/-- The page a sender offers along with a message: none if the address is past the user's. -/
def offered (k : State M) (sender : Slot) (srcva : Nat) (perm : UInt32) :
    Except KernelError (Option (PhysPage × Perm)) :=
  if srcva < Layout.userTop then
    if srcva % Layout.pageSize ≠ 0 then
      .error .invalidArgument
    else
      match Perm.ofUser? perm with
      | none => .error .invalidArgument
      | some perm =>
        match k.shareable (k.env sender).pgdir srcva perm with
        | some page => .ok (some (page, perm))
        | none => .error .invalidArgument
  else
    .ok none

/-- Maps an offered page where the receiver waits for one; the answer is the permission it was
mapped with, empty for no page. -/
def handOver (receiver : Slot) : Option (PhysPage × Perm) → Op M Perm
  | none => pure Perm.empty
  | some (page, perm) => do
    let e := (← get).env receiver
    if e.inbox.dstva < Layout.userTop then
      Op.onMemory (Memory.insert e.pgdir page e.inbox.dstva perm)
      pure perm
    else
      pure Perm.empty

/-- Sends a word, and the page mapped at `srcva` if that is an address of the user's, to an
environment that waits for a message. Nothing about the receiver changes unless the message is
delivered. -/
def ipcTrySend (cpu : Nat) (target value : UInt32) (srcva : Nat) (perm : UInt32) : Op M Unit := do
  let k ← get
  let sender ← Op.ofOption .badTarget (k.current cpu)
  let receiver ← Op.ofExcept (k.resolve cpu target false)
  if ¬ (k.env receiver).inbox.receiving then
    throw .notReceiving
  let granted ← handOver receiver (← Op.ofExcept (k.offered sender srcva perm))
  modify fun k => k.mapEnv receiver fun e =>
    { e with
      inbox := { e.inbox with receiving := false, sender := (k.env sender).id, value := value,
                              perm := granted }
      status := .runnable }

end State

end Exokernel
