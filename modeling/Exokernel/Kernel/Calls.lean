import Exokernel.Kernel.Table
import Exokernel.Kernel.Messages
/-!
# System calls

What each call does on behalf of the environment running on a CPU, and `syscall`, which saves the
caller's registers, performs the call and leaves the result in the caller's saved `eax`.
-/

namespace Exokernel

/-- What the kernel does after a system call. -/
inductive Next where
  /-- Return to the caller. -/
  | resume
  /-- Run the scheduler. -/
  | schedule
deriving DecidableEq, Inhabited

/-- The name of what comes next. -/
def Next.name : Next → String
  | .resume => "resume"
  | .schedule => "schedule"

/-- How a call that was not refused ended. -/
inductive Completion where
  /-- The caller gets a value. -/
  | value (v : UInt32)
  /-- The caller gives up the CPU and later resumes with 0. -/
  | yielded
  /-- The caller no longer exists. -/
  | exited
deriving DecidableEq

namespace State

variable {M : Type}

/-- The permission a call asks for. -/
def userPerm (raw : UInt32) : Op M Perm :=
  Op.ofOption .invalidArgument (Perm.ofUser? raw)

/-- The page address a call names. -/
def userPage (va : UInt32) : Op M Nat :=
  if isUserPage va.toNat then pure va.toNat else throw .invalidArgument

/-- The slot of the environment a call may act on: the caller or one of its descendants. -/
def target (cpu : Nat) (raw : UInt32) : Op M Slot := do
  Op.ofExcept ((← get).resolve cpu raw true)

/-- The identifier of the caller. -/
def getEnvId (cpu : Nat) : Op M UInt32 := do
  let id ← Op.ofOption .badTarget ((← get).currentId cpu)
  pure id.raw

/-- The state an environment may be put into by a call: it can be made to run or to wait, no
more. -/
def settable? (n : UInt32) : Option Status :=
  match Status.ofNumber? n with
  | some .runnable => some .runnable
  | some .notRunnable => some .notRunnable
  | _ => none

/-- Makes an environment runnable or not runnable. -/
def setStatus (cpu : Nat) (raw status : UInt32) : Op M Unit := do
  let status ← Op.ofOption .invalidArgument (settable? status)
  let s ← target cpu raw
  modify fun k => k.mapEnv s fun e => { e with status := status }

/-- Sets the entry point of an environment's page fault handler. -/
def setUpcall (cpu : Nat) (raw entry : UInt32) : Op M Unit := do
  let s ← target cpu raw
  modify fun k => k.mapEnv s fun e => { e with upcall := entry.toNat }

variable [Memory M]

/-- Destroys the caller or one of its descendants. -/
def envDestroy (cpu : Nat) (raw : UInt32) : Op M Completion := do
  let s ← target cpu raw
  let k ← get
  let caller := k.currentId cpu
  let victim := (k.env s).id
  let text :=
    if victim = caller then
      " exiting gracefully"
    else
      " destroying " ++ EnvId.textOrZero victim
  let (disposal, k) :=
    (k.say .debug Log.Target.calls ("[" ++ EnvId.textOrZero caller ++ "]" ++ text)).destroy cpu s
  set k
  match disposal with
  | .freedCurrent => pure .exited
  | .freed | .deferred => pure (.value 0)

/-- Makes a child of the caller, on the caller's CPU and not runnable, with the caller's registers
except that it gets 0 from this call. -/
def exofork (cpu : Nat) : Op M UInt32 := do
  let k ← get
  let parent ← Op.ofOption .badTarget (k.current cpu)
  let child ← alloc (k.env parent).id cpu
  modify fun k => k.mapEnv child fun e =>
    { e with frame := { (k.env parent).frame with eax := 0 } }
  let id ← Op.ofOption .badTarget ((← get).env child).id
  pure id.raw

/-- Maps a new page of zeros, replacing what is mapped there. -/
def pageAlloc (cpu : Nat) (raw va perm : UInt32) : Op M Unit := do
  let s ← target cpu raw
  let va ← userPage va
  let perm ← userPerm perm
  let page ← Op.onMemory Memory.allocPage
  let dir := ((← get).env s).pgdir
  match ← Op.attempt (Op.onMemory (Memory.insert dir page va perm)) with
  | .ok () => pure ()
  | .error e =>
    modify fun k => { k with memory := Memory.freePage page k.memory }
    throw e

/-- Maps a page of one environment into another. The new mapping may be writable only if the old
one is. -/
def pageMap (cpu : Nat) (srcRaw srcva dstRaw dstva perm : UInt32) : Op M Unit := do
  let src ← target cpu srcRaw
  let dst ← target cpu dstRaw
  let srcva ← userPage srcva
  let dstva ← userPage dstva
  let perm ← userPerm perm
  let k ← get
  let page ← Op.ofOption .invalidArgument (k.shareable (k.env src).pgdir srcva perm)
  Op.onMemory (Memory.insert (k.env dst).pgdir page dstva perm)

/-- Unmaps a page; nothing need be mapped there. -/
def pageUnmap (cpu : Nat) (raw va : UInt32) : Op M Unit := do
  let s ← target cpu raw
  let va ← userPage va
  modify fun k => { k with memory := Memory.remove (k.env s).pgdir va k.memory }

/-- Performs a call with its arguments. -/
def perform (cpu : Nat) (call : Call) (a : Args) : Op M Completion :=
  match call with
  | .getEnvId => .value <$> getEnvId cpu
  | .envDestroy => envDestroy cpu a.first
  | .pageAlloc => done (pageAlloc cpu a.first a.second a.third)
  | .pageMap => done (pageMap cpu a.first a.second a.third a.fourth a.fifth)
  | .pageUnmap => done (pageUnmap cpu a.first a.second)
  | .exofork => .value <$> exofork cpu
  | .envSetStatus => done (setStatus cpu a.first a.second)
  | .envSetUpcall => done (setUpcall cpu a.first a.second)
  | .yieldCpu => pure .yielded
  | .ipcTrySend => done (ipcTrySend cpu a.first a.second a.third.toNat a.fourth)
  | .ipcRecv => do
    ipcRecv cpu a.first.toNat
    pure .yielded
  | .getCpuId => pure (.value (UInt32.ofNat cpu))
where
  /-- A call without a value answers 0. -/
  done (op : Op M Unit) : Op M Completion := do
    op
    pure (.value 0)

/-- Performs the call with a number, which may be of no call. -/
def performNumber (cpu : Nat) (number : UInt32) (a : Args) : Op M Completion :=
  match Call.ofNumber? number with
  | some call => perform cpu call a
  | none => do
    modify fun k =>
      k.say .warn Log.Target.calls ("unknown sys call " ++ toString number.toNat)
    throw .invalidArgument

/-- Leaves the result of a call in a saved frame. -/
def setResult (k : State M) (s : Slot) (w : UInt32) : State M :=
  k.mapEnv s fun e => { e with frame := { e.frame with eax := w } }

/-- Handles a system call made on a CPU with the registers `tf`. With no environment there to have
made it, there is nothing to do but to schedule. -/
def syscall (cpu : Nat) (tf : TrapFrame) (k : State M) : Next × State M :=
  match k.current cpu with
  | none => (.schedule, k)
  | some s =>
    let k := k.mapEnv s fun e => { e with frame := tf }
    match performNumber cpu tf.eax tf.args k with
    | .ok (.value v) k => (.resume, k.setResult s (encodeResult (.ok v)))
    | .ok .yielded k => (.schedule, k.setResult s 0)
    | .ok .exited k => (.schedule, k)
    | .error e k => (.resume, k.setResult s (encodeResult (.error e.toCallError)))

end State

end Exokernel
