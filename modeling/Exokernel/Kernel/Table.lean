import Exokernel.Kernel.State
/-!
# The environment table

Dividing the table among the CPUs, and the life of an environment: `alloc` takes the first free
slot of a run queue, `create` fills one with a program, `free` gives a slot back. An environment
that runs on another CPU is not freed under it: `destroy` marks it and `reap` frees it once its
own CPU is in the kernel.
-/

namespace Exokernel

/-- What became of an environment that was destroyed. -/
inductive Disposal where
  /-- Its slot is free. -/
  | freed
  /-- It ran on the CPU that destroyed it, and its slot is free: the CPU has to schedule. -/
  | freedCurrent
  /-- It runs on another CPU and is marked as dying. -/
  | deferred
deriving DecidableEq, Inhabited

/-- The name of what became of an environment. -/
def Disposal.name : Disposal → String
  | .freed => "Freed"
  | .freedCurrent => "FreedCurrent"
  | .deferred => "Deferred"

namespace State

variable {M : Type}

/-- The CPU that owns a slot when `ncpu` CPUs share the table. -/
def ownerUnder (policy : Policy) (ncpu : Nat) (s : Slot) : Option CpuIndex :=
  match policy with
  | .global => some ⟨0, cpuLimit_pos⟩
  | .perCpu =>
    if s.val / sliceSize < ncpu then
      some ⟨s.val / sliceSize, slice_lt s⟩
    else
      none

/-- The free slot `s` of a fresh slice: it names the next slot of the slice, if there is one. -/
def blankEnv (policy : Policy) (cpu : CpuIndex) (s : Slot) : Env where
  cpu := cpu
  nextFree :=
    if h : s.val + 1 < slotCount then
      let t : Slot := ⟨s.val + 1, h⟩
      if (RunQueue.forCpu policy cpu).contains t then some t else none
    else
      none

/-- Divides the table among `ncpu` CPUs. Every slot of their slices becomes free, in ascending
order, so that the first allocation from a queue takes its idle slot; slots of no slice stay as
they are. -/
def divide (policy : Policy) (ncpu : Nat) (k : State M) : State M :=
  { k with
    policy := policy
    envs := Vector.ofFn fun s =>
      match ownerUnder policy ncpu s with
      | some cpu => blankEnv policy cpu s
      | none => k.env s
    queues := Vector.ofFn fun cpu =>
      if cpu.val < ncpu then RunQueue.forCpu policy cpu else RunQueue.empty }

/-- Sets the table up for `ncpu` CPUs, between 1 and the most the kernel can hold. One queue for
all of them is only for a single CPU. -/
def init (policy : Policy) (ncpu : Nat) (k : State M) : Except Fault (State M) := do
  Fault.unless (1 ≤ ncpu ∧ ncpu ≤ cpuLimit)
  if policy = .global ∧ ncpu ≠ 1 then
    throw (.failed (some "global scheduling needs a uniprocessor"))
  pure ((k.divide policy ncpu).say .info Log.Target.table
    ("sched: " ++ policy.name ++ " policy over " ++ toString ncpu ++ " cpu(s)"))

variable [Memory M]

/-- The slot `s` with a new occupant: not runnable yet, with an address space and a first frame of
its own. -/
def occupied (e : Env) (s : Slot) (parent : Option EnvId) (dir : PageDir) : Env where
  lastId := some (EnvId.next e.lastId s)
  parent := parent
  status := .notRunnable
  cpu := e.cpu
  frame := TrapFrame.user
  pgdir := dir

/-- Takes the first free slot of a CPU's run queue for a new environment. -/
def alloc (parent : Option EnvId) (cpu : Nat) : Op M Slot := do
  let k ← get
  match (k.runQueue cpu).freeHead with
  | none => throw .noFreeSlot
  | some s =>
    let dir ← Op.onMemory Memory.createSpace
    modify fun k =>
      let e := k.env s
      let rq := k.runQueue cpu
      ((k.setEnv s (occupied e s parent dir)).setQueue (k.queueOf cpu)
          { rq with freeHead := e.nextFree }).say .debug Log.Target.table
        ("[" ++ EnvId.textOrZero parent ++ "] new env " ++ (EnvId.next e.lastId s).text ++
          " on cpu " ++ toString cpu)
    pure s

/-- Frees a slot and all memory its environment uses. The slot becomes the first free one of the
run queue that owns it. -/
def free (s : Slot) (k : State M) : State M :=
  let e := k.env s
  let rq := k.runQueue e.cpu
  let k := k.say .debug Log.Target.table ("free env " ++ EnvId.textOrZero e.lastId)
  let k := { k with memory := Memory.destroySpace e.pgdir k.memory }
  (k.setEnv s { e with pgdir := PageDir.null, status := .free, inbox := {}, parent := none,
                       nextFree := rq.freeHead }).setQueue (k.queueOf e.cpu)
    { rq with current := if rq.current = some s then none else rq.current, freeHead := some s }

/-- Makes a runnable environment that runs a program image. If the image cannot be loaded the
slot is given back. -/
def create (image : Image) (cpu : Nat) : Op M EnvId := do
  let s ← alloc none cpu
  let dir := ((← get).env s).pgdir
  match ← Op.attempt (Op.onMemory (Memory.loadImage dir image)) with
  | .error e =>
    modify (free s)
    throw e
  | .ok entry =>
    modify fun k => k.mapEnv s fun e =>
      { e with frame := { e.frame with eip := UInt32.ofNat entry }, status := .runnable }
    Op.ofOption .badTarget ((← get).env s).lastId

/-- Destroys an environment on behalf of a CPU. If it runs on another CPU it is only marked, and
is left for that CPU to reap. -/
def destroy (cpu : Nat) (s : Slot) (k : State M) : Disposal × State M :=
  let e := k.env s
  if e.status = .running ∧ e.cpu.val ≠ cpu then
    (.deferred, k.setEnv s { e with status := .dying })
  else if k.current cpu = some s then
    (.freedCurrent, free s k)
  else
    (.freed, free s k)

/-- Frees the environment running on a CPU if it was marked as dying, and tells whether it was. -/
def reap (cpu : Nat) (k : State M) : Bool × State M :=
  match k.current cpu with
  | some s => if (k.env s).status = .dying then (true, free s k) else (false, k)
  | none => (false, k)

end State

end Exokernel
