import Exokernel.Log
import Exokernel.Kernel.Env
import Exokernel.Kernel.Error
import Exokernel.Kernel.RunQueue
/-!
# The state of the kernel

Everything the big kernel lock protects: the environment table, the run queues and memory. Slots
and queues are read with `env` and `queue` and replaced with `setEnv` and `setQueue`; the lemmas
here say what each replacement leaves alone.
-/

namespace Exokernel

/-- Everything the big kernel lock protects. -/
structure State (M : Type) where
  policy : Policy
  envs : Vector Env slotCount
  queues : Vector RunQueue cpuLimit
  memory : M
  /-- What the kernel has said and the console has not shown yet, oldest first. -/
  journal : List Log.Record := []

/-- A kernel operation. It may be refused, and what it changed before that stays changed. -/
abbrev Op (M α : Type) := EStateM KernelError (State M) α

namespace Op

/-- The result of an operation and the state it leaves. -/
def run {M α : Type} (op : Op M α) (k : State M) : Except KernelError α × State M :=
  match op k with
  | .ok a k' => (.ok a, k')
  | .error e k' => (.error e, k')

/-- The operation that has a result already. -/
def ofExcept {M α : Type} : Except KernelError α → Op M α
  | .ok a => pure a
  | .error e => throw e

/-- The operation that has what is there, and is refused otherwise. -/
def ofOption {M α : Type} (e : KernelError) : Option α → Op M α
  | some a => pure a
  | none => throw e

/-- The operation with its refusal as an answer. -/
def attempt {M α : Type} (op : Op M α) : Op M (Except KernelError α) := fun k =>
  match op k with
  | .ok a k' => .ok (.ok a) k'
  | .error e k' => .ok (.error e) k'

/-- An operation of the state's memory. -/
def onMemory {M α : Type} (op : EStateM MemoryError M α) : Op M α := fun k =>
  match op k.memory with
  | .ok a mem => .ok a { k with memory := mem }
  | .error e mem => .error (.memory e) { k with memory := mem }

end Op

namespace State

variable {M : Type}

/-- The state before anything is set up. -/
def fresh (memory : M) : State M where
  policy := .global
  envs := Vector.replicate slotCount { cpu := ⟨0, cpuLimit_pos⟩ }
  queues := Vector.replicate cpuLimit RunQueue.empty
  memory := memory

/-- The slot `s` of the table. -/
def env (k : State M) (s : Slot) : Env := k.envs[s]

/-- The state with the slot `s` replaced. -/
def setEnv (k : State M) (s : Slot) (e : Env) : State M :=
  { k with envs := k.envs.set s e }

/-- The state with the slot `s` changed. -/
def mapEnv (k : State M) (s : Slot) (f : Env → Env) : State M :=
  k.setEnv s (f (k.env s))

/-- The run queue at a place. -/
def queue (k : State M) (q : CpuIndex) : RunQueue := getElem k.queues q.val q.isLt

/-- The state with a run queue replaced. -/
def setQueue (k : State M) (q : CpuIndex) (rq : RunQueue) : State M :=
  { k with queues := k.queues.set q rq q.isLt }

/-- The state after the kernel has said something. -/
def say (k : State M) (level : Log.Level) (target message : String) : State M :=
  { k with journal := k.journal ++ [{ level, target, message }] }

/-- There is a run queue for a CPU of this number. -/
def Serves (k : State M) (cpu : Nat) : Prop :=
  k.policy = .global ∨ cpu < cpuLimit

instance (k : State M) (cpu : Nat) : Decidable (k.Serves cpu) :=
  inferInstanceAs (Decidable (_ ∨ _))

/-- The place of the run queue that serves a CPU: the first one when there is only one, else the
CPU's own. -/
def queueOf (k : State M) (cpu : Nat) : CpuIndex :=
  match k.policy with
  | .global => ⟨0, cpuLimit_pos⟩
  | .perCpu => Fin.ofNat cpuLimit cpu

/-- The run queue that serves a CPU. -/
def runQueue (k : State M) (cpu : Nat) : RunQueue := k.queue (k.queueOf cpu)

/-- The slot running on a CPU. -/
def current (k : State M) (cpu : Nat) : Option Slot := (k.runQueue cpu).current

/-- The identifier of the environment running on a CPU. -/
def currentId (k : State M) (cpu : Nat) : Option EnvId :=
  match k.current cpu with
  | some s => (k.env s).id
  | none => none

@[simp] theorem env_setEnv_self (k : State M) (s : Slot) (e : Env) :
    (k.setEnv s e).env s = e := by
  simp [env, setEnv]

theorem env_setEnv_ne (k : State M) {s t : Slot} (e : Env) (h : t ≠ s) :
    (k.setEnv s e).env t = k.env t := by
  have : s.val ≠ t.val := fun h' => h (Fin.ext h'.symm)
  simp [env, setEnv, Vector.getElem_set_ne _ _ this]

@[simp] theorem queue_setEnv (k : State M) (s : Slot) (e : Env) (q : CpuIndex) :
    (k.setEnv s e).queue q = k.queue q := rfl

@[simp] theorem queue_setQueue_self (k : State M) (q : CpuIndex) (rq : RunQueue) :
    (k.setQueue q rq).queue q = rq := by
  simp [queue, setQueue]

theorem queue_setQueue_ne (k : State M) {q r : CpuIndex} (rq : RunQueue) (h : r ≠ q) :
    (k.setQueue q rq).queue r = k.queue r := by
  have : q.val ≠ r.val := fun h' => h (Fin.ext h'.symm)
  simp [queue, setQueue, Vector.getElem_set_ne _ _ this]

@[simp] theorem env_setQueue (k : State M) (q : CpuIndex) (rq : RunQueue) (s : Slot) :
    (k.setQueue q rq).env s = k.env s := rfl

end State

end Exokernel
