import Exokernel.Kernel.State
/-!
# Round-robin scheduling

Each CPU picks environments from its own run queue only, in circular order from the one it ran
last. The idle environment is passed over while any other can run.
-/

namespace Exokernel

/-- No environment of a run queue can have the CPU. -/
structure NothingRunnable where
  cpu : Nat
deriving DecidableEq

/-- What went wrong. -/
def NothingRunnable.message (e : NothingRunnable) : String :=
  "no runnable environments on CPU " ++ toString e.cpu

/-- An environment that was given the CPU, with the context to switch to. -/
structure Dispatch where
  slot : Slot
  frame : TrapFrame
  pgdir : PageDir
deriving DecidableEq

namespace State

variable {M : Type}

/-- The first slot after `s` that is runnable and not the idle one, among the next `n` in circular
order. -/
def scan (k : State M) (rq : RunQueue) : Nat → Slot → Except Fault (Option Slot)
  | 0, _ => .ok none
  | n + 1, s => do
    let t ← rq.next s
    if t ≠ rq.idle ∧ (k.env t).status = .runnable then
      pure (some t)
    else
      k.scan rq n t

/-- The environment to run next on a CPU: the first runnable one after the current one in circular
order, the idle one passed over; failing that the current one and then the idle one, if they can
run. -/
def select (k : State M) (cpu : Nat) : Except Fault (Except NothingRunnable Slot) :=
  let rq := k.runQueue cpu
  if rq.len = 0 then
    .ok (.error ⟨cpu⟩)
  else do
    let last := rq.current.getD rq.idle
    match ← k.scan rq rq.len last with
    | some s => pure (.ok s)
    | none =>
      match [last, rq.idle].find? fun s => (k.env s).status.canRun with
      | some s => pure (.ok s)
      | none => pure (.error ⟨cpu⟩)

/-- The environment that ran until now can run again later, unless it is the one to run next. -/
def suspend (k : State M) (last : Option Slot) (s : Slot) : State M :=
  match last with
  | some l =>
    if l ≠ s ∧ (k.env l).status = .running then
      k.mapEnv l fun e => { e with status := .runnable }
    else
      k
  | none => k

/-- The state in which the environment of a slot has a CPU. -/
def running (k : State M) (cpu : Nat) (s : Slot) : State M :=
  let rq := k.runQueue cpu
  ((k.setQueue (k.queueOf cpu) { rq with current := some s }).suspend rq.current s).mapEnv s
    fun e => { e with status := .running }

/-- Gives a CPU to the environment of a slot, which has to be one of the CPU's own. -/
def dispatch (cpu : Nat) (s : Slot) (k : State M) : Except Fault (Dispatch × State M) :=
  if (k.runQueue cpu).contains s then
    .ok ({ slot := s, frame := (k.env s).frame, pgdir := (k.env s).pgdir }, k.running cpu s)
  else
    .error (.failed none)

/-- Picks the next environment of a CPU and gives it the CPU. -/
def scheduleNext (cpu : Nat) (k : State M) :
    Except Fault (Except NothingRunnable Dispatch × State M) := do
  match ← k.select cpu with
  | .error e => pure (.error e, k)
  | .ok s =>
    let (d, k) ← k.dispatch cpu s
    pure (.ok d, k)

/-- Lets the environment running on a CPU go on, if it still may. -/
def resume (cpu : Nat) (k : State M) : Except Fault (Option Dispatch × State M) :=
  match k.current cpu with
  | some s =>
    if (k.env s).status = .running then do
      let (d, k) ← k.dispatch cpu s
      pure (some d, k)
    else
      .ok (none, k)
  | none => .ok (none, k)

end State

end Exokernel
