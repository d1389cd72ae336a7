/-!
# The state of an environment

What the scheduler may do with an environment, and the numbers and names it goes by in system
calls and reports.
-/

namespace Exokernel

/-- The scheduling state of an environment. -/
inductive Status where
  /-- The slot is available for allocation. -/
  | free
  /-- Destroyed while running on another CPU, and reclaimed when that CPU next enters the
  kernel. -/
  | dying
  /-- May be dispatched by its CPU. -/
  | runnable
  /-- Executing on its CPU. -/
  | running
  /-- Blocked, as while it waits for a message. -/
  | notRunnable
deriving DecidableEq, Inhabited

namespace Status

/-- The number of a state in a system call. -/
def number : Status → UInt32
  | .free => 0
  | .dying => 1
  | .runnable => 2
  | .running => 3
  | .notRunnable => 4

/-- The state with a number. -/
def ofNumber? (n : UInt32) : Option Status :=
  [free, dying, runnable, running, notRunnable].find? (·.number = n)

/-- The name of a state in reports. -/
def name : Status → String
  | .free => "FREE"
  | .dying => "DYING"
  | .runnable => "RUNNABLE"
  | .running => "RUNNING"
  | .notRunnable => "NOT_RUNNABLE"

/-- An environment in such a state may have the CPU. -/
def canRun : Status → Bool
  | .runnable | .running => true
  | _ => false

@[simp] theorem ofNumber?_number (s : Status) : ofNumber? s.number = some s := by
  cases s <;> decide

end Status

end Exokernel
