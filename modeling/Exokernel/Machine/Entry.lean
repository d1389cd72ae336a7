import Exokernel.Machine.Basic
/-!
# Entering the kernel

A CPU enters the kernel to schedule or on a system call, with the big kernel lock held from the
first look at the state to the last, and leaves it for user mode or, when nothing is left to run,
for the kernel monitor.
-/

namespace Exokernel

/-- How a CPU leaves the kernel. -/
inductive Exit where
  /-- For user mode, with these registers and this address space. -/
  | user (frame : TrapFrame) (pgdir : PageDir)
  /-- For the kernel monitor. -/
  | monitor
deriving DecidableEq

namespace Machine

variable {M : Type} {m : Type → Type} [Monad m] [MonadMachine M m]

/-- A CPU that holds the lock leaves for user mode. -/
def run (cpu : CpuIndex) (d : Dispatch) : m Exit := do
  unlock cpu
  leaveWith cpu d.frame
  pure (.user d.frame d.pgdir)

/-- What is said when a CPU has nothing left to run. -/
def nothingToDo (e : NothingRunnable) : Log.Record where
  level := .error
  target := Log.Target.kernel
  message := e.message ++ ": destroyed all environments - nothing more to do!"

variable [MonadLog m]

/-- A CPU that holds the lock runs its next environment, or drops into the monitor if there is
none. -/
def schedule (cpu : CpuIndex) : m Exit := do
  match ← askKernel (Request.scheduleNext cpu.val) with
  | .ok d => run cpu d
  | .error e =>
    say (nothingToDo e)
    release cpu
    pure .monitor

variable [MonadAwait m]

/-- A CPU without a context of its own enters the scheduler. -/
def enterScheduler (cpu : CpuIndex) : m Exit := do
  standFor cpu
  acquire cpu
  schedule cpu

variable [Memory M]

/-- A system call, with the caller's registers. If another CPU destroyed the caller while it was
in user mode, the call is not executed. -/
def syscallEntry (cpu : CpuIndex) (tf : TrapFrame) : m Exit := do
  standFor cpu
  acquire cpu
  if ← askKernel (Request.reap cpu.val) then
    schedule cpu
  else
    match ← askKernel (Request.syscall cpu.val tf) with
    | .schedule => schedule cpu
    | .resume =>
      match ← askKernel (Request.resume cpu.val) with
      | some d => run cpu d
      | none => schedule cpu

end Machine

end Exokernel
