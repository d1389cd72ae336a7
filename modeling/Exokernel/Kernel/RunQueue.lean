import Exokernel.Layout
import Exokernel.Fault
/-!
# Run queues

A run queue is a contiguous slice of the environment table with the slot its CPU is running and
the first of its free slots. Its first slot is kept for the idle environment.
-/

namespace Exokernel

/-- How the environment table is divided among CPUs. -/
inductive Policy where
  /-- One run queue over the whole table, for a single CPU. -/
  | global
  /-- Equal fixed slices, one for each CPU. -/
  | perCpu
deriving DecidableEq, Inhabited

/-- The name of a policy in messages. -/
def Policy.name : Policy → String
  | .global => "global"
  | .perCpu => "per_cpu"

/-- The policy of a name. -/
def Policy.ofName? (s : String) : Option Policy := [global, perCpu].find? (·.name = s)

/-- A CPU's share of the environment table. -/
structure RunQueue where
  /-- The first slot of the slice. -/
  start : Slot
  /-- The number of slots. -/
  len : Nat
  fits : start.val + len ≤ slotCount
  /-- The slot running on the CPU. -/
  current : Option Slot := none
  /-- The first free slot; each free slot names the next. -/
  freeHead : Option Slot := none

namespace RunQueue

/-- The run queue of a CPU that takes no part. -/
def empty : RunQueue where
  start := ⟨0, by decide⟩
  len := 0
  fits := by decide

/-- The slice of a CPU, with every slot free and none running. -/
def forCpu (policy : Policy) (cpu : CpuIndex) : RunQueue :=
  match policy with
  | .global =>
    { start := ⟨0, by decide⟩, len := slotCount, fits := by decide,
      freeHead := some ⟨0, by decide⟩ }
  | .perCpu =>
    let start : Slot := ⟨cpu.val * sliceSize, by
      have := cpu.isLt
      simp only [cpuLimit, sliceSize, slotCount] at *
      omega⟩
    { start := start, len := sliceSize, fits := by
        have := cpu.isLt
        simp only [cpuLimit, sliceSize, slotCount, start] at *
        omega,
      freeHead := some start }

/-- The slot after the last one of the slice. -/
def stop (q : RunQueue) : Nat := q.start.val + q.len

/-- A slot of the slice. -/
def contains (q : RunQueue) (s : Slot) : Bool :=
  q.start ≤ s && s.val < q.stop

/-- The slot kept for the idle environment. -/
def idle (q : RunQueue) : Slot := q.start

/-- The slot that follows in circular order. A slot before the slice has no place in the order,
and a slice without slots has no order. -/
def next (q : RunQueue) (s : Slot) : Except Fault Slot :=
  if h : q.start ≤ s ∧ 0 < q.len then
    .ok ⟨q.start.val + (s.val - q.start.val + 1) % q.len, by
      have := Nat.mod_lt (s.val - q.start.val + 1) h.2
      have := q.fits
      omega⟩
  else
    .error (.failed none)

end RunQueue

end Exokernel
