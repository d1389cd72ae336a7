import Exokernel.Layout
import Exokernel.Fault
/-!
# Nested disabling of interrupts

Interrupts are disabled and enabled in matching pairs: it takes as many `pop` as there were `push`
to enable them again, and if they were off at the outermost `push` they stay off after its `pop`.
The pairs are counted for each CPU; the flag that is read and written is that of the CPU that
executes the code.
-/

namespace Exokernel

/-- The pairs a CPU is inside of. -/
structure Nesting where
  /-- How many they are. The machine counts them in a word; here the count has no end, so what comes
  of more pairs at a time than a word can count is left out. -/
  depth : Nat := 0
  /-- Interrupts were on at the outermost pair. -/
  enabledBefore : Bool := false
deriving DecidableEq, Inhabited

/-- Nesting and interrupt flag of every CPU. -/
structure Interrupts where
  nesting : Vector Nesting cpuLimit
  enabled : Vector Bool cpuLimit

namespace Interrupts

/-- No CPU is inside of a pair; the flags are as given. -/
def ofFlags (f : CpuIndex → Bool) : Interrupts where
  nesting := Vector.replicate cpuLimit {}
  enabled := Vector.ofFn f

/-- The nesting of a CPU. -/
def nest (i : Interrupts) (cpu : CpuIndex) : Nesting := i.nesting[cpu]

/-- The interrupt flag of a CPU. -/
def flag (i : Interrupts) (cpu : CpuIndex) : Bool := i.enabled[cpu]

/-- Sets the interrupt flag of a CPU. -/
def setFlag (i : Interrupts) (cpu : CpuIndex) (on : Bool) : Interrupts :=
  { i with enabled := i.enabled.set cpu on }

/-- Replaces the nesting of a CPU. -/
def setNest (i : Interrupts) (cpu : CpuIndex) (n : Nesting) : Interrupts :=
  { i with nesting := i.nesting.set cpu n }

/-- The CPU `acting` disables its interrupts; the pair counts for the CPU `owner`. -/
def push (i : Interrupts) (acting owner : CpuIndex) : Interrupts :=
  let n := i.nest owner
  (i.setFlag acting false).setNest owner {
    depth := n.depth + 1
    enabledBefore := if n.depth = 0 then i.flag acting else n.enabledBefore }

/-- What is wrong with ending a pair while interrupts are on. -/
def interruptible : String := "pop_disabled - interruptible"

/-- What is wrong with ending a pair that was not begun. -/
def unbalanced : String := "pop_disabled - unbalanced"

/-- The CPU `acting` ends a pair of the CPU `owner`, and enables its interrupts if that was the
outermost one and they were on before. -/
def pop (i : Interrupts) (acting owner : CpuIndex) : Except Fault Interrupts :=
  let n := i.nest owner
  if i.flag acting then
    .error (.failed (some interruptible))
  else
    match n.depth with
    | 0 => .error (.failed (some unbalanced))
    | d + 1 =>
      let i := i.setNest owner { n with depth := d }
      .ok (if d = 0 ∧ n.enabledBefore then i.setFlag acting true else i)

end Interrupts

end Exokernel
