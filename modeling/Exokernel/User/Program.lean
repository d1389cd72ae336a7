import Exokernel.Machine.Entry
import Exokernel.Memory.Frames
import Exokernel.User.Fork
/-!
# Programs on the machine

A program runs as the environment that has a CPU. Each of its system calls is a trap with the
registers the CPU went to user mode with. When the CPU then runs somebody else, the others make
system calls too, out of a list or yielding, until the program has its CPU back. It is only given
so many traps for all that.
-/

namespace Exokernel

namespace User

/-- What a program can still count on. -/
structure Allowance where
  /-- The calls the others make, in order. -/
  others : List (List UInt32)
  /-- The traps that are left. -/
  traps : Nat

/-- A computation of a program on the machine. -/
abbrev OnMachine (α : Type) := StateT Allowance (Machine.Act Frames) α

/-- Something happens to the machine. -/
def onMachine {α : Type} (x : Machine.Act Frames α) : OnMachine α := StateT.lift x

/-- The machine as it is. -/
def machine : OnMachine (Machine Frames) := onMachine get

instance : MonadLog OnMachine where
  say r := onMachine (say r)

/-- Waiting costs traps. -/
instance : MonadAwait OnMachine where
  await test := do awaitWithin test ((← get).traps + 1)

/-- Records an event. -/
def emit (e : Event) : OnMachine Unit := onMachine (Machine.onBench (Bench.emit e))

/-- The environment that has a CPU, by slot and identifier. -/
structure Occupant where
  slot : Option Slot
  id : Option EnvId
deriving DecidableEq

/-- The environment that has a CPU. -/
def occupant (k : State Frames) (cpu : CpuIndex) : Occupant where
  slot := k.current cpu.val
  id := k.currentId cpu.val

/-- The program that has a CPU makes a system call. -/
def trap (cpu : CpuIndex) (number : UInt32) (args : Args) : OnMachine Unit := do
  let a ← get
  match a.traps with
  | 0 => throw .starved
  | n + 1 =>
    set { a with traps := n }
    let exit ← onMachine do
      modify fun m => { m with bench := { m.bench with patience := Bench.fullPatience } }
      let m ← get
      Machine.syscallEntry cpu ((m.context cpu).calling number args)
    match exit with
    | .user _ _ => pure ()
    | .monitor => throw .halted

/-- What another program does when it has nothing else to do. -/
def idleCall : List UInt32 := [Call.yieldCpu.number]

/-- The program that has the CPU, which is another one, makes its next call. -/
def otherTrap (cpu : CpuIndex) : OnMachine Unit := do
  let a ← get
  let call := a.others.headD idleCall
  set { a with others := a.others.tail }
  emit (.intervened (EnvId.rawOrZero (occupant (← machine).kernel cpu).id) call)
  trap cpu (call.headD 0) (Args.ofList call.tail)

/-- Others run until a program has its CPU back. -/
def untilBack (cpu : CpuIndex) (me : Occupant) : Nat → OnMachine Unit
  | 0 => throw .starved
  | n + 1 => do
    if occupant (← machine).kernel cpu = me then
      pure ()
    else
      otherTrap cpu
      untilBack cpu me n

/-- The way into the kernel for the program that is `me` on a CPU. -/
def syscalls (cpu : CpuIndex) (me : Occupant) : Syscalls OnMachine where
  call c args := do
    trap cpu c.number args
    untilBack cpu me ((← get).traps + 1)
    let result := ((← machine).context cpu).eax
    emit (.returned c args result)
    pure result
  inbox := do
    match me.slot with
    | some s => pure ((← machine).kernel.env s).inbox.words
    | none => pure {}

/-- A page directory as a program sees it. -/
def space (dir : PageDir) : AddressSpace OnMachine where
  tablePresent va := do pure ((← machine).kernel.memory.tablePresent dir va)
  pagePerm va := do pure ((Memory.lookup (← machine).kernel.memory dir va).map (·.2))
  copyPage src dst := do
    onMachine (modify fun m =>
      { m with kernel := { m.kernel with memory := m.kernel.memory.copy dir src dst } })
    emit (.copied src dst)

/-- The page directory of an environment. -/
def directoryOf (m : Machine Frames) (me : Occupant) : PageDir :=
  match me.slot with
  | some s => (m.kernel.env s).pgdir
  | none => PageDir.null

/-- Runs a program as the environment that has a CPU. Only its system calls take the lock: a
program may look at its own pages and messages at any time. -/
def runOn {α : Type} (cpu : CpuIndex) (allowance : Allowance)
    (program : Syscalls OnMachine → AddressSpace OnMachine → OnMachine α) :
    Machine.Act Frames α := do
  let m ← get
  let me := occupant m.kernel cpu
  (program (syscalls cpu me) (space (directoryOf m me))).run' allowance

end User

end Exokernel
