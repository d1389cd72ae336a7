import Exokernel.Cpu.Set
import Exokernel.Cpu.SpinLock
import Exokernel.Device.LocalApic
import Exokernel.Kernel.Request
import Exokernel.Machine.Board
/-!
# The machine

The kernel on a board: its processors, the big kernel lock, and what the lock protects. One CPU
executes at a time. The others are user programs as far as the kernel is concerned, or processors
that were started and are on their way: time passes for those with every event and with every turn
of a waiting loop, and at some point each reports that it is up.
-/

namespace Exokernel

/-- A processor that was started and is not up yet. -/
structure Starting where
  cpu : CpuIndex
  /-- The events since it was started. -/
  events : Nat := 0
  /-- The turns of waiting loops since it was started. -/
  hints : Nat := 0
deriving DecidableEq

/-- The kernel on a board. -/
structure Machine (M : Type) where
  board : Board
  bench : Bench
  cpus : CpuSet
  interrupts : Interrupts
  /-- The big kernel lock. -/
  lock : SpinLock
  kernel : State M
  /-- What processors read when they come up. -/
  args : BootArgs := {}
  starting : List Starting := []
  /-- For each CPU the registers it last went to user mode with. -/
  contexts : Vector (Option TrapFrame) cpuLimit
  /-- The CPU that executes. -/
  acting : CpuIndex

/-- A monad whose computations work a machine. What a CPU does to enter and to leave the kernel and
to start others is put together from these, whatever else the monad does with them. -/
class MonadMachine (M : outParam Type) (m : Type → Type) where
  /-- The CPU that executes. -/
  thisCpu : m CpuIndex
  /-- Lets a CPU execute. -/
  standFor : CpuIndex → m Unit
  /-- What is known of the CPUs. -/
  cpuSet : m CpuSet
  /-- Something happens to the big kernel lock. -/
  atLock {α : Type} : SpinLock.Act α → m α
  /-- A request to the kernel. -/
  askKernel {α : Type} : Request M α → m α
  /-- One turn of a waiting loop. -/
  pause : m Unit
  /-- Puts the number of the CPU to start and the top of its stack where started processors read
  them. -/
  publish : CpuIndex → Nat → m Unit
  /-- A CPU goes to user mode with these registers. -/
  leaveWith : CpuIndex → TrapFrame → m Unit

export MonadMachine (thisCpu standFor cpuSet atLock askKernel pause publish leaveWith)

namespace Machine

variable {M : Type}

/-- A computation on a machine. -/
abbrev Act (M α : Type) := EStateM Fault (Machine M) α

/-- A machine that has not been booted. -/
def fresh (board : Board) (bench : Bench) (memory : M) : Machine M where
  board := board
  bench := bench
  cpus := CpuSet.fresh
  interrupts := Interrupts.ofFlags fun _ => true
  lock := { name := "kernel" }
  kernel := State.fresh memory
  contexts := Vector.replicate cpuLimit none
  acting := ⟨0, cpuLimit_pos⟩

/-- The machine with nothing recorded yet and no processor on its way. -/
def rested (m : Machine M) : Machine M := { m with bench := m.bench.rested, starting := [] }

/-- The registers a CPU last went to user mode with; before that, those of a fresh program. -/
def context (m : Machine M) (cpu : CpuIndex) : TrapFrame :=
  (getElem m.contexts cpu.val cpu.isLt).getD TrapFrame.user

/-- Something happens at the bench. -/
def onBench {α : Type} (x : Bench.Act α) : Act M α :=
  focus (·.bench) (fun b m => { m with bench := b }) x

/-- Something happens to the big kernel lock. -/
def onLock {α : Type} (x : SpinLock.Act α) : Act M α :=
  focus (fun m => (m.lock, m.interrupts))
    (fun t m => { m with lock := t.1, interrupts := t.2 }) x

instance : MonadLog (Act M) where
  say r := onBench (say r)

instance : MonadAwait (Act M) where
  await test := do awaitWithin test ((← get).bench.patience + 1)

/-- A request to the kernel. What the kernel has to say goes to the log. -/
def onKernel {α : Type} (x : Request M α) : Act M α := do
  match x (← get).kernel with
  | .ok (a, k) =>
    modify fun m => { m with kernel := { k with journal := [] } }
    k.journal.forM say
    pure a
  | .error e => throw e

/-- Lets a CPU execute. -/
def actAs (cpu : CpuIndex) : Act M Unit := modify fun m => { m with acting := cpu }

/-! ## Processors on their way -/

/-- A processor reports that it is up, unless that is known already. -/
def arrive (cpu : CpuIndex) : Act M Unit := do
  unless ((← get).cpus.cpu cpu).booted do
    modify fun m => { m with cpus := m.cpus.setBooted cpu }
    onBench (Bench.emit (.booted cpu.val))

/-- The processor is up by now. -/
def isUp (m : Machine M) (s : Starting) : Bool :=
  m.board.wakes (m.cpus.cpu s.cpu).apicId s.events s.hints

/-- The processors on their way that are up by now report it. -/
def settle : Act M Unit := do
  let m ← get
  let (up, rest) := m.starting.partition m.isUp
  set { m with starting := rest }
  up.forM fun s => arrive s.cpu

/-- Time passes with an event. -/
def afterEvent : Act M Unit := do
  modify fun m =>
    { m with starting := m.starting.map fun s => { s with events := s.events + 1 } }
  settle

/-- One turn of a waiting loop. -/
def hint : Act M Unit := do
  onBench Bench.spin
  modify fun m =>
    { m with starting := m.starting.map fun s => { s with hints := s.hints + 1 } }
  settle

/-- The processor a start command goes to: the one whose controller has the destination's number,
unless it is up or on its way. -/
def addressee (m : Machine M) (destination : UInt32) : Option CpuIndex :=
  (m.cpus.byApicId? (destination >>> 24).toUInt8).filter fun cpu =>
    !(m.cpus.cpu cpu).booted && !m.starting.any (·.cpu = cpu)

/-- What is written to the command register of a local interrupt controller may start a
processor. -/
def startsProcessor (d : Device) (offset : Nat) (value : UInt32) : Option UInt32 :=
  match d with
  | .file values _ =>
    if offset = LocalApic.commandLow ∧ value &&& LocalApic.commandBits = LocalApic.startup then
      some (Device.valueAt values LocalApic.commandHigh)
    else
      none
  | _ => none

/-- A processor is started by a write to a register. -/
def startBy (n offset : Nat) (value : UInt32) : Act M Unit := do
  let m ← get
  let destination := m.bench.devices[n]?.bind fun d => startsProcessor d.device offset value
  match destination.bind m.addressee with
  | some cpu => set { m with starting := m.starting ++ [({ cpu := cpu } : Starting)] }
  | none => pure ()

instance : MonadMachine M (Act M) where
  thisCpu := do pure (← get).acting
  standFor := actAs
  cpuSet := do pure (← get).cpus
  atLock := onLock
  askKernel := onKernel
  pause := hint
  publish cpu stackTop :=
    modify fun m => { m with args := { m.args with cpu := cpu.val, stackTop := stackTop } }
  leaveWith cpu frame :=
    modify fun m => { m with contexts := m.contexts.set cpu (some frame) cpu.isLt }

/-- The registers of the device of a number at the bench. -/
def registers (n : Nat) : Registers (Act M) where
  read offset := do
    let value ← onBench (Bench.readRegister n offset)
    afterEvent
    pure value
  write offset value := do
    onBench (Bench.writeRegister n offset value)
    afterEvent
    startBy n offset value
    settle

/-- The ports and the clock of the board. -/
def platform : Platform (Act M) where
  outb port value := do
    onBench (Bench.platform.outb port value)
    afterEvent
  inb port := do
    let value ← onBench (Bench.platform.inb port)
    afterEvent
    pure value
  storePhys paddr value := do
    onBench (Bench.platform.storePhys paddr value)
    afterEvent
  delay us := do
    onBench (Bench.platform.delay us)
    afterEvent

/-- Asks the board for the registers at a physical address. -/
def mapRegisters (paddr : UInt32) : Act M (Option (Registers (Act M))) := do
  let device := (← get).board.deviceAt? paddr
  onBench (Bench.emit (.mapped paddr device.isSome))
  match device with
  | some d => pure (some (registers (← onBench (Bench.mount paddr.toNat d))))
  | none => pure none

/-! ## The big kernel lock -/

section Lock

variable {m : Type → Type} [Monad m] [MonadMachine M m]

/-- A CPU takes the big kernel lock, and waits until it can. -/
def acquire [MonadAwait m] (cpu : CpuIndex) : m Unit := do
  let acting ← thisCpu
  unless ← atLock (SpinLock.request acting cpu) do
    await do
      pause
      atLock (SpinLock.take cpu)

/-- A CPU gives the big kernel lock back. -/
def release (cpu : CpuIndex) : m Unit := do
  let acting ← thisCpu
  atLock (SpinLock.release acting cpu)

/-- A CPU gives the big kernel lock back and lets another one have a chance of it. -/
def unlock (cpu : CpuIndex) : m Unit := do
  release cpu
  pause

end Lock

/-- A request to the kernel under the lock, which the CPU the machine started on takes. -/
def underLock {α : Type} (x : Request M α) : Act M α := do
  match (← get).cpus.bsp? with
  | some bsp =>
    actAs bsp
    acquire bsp
    let a ← onKernel x
    release bsp
    pure a
  | none => throw (.failed none)

end Machine

end Exokernel
