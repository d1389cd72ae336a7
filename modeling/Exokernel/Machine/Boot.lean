import Exokernel.Device.IoApic
import Exokernel.Machine.Entry
/-!
# Bringing up the processors

The processor the machine starts on finds out about the others, programs the interrupt controllers
and starts the other processors. They all use one reset vector and one `BootArgs`, so the next one
is started only after the last one has reported that it is up.
-/

namespace Exokernel

/-- The scheduling policy for a topology. -/
def Topology.policy (t : Topology) : Policy :=
  if t.isMp then .perCpu else .global

/-- The port that selects the register behind which the old interrupt controller is connected. -/
abbrev modeSelect : UInt16 := 0x22

/-- The port the selected register is behind. -/
abbrev modeData : UInt16 := 0x23

/-- The register that connects the old interrupt controller. -/
abbrev modeRegister : UInt8 := 0x70

/-- The bit that disconnects it. -/
abbrev symmetricMode : UInt8 := 0x01

/-- Something said while the processors are brought up. -/
def bootRecord (level : Log.Level) (message : String) : Log.Record where
  level := level
  target := Log.Target.boot
  message := message

/-- Disconnects the old interrupt controller, so that interrupts go through the new ones. -/
def switchToSymmetric {m : Type → Type} [Monad m] [MonadLog m] (p : Platform m) : m Unit := do
  say (bootRecord .info "SMP: Setting IMCR to switch from PIC mode to symmetric I/O mode")
  p.outb modeSelect modeRegister
  let mode ← p.inb modeData
  p.outb modeData (mode ||| symmetricMode)

namespace Machine

variable {M : Type}

section Starting

variable {m : Type → Type} [Monad m] [MonadLog m] [MonadAwait m] [MonadExceptOf Fault m]
  [MonadMachine M m]

/-- Starts a CPU through the controller of the one that executes, and waits until it is up. -/
def startOther (lapic : Registers m) (p : Platform m) (cpu : CpuIndex) (stackTop : Nat) :
    m Unit := do
  publish cpu stackTop
  LocalApic.startProcessor lapic p ((← cpuSet).cpu cpu).apicId (UInt32.ofNat Layout.entryPage)
  await do
    if ((← cpuSet).cpu cpu).booted then
      pure true
    else
      pause
      pure false
  say (bootRecord .info ("SMP: CPU " ++ toString cpu.val ++ " started"))

/-- Starts every CPU but `me`, one at a time. -/
def startOthers (lapic : Registers m) (p : Platform m) (me : CpuIndex)
    (stackTop : CpuIndex → m Nat) : m Unit := do
  ((← cpuSet).members.filter (· ≠ me)).forM fun cpu => do
    startOther lapic p cpu (← stackTop cpu)

end Starting

/-- Asks the board for the top of a CPU's kernel stack. -/
def stackTopOf (cpu : CpuIndex) : Act M Nat := do
  let top := (← get).board.stackTop cpu
  onBench (Bench.emit (.stackTop cpu.val top))
  pure top

/-- Installs the console's logger; one that is there already stays. -/
def installLogger : Act M Unit := do
  match (← get).bench.logger.install? (some .info) with
  | some l => modify fun m => { m with bench := { m.bench with logger := l } }
  | none => say (bootRecord .warn ("boot: " ++ Logger.alreadyInstalled))

/-- What is said when the processors have no interrupt controllers to be started through. -/
def noLocalApic (paddr : UInt32) : Log.Record :=
  bootRecord .warn ("SMP: no local APIC at " ++ Hex.address paddr.toNat ++
    ", falling back to uniprocessor")

/-- The topology to boot with, and the local interrupt controller if there is one to use. Without
it no other processor can be started, so the machine is taken for one with a single processor. -/
def usableTopology : Act M (Topology × Option (Registers (Act M))) := do
  let (t, records) := (← get).board.findTopology
  records.forM say
  if t.isMp then
    match ← mapRegisters t.lapicAddr with
    | some lapic => pure (t, some lapic)
    | none =>
      say (noLocalApic t.lapicAddr)
      pure (Topology.uniprocessor, none)
  else
    pure (t, none)

/-- Sets the controllers of the interrupt lines up. -/
def initLines (t : Topology) : Act M Unit := do
  if t.isMp then
    if let some ioApic ← mapRegisters t.ioApicAddr then
      IoApic.init ioApic t.ioApicId
  if t.imcr then
    switchToSymmetric platform

/-- What is wrong when an environment cannot be made at boot. -/
def creationFailed (cpu : Nat) (e : KernelError) : String :=
  "env_create on CPU " ++ toString cpu ++ ": " ++ e.message

variable [Memory M]

/-- Makes an environment at boot, which has to work. -/
def createAtBoot (image : Image) (cpu : Nat) : Act M Unit := do
  match ← onKernel (Request.create image cpu) with
  | .ok _ => pure ()
  | .error e => throw (.failed (some (creationFailed cpu e)))

/-- What the processor the machine starts on does: it prepares the machine, starts the others, and
makes an idle environment for every CPU and then the environments of `images`, each on the CPU
given with it, before it enters the scheduler. The others wait for the lock until then. -/
def bspMain (idle : Image) (images : List (Image × Nat)) : Act M Exit := do
  installLogger
  let (t, lapic) ← usableTopology
  modify fun m => { m with cpus := m.cpus.configure t }
  match (← get).cpus.bsp? with
  | none => throw (.failed none)
  | some bsp =>
    lapic.forM fun lapic => LocalApic.init lapic true
    initLines t
    acquire bsp
    let _ ← onKernel (Request.init t.policy (← get).cpus.count)
    lapic.forM fun lapic => do
      onBench (Bench.emit .entryInstalled)
      modify fun m => { m with args := { m.args with lapicAddr := t.lapicAddr } }
      startOthers lapic platform bsp stackTopOf
    modify fun m => { m with cpus := m.cpus.setBooted bsp }
    (← get).cpus.members.forM fun cpu => createAtBoot idle cpu.val
    images.forM fun (image, cpu) => createAtBoot image cpu
    schedule bsp

/-- What is wrong with a CPU number that is not in use. -/
def unknownCpu (n : Nat) : String := "ap_main: unknown CPU " ++ toString n

/-- What every other processor does once it has been started: it sets its interrupt controller up,
reports that it is up and enters the scheduler. -/
def apMain : Act M Exit := do
  let m ← get
  match m.cpus.get? m.args.cpu with
  | none => throw (.failed (some (unknownCpu m.args.cpu)))
  | some cpu =>
    actAs cpu
    if let some lapic ← mapRegisters m.args.lapicAddr then
      LocalApic.init lapic false
    say (bootRecord .info ("SMP: CPU " ++ toString cpu.val ++ " starting"))
    modify fun m => { m with cpus := m.cpus.setBooted cpu }
    acquire cpu
    schedule cpu

end Machine

end Exokernel
