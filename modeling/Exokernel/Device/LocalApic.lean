import Exokernel.Layout
import Exokernel.Fault
import Exokernel.Device.Registers
/-!
# The local interrupt controller

Each processor has a controller of its own, for its timer and for the interrupts processors send
each other. A processor is started through the controller of the one that starts it.
-/

namespace Exokernel

namespace LocalApic

/-! The registers, by byte offset. -/

abbrev idReg : Nat := 0x020
abbrev versionReg : Nat := 0x030
abbrev taskPriority : Nat := 0x080
abbrev endOfInterrupt : Nat := 0x0b0
abbrev spuriousVector : Nat := 0x0f0
abbrev errorStatus : Nat := 0x280
abbrev commandLow : Nat := 0x300
abbrev commandHigh : Nat := 0x310
abbrev timer : Nat := 0x320
abbrev counter : Nat := 0x340
abbrev line0 : Nat := 0x350
abbrev line1 : Nat := 0x360
abbrev errorVector : Nat := 0x370
abbrev timerCount : Nat := 0x380
abbrev timerDivide : Nat := 0x3e0

/-! The bits of their words. -/

/-- The controller works. -/
abbrev enable : UInt32 := 0x100

/-- The command resets a processor. -/
abbrev reset : UInt32 := 0x500

/-- The command starts a processor that was reset. -/
abbrev startup : UInt32 := 0x600

/-- The bits that tell commands apart. -/
abbrev commandBits : UInt32 := 0x700

/-- The last command is still on its way. -/
abbrev pending : UInt32 := 0x1000

/-- The command sets a level, and does not clear it. -/
abbrev assertLevel : UInt32 := 0x4000

/-- The command is of a level. -/
abbrev level : UInt32 := 0x8000

/-- The command is for all controllers. -/
abbrev broadcast : UInt32 := 0x80000

/-- The timer counts at the full rate of its clock. -/
abbrev divideByOne : UInt32 := 0xb

/-- The timer starts over when it is done. -/
abbrev periodic : UInt32 := 0x20000

/-- The interrupt does not come through. -/
abbrev masked : UInt32 := 0x10000

/-- The first version of the controller that has a performance counter interrupt. -/
abbrev firstWithCounter : UInt32 := 4

/-- The port that selects a byte of the clock's memory. -/
abbrev clockSelect : UInt16 := 0x70

/-- The port the selected byte is behind. -/
abbrev clockData : UInt16 := 0x71

/-- The byte of the clock's memory that tells what to do after a reset. -/
abbrev shutdownByte : UInt8 := 0x0f

/-- After a reset, jump through the vector. -/
abbrev shutdownJump : UInt8 := 0x0a

/-- The physical address of the vector a reset processor jumps through. -/
abbrev resetVector : Nat := 0x467

variable {m : Type → Type} [Monad m]

/-- Writes a register and waits for the write by reading another one. -/
def write (r : Registers m) (offset : Nat) (value : UInt32) : m Unit := do
  r.write offset value
  let _ ← r.read idReg

/-- The number of the controller. -/
def id (r : Registers m) : m UInt8 := do
  pure ((← r.read idReg) >>> 24).toUInt8

/-- Tells the controller that an interrupt has been serviced. -/
def acknowledge (r : Registers m) : m Unit :=
  write r endOfInterrupt 0

/-- Sets the controller of a processor up. On the one the machine started on, line 0 stays open,
so that the old interrupt controller gets through. The timer's mode goes last, since mode and count
take effect together only then. -/
def init [MonadAwait m] (r : Registers m) (isBsp : Bool) : m Unit := do
  write r spuriousVector (enable ||| (Interrupt.base + Interrupt.spurious))
  write r timerDivide divideByOne
  write r timerCount Interrupt.timerCount
  write r timer (periodic ||| (Interrupt.base + Interrupt.timer))
  unless isBsp do
    write r line0 masked
  write r line1 masked
  let version ← r.read versionReg
  if (version >>> 16) &&& 0xff ≥ firstWithCounter then
    write r counter masked
  write r errorVector (Interrupt.base + Interrupt.error)
  -- The error status is cleared by writing it twice.
  write r errorStatus 0
  write r errorStatus 0
  acknowledge r
  write r commandHigh 0
  write r commandLow (broadcast ||| reset ||| level)
  await do
    pure ((← r.read commandLow) &&& pending == 0)
  write r taskPriority 0

/-- What is wrong with an entry address that does not start a page. -/
def entryNotAligned : String := "AP entry must be page aligned"

/-- What is wrong with an entry address a processor cannot reach in real mode. -/
def entryTooHigh : String := "AP entry must be below 1MiB"

/-- Starts the processor with a number at a physical address below 1 MiB, the start of a page. The
reset vector is one for all, so only one processor may be started at a time. The start command is
sent twice; the second one finds the processor running and does nothing. -/
def startProcessor [MonadExceptOf Fault m] (r : Registers m) (p : Platform m) (apicId : UInt8)
    (addr : UInt32) : m Unit := do
  if addr.toNat % Layout.pageSize ≠ 0 then
    throw (.failed (some entryNotAligned))
  if addr.toNat ≥ 0x100000 then
    throw (.failed (some entryTooHigh))
  p.outb clockSelect shutdownByte
  p.outb clockData shutdownJump
  p.storePhys resetVector 0
  p.storePhys (resetVector + 2) (addr >>> 4).toUInt16
  let destination := apicId.toUInt32 <<< 24
  write r commandHigh destination
  write r commandLow (reset ||| level ||| assertLevel)
  p.delay 200
  write r commandLow (reset ||| level)
  p.delay 100
  sendStartup destination
  sendStartup destination
where
  /-- Sends the start command. -/
  sendStartup (destination : UInt32) : m Unit := do
    write r commandHigh destination
    write r commandLow (startup ||| addr >>> 12)
    p.delay 200

end LocalApic

end Exokernel
