import Exokernel.Assoc
import Exokernel.Console
import Exokernel.Fault
import Exokernel.Device.Event
import Exokernel.Device.Registers
/-!
# The test bench

Devices whose registers hold what was written to them, ports, and a record of everything that
happens. Waiting costs patience: each turn of a waiting loop and each answer of a busy register
takes one unit, and when none is left the wait is given up.
-/

namespace Exokernel

/-- A register that answers with extra bits for some time. -/
structure Busy where
  offset : Nat
  bits : UInt32
  /-- The answers that still have the extra bits. -/
  count : Nat
deriving DecidableEq

/-- The registers of a device. -/
inductive Device where
  /-- Each register holds what was written to it; one may be busy. -/
  | file (values : Assoc Nat UInt32) (busy : Option Busy)
  /-- Registers behind a window, one of them selected. -/
  | window (selected : UInt32) (values : Assoc UInt32 UInt32)
  /-- Plain memory, as an array of words. -/
  | words (values : Vector UInt32 256)

namespace Device

/-- The offset of the register that selects behind a window. -/
abbrev selector : Nat := 0x00

/-- The offset of the selected register behind a window. -/
abbrev selection : Nat := 0x10

/-- Bytes of a word of memory. -/
abbrev wordSize : Nat := 4

/-- The value of a register of a file, as it was written. -/
def valueAt (values : Assoc Nat UInt32) (offset : Nat) : UInt32 := (values.get? offset).getD 0

/-- The register at the offset is busy. -/
def isBusy (d : Device) (offset : Nat) : Bool :=
  match d with
  | .file _ (some b) => b.offset == offset && b.count != 0
  | _ => false

/-- The answer of a register. -/
def answer (d : Device) (offset : Nat) : UInt32 :=
  match d with
  | .file values busy =>
    match busy with
    | some b =>
      if b.offset = offset ∧ b.count ≠ 0 then valueAt values offset ||| b.bits
      else valueAt values offset
    | none => valueAt values offset
  | .window selected values => if offset = selection then (values.get? selected).getD 0 else 0
  | .words values => if h : offset / wordSize < 256 then values[offset / wordSize] else 0

/-- The device after a register has answered. -/
def afterRead (d : Device) (offset : Nat) : Device :=
  match d with
  | .file values (some b) =>
    if b.offset = offset then .file values (some { b with count := b.count - 1 }) else d
  | _ => d

/-- The device after a register has been written. -/
def afterWrite (d : Device) (offset : Nat) (value : UInt32) : Device :=
  match d with
  | .file values busy => .file (values.insert offset value) busy
  | .window selected values =>
    if offset = selector then .window value values
    else if offset = selection then .window selected (values.insert selected value)
    else d
  | .words values =>
    if h : offset / wordSize < 256 then .words (values.set (offset / wordSize) value) else d

/-- There is a register at the offset: memory has words only. -/
def accepts (d : Device) (offset : Nat) : Bool :=
  match d with
  | .words _ => offset % wordSize == 0
  | _ => true

/-- Memory with some words set, each by its byte offset. -/
def memory (values : List (Nat × UInt32)) : Device :=
  values.foldl (fun d e => d.afterWrite e.1 e.2) (.words (Vector.replicate 256 0))

/-- The words of memory that are not 0, by byte offset. -/
def nonzeroWords : Device → List (Nat × UInt32)
  | .words values =>
    (values.toList.zipIdx.filter fun e => e.1 ≠ 0).map fun e => (e.2 * wordSize, e.1)
  | _ => []

/-- Accesses to the device can be seen from outside. -/
def visible : Device → Bool
  | .words _ => false
  | _ => true

end Device

/-- A device in its place. -/
structure Mounted where
  paddr : Nat
  device : Device

/-- Devices, ports and the record of what happened. -/
structure Bench where
  devices : Array Mounted := #[]
  ports : Assoc UInt16 UInt8 := {}
  logger : Logger := {}
  /-- What was said to the log and shown, oldest first. -/
  log : List Log.Record := []
  /-- What happened, latest first. -/
  events : List Event := []
  /-- What is left of the patience for waits. -/
  patience : Nat := 50

namespace Bench

/-- The patience there is at the start. -/
def fullPatience : Nat := 50

/-- A computation at the bench. -/
abbrev Act (α : Type) := EStateM Fault Bench α

/-- Records an event. -/
def emit (e : Event) : Act Unit :=
  modify fun b => { b with events := e :: b.events }

/-- Uses up one unit of patience. -/
def spend : Act Unit := do
  match (← get).patience with
  | 0 => throw .hung
  | n + 1 => modify fun b => { b with patience := n }

/-- One turn of a waiting loop. -/
def spin : Act Unit := do
  spend
  emit .spun

instance : MonadLog Act where
  say r := modify fun b => if b.logger.shows r then { b with log := b.log ++ [r] } else b

instance : MonadAwait Act where
  await test := do awaitWithin test ((← get).patience + 1)

/-- Puts a device into place; the answer is its number at the bench. -/
def mount (paddr : Nat) (d : Device) : Act Nat := fun b =>
  .ok b.devices.size { b with devices := b.devices.push ⟨paddr, d⟩ }

/-- The device of a number, which has to have the register. -/
def deviceAt (n offset : Nat) : Act Mounted := do
  match (← get).devices[n]? with
  | some d => if d.device.accepts offset then pure d else throw (.failed none)
  | none => throw (.failed none)

/-- Replaces the device of a number. -/
def setDevice (n : Nat) (d : Mounted) : Act Unit :=
  modify fun b => { b with devices := b.devices.setIfInBounds n d }

/-- Reads a register. -/
def readRegister (n offset : Nat) : Act UInt32 := do
  let d ← deviceAt n offset
  if d.device.isBusy offset then
    spend
  let value := d.device.answer offset
  setDevice n { d with device := d.device.afterRead offset }
  if d.device.visible then
    emit (.read d.paddr offset value)
  pure value

/-- Writes a register. -/
def writeRegister (n offset : Nat) (value : UInt32) : Act Unit := do
  let d ← deviceAt n offset
  setDevice n { d with device := d.device.afterWrite offset value }
  if d.device.visible then
    emit (.wrote d.paddr offset value)

/-- The registers of the device of a number. -/
def registers (n : Nat) : Registers Act where
  read := readRegister n
  write := writeRegister n

/-- The ports and the clock of the bench. -/
def platform : Platform Act where
  outb port value := do
    modify fun b => { b with ports := b.ports.insert port value }
    emit (.portOut port value)
  inb port := do
    let value := ((← get).ports.get? port).getD 0
    emit (.portIn port value)
    pure value
  storePhys paddr value := emit (.stored paddr value)
  delay us := emit (.delayed us)

/-- The bench with nothing recorded yet and all patience. -/
def rested (b : Bench) : Bench :=
  { b with log := [], events := [], patience := fullPatience }

end Bench

end Exokernel
