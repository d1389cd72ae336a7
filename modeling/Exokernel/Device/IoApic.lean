import Exokernel.Layout
import Exokernel.Fault
import Exokernel.Log
import Exokernel.Device.Registers
/-!
# The controller of the interrupt lines

The registers are behind a window: one register selects, the other reads and writes what is
selected. The table has two registers for each line, the vector with its mode below and the
destination above.
-/

namespace Exokernel

namespace IoApic

/-- The offset of the register that selects. -/
abbrev select : Nat := 0x00

/-- The offset of the window onto the selected register. -/
abbrev window : Nat := 0x10

/-- The register with the controller's number. -/
abbrev idReg : UInt32 := 0x00

/-- The register with the controller's version and the number of its lines. -/
abbrev versionReg : UInt32 := 0x01

/-- The first register of the table of lines. -/
abbrev table : UInt32 := 0x10

/-- The line does not come through. -/
abbrev disabled : UInt32 := 0x10000

variable {m : Type → Type} [Monad m]

/-- Reads a register behind the window. -/
def read (r : Registers m) (reg : UInt32) : m UInt32 := do
  r.write select reg
  r.read window

/-- Writes a register behind the window. -/
def write (r : Registers m) (reg value : UInt32) : m Unit := do
  r.write select reg
  r.write window value

/-- The number of the last line. -/
def maxLine (r : Registers m) : m UInt32 := do
  pure (((← read r versionReg) >>> 16) &&& 0xff)

/-- Writes both registers of a line. -/
def writeLine (r : Registers m) (line low high : UInt32) : m Unit := do
  write r (table + 2 * line) low
  write r (table + 2 * line + 1) high

/-- Closes every line. A controller that goes by another number than the firmware gave it is
warned about. -/
def init [MonadLog m] (r : Registers m) (expectedId : UInt8) : m Unit := do
  let last ← maxLine r
  let id := (← read r idReg) >>> 24
  if id ≠ expectedId.toUInt32 then
    say {
      level := .warn
      target := Log.Target.ioApic
      message := "ioapic: id " ++ toString id.toNat ++ " isn't equal to ioapicid " ++
        toString expectedId.toNat ++ "; not a MP" }
  (List.range (last.toNat + 1)).forM fun n =>
    let line := UInt32.ofNat n
    writeLine r line (disabled ||| (Interrupt.base + line)) 0

/-- Opens a line towards the processor with a number. The registers of the line have to be
registers the window can select. -/
def route [MonadExceptOf Fault m] (r : Registers m) (line : UInt32) (apicId : UInt8) : m Unit := do
  if table.toNat + 2 * line.toNat ≥ UInt32.size then
    throw (.failed none)
  writeLine r line (Interrupt.base + line) (apicId.toUInt32 <<< 24)

end IoApic

end Exokernel
