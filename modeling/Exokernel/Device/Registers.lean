/-!
# Registers and ports

The ways in which code reaches hardware, as actions of a monad: blocks of memory-mapped registers,
and the services of the platform that are needed to start processors.
-/

namespace Exokernel

/-- A block of 32-bit registers, which go by their byte offsets. -/
structure Registers (m : Type → Type) where
  read : Nat → m UInt32
  write : Nat → UInt32 → m Unit

/-- The services of the platform. -/
structure Platform (m : Type → Type) where
  /-- Writes a byte to a port. -/
  outb : UInt16 → UInt8 → m Unit
  /-- Reads a byte from a port. -/
  inb : UInt16 → m UInt8
  /-- Writes a 16-bit word to low physical memory. -/
  storePhys : Nat → UInt16 → m Unit
  /-- Lets about that many microseconds pass. -/
  delay : UInt32 → m Unit

end Exokernel
