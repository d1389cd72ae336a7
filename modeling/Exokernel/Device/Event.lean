import Exokernel.Call.Number
/-!
# Events

What can be seen of a run from outside, in order: accesses to registers, ports and low memory, the
steps of processors that start or wait, and the system calls of the program under observation.
-/

namespace Exokernel

/-- Something seen from outside. -/
inductive Event where
  /-- A register was written. -/
  | wrote (paddr : Nat) (offset : Nat) (value : UInt32)
  /-- A register was read, with this answer. -/
  | read (paddr : Nat) (offset : Nat) (value : UInt32)
  /-- A port was written. -/
  | portOut (port : UInt16) (value : UInt8)
  /-- A port was read. -/
  | portIn (port : UInt16) (value : UInt8)
  /-- A word of low memory was written. -/
  | stored (paddr : Nat) (value : UInt16)
  /-- Some microseconds passed. -/
  | delayed (us : UInt32)
  /-- A CPU went once around a waiting loop. -/
  | spun
  /-- Registers were asked for, and were there or not. -/
  | mapped (paddr : UInt32) (found : Bool)
  /-- The code processors start in was put into place. -/
  | entryInstalled
  /-- The top of a CPU's kernel stack was asked for. -/
  | stackTop (cpu : Nat) (top : Nat)
  /-- A CPU reported that it is up. -/
  | booted (cpu : Nat)
  /-- The program under observation came back from a system call. -/
  | returned (call : Call) (args : Args) (result : UInt32)
  /-- Another program made a system call. -/
  | intervened (id : UInt32) (call : List UInt32)
  /-- A page was copied. -/
  | copied (src dst : Nat)

end Exokernel
