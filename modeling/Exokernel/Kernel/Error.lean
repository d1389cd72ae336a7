import Exokernel.Memory.Interface
import Exokernel.Call.Result
/-!
# Kernel errors

Why the kernel refuses an operation, and how each reason is reported to user code.
-/

namespace Exokernel

/-- Why the kernel refuses an operation. -/
inductive KernelError where
  /-- No environment goes by the identifier, or it may not be used this way. -/
  | badTarget
  | invalidArgument
  | noFreeSlot
  /-- The target of a message is not waiting for one. -/
  | notReceiving
  | memory (e : MemoryError)
deriving DecidableEq, Inhabited

namespace KernelError

/-- What went wrong. -/
def message : KernelError → String
  | .badTarget => "bad environment"
  | .invalidArgument => "invalid argument"
  | .noFreeSlot => "no free environment"
  | .notReceiving => "target is not receiving"
  | .memory e => e.message

/-- The name of the reason. -/
def name : KernelError → String
  | .badTarget => "BadTarget"
  | .invalidArgument => "InvalidArgument"
  | .noFreeSlot => "NoFreeSlot"
  | .notReceiving => "NotReceiving"
  | .memory _ => "Memory"

/-- All reasons. -/
def all : List KernelError :=
  [badTarget, invalidArgument, noFreeSlot, notReceiving, memory .outOfMemory, memory .badImage]

/-- The name of the cause: where memory refused, that of its reason. -/
def cause : KernelError → String
  | .memory e => e.name
  | e => e.name

/-- The reason with a cause of this name. -/
def ofCause? (s : String) : Option KernelError := all.find? (·.cause = s)

/-- The error a system call reports for it. -/
def toCallError : KernelError → CallError
  | .badTarget => .badTarget
  | .invalidArgument => .invalidArgument
  | .noFreeSlot => .noFreeSlot
  | .notReceiving => .notReceiving
  | .memory .outOfMemory => .outOfMemory
  | .memory .badImage => .invalidArgument

end KernelError

end Exokernel
