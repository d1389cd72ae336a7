/-!
# The return register

A system call answers through one register. A word that is negative when read as a signed number
is an error, any other word is the value of the call.
-/

namespace Exokernel

/-- The errors a system call reports to user code. -/
inductive CallError where
  | unspecified
  | badTarget
  | invalidArgument
  | outOfMemory
  | noFreeSlot
  | notReceiving
  /-- An error word without a meaning. -/
  | unknown
deriving DecidableEq, Inhabited

namespace CallError

/-- What went wrong. -/
def message : CallError → String
  | .unspecified => "unspecified or unknown problem"
  | .badTarget => "environment doesn't exist or otherwise cannot be used in requested action"
  | .invalidArgument => "invalid parameter"
  | .outOfMemory => "request failed due to memory shortage"
  | .noFreeSlot => "attempt to create a new environment beyond the maximum allowed"
  | .notReceiving => "attempt to send to env that is not recving"
  | .unknown => "unknown error"

/-- The name of the error. -/
def name : CallError → String
  | .unspecified => "Unspecified"
  | .badTarget => "BadTarget"
  | .invalidArgument => "InvalidArgument"
  | .outOfMemory => "OutOfMemory"
  | .noFreeSlot => "NoFreeSlot"
  | .notReceiving => "NotReceiving"
  | .unknown => "Unknown"

/-- All errors. -/
def all : List CallError :=
  [unspecified, badTarget, invalidArgument, outOfMemory, noFreeSlot, notReceiving, unknown]

/-- The error of a name. -/
def ofName? (s : String) : Option CallError := all.find? (·.name = s)

/-- The error's number; an unknown error goes by the number of the unspecified one. -/
def number : CallError → Nat
  | .unspecified => 1
  | .badTarget => 2
  | .invalidArgument => 3
  | .outOfMemory => 4
  | .noFreeSlot => 5
  | .notReceiving => 7
  | .unknown => 1

/-- The error as a signed number: its own number, negated. -/
def signed (e : CallError) : Int := -(e.number : Int)

/-- The error a signed number stands for. -/
def ofSigned (i : Int) : CallError :=
  (([unspecified, badTarget, invalidArgument, outOfMemory, noFreeSlot, notReceiving].find?
    (·.signed = i))).getD unknown

end CallError

/-- A word read as a signed number. -/
def signedOfWord (w : UInt32) : Int :=
  if w.toNat < 0x80000000 then w.toNat else (w.toNat : Int) - UInt32.size

/-- The return register for the result of a call. -/
def encodeResult : Except CallError UInt32 → UInt32
  | .ok value => value
  | .error e => 0 - UInt32.ofNat e.number

/-- The result a return register stands for. -/
def decodeResult (w : UInt32) : Except CallError UInt32 :=
  if w.toNat < 0x80000000 then .ok w else .error (CallError.ofSigned (signedOfWord w))

end Exokernel
