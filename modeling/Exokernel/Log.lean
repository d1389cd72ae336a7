/-!
# The log

A record has a level, the part of the system that speaks and a message. Records are gathered as
the code speaks and become lines of text, `[LEVEL target] message`, for the levels that are let
through.
-/

namespace Exokernel

namespace Log

/-- How much a record matters, most first. -/
inductive Level where
  | error
  | warn
  | info
  | debug
  | trace
deriving DecidableEq, Inhabited

/-- The place of a level, the most important first. -/
def Level.rank : Level → Nat
  | .error => 1
  | .warn => 2
  | .info => 3
  | .debug => 4
  | .trace => 5

/-- The level in a line of the log. -/
def Level.name : Level → String
  | .error => "ERROR"
  | .warn => "WARN"
  | .info => "INFO"
  | .debug => "DEBUG"
  | .trace => "TRACE"

/-- The least important level that is let through; `none` lets nothing through. -/
abbrev Threshold := Option Level

/-- A threshold lets through the levels at least as important as its own. -/
def Threshold.admits (t : Threshold) (l : Level) : Bool :=
  match t with
  | none => false
  | some limit => l.rank ≤ limit.rank

/-- The threshold of a name, in upper or lower case: that of a level, or `off`. -/
def Threshold.ofName? (s : String) : Option Threshold :=
  match s.toLower with
  | "off" => some none
  | "error" => some (some .error)
  | "warn" => some (some .warn)
  | "info" => some (some .info)
  | "debug" => some (some .debug)
  | "trace" => some (some .trace)
  | _ => none

/-- Something said to the log. -/
structure Record where
  level : Level
  /-- The part of the system that speaks. -/
  target : String
  message : String
deriving DecidableEq, Inhabited

/-- The text of a record, without the end of its line. -/
def Record.line (r : Record) : String :=
  "[" ++ r.level.name ++ " " ++ r.target ++ "] " ++ r.message

/-- The lines a threshold lets through. -/
def lines (t : Threshold) (records : List Record) : List String :=
  (records.filter (t.admits ·.level)).map Record.line

namespace Target

/-- The search for the firmware's description of the machine. -/
def firmware : String := "mp_config"

/-- The controller of the machine's interrupt lines. -/
def ioApic : String := "apic::io"

/-- The environment table. -/
def table : String := "sjos_kernel::env"

/-- The bring-up of the processors. -/
def boot : String := "sjos_kernel::boot"

/-- The system calls. -/
def calls : String := "sjos_kernel::syscall"

/-- The kernel as a whole. -/
def kernel : String := "sjos_kernel"

/-- The user library's fork. -/
def fork : String := "sjos_user_lib::fork"

end Target

end Log

/-- A monad whose computations can speak to the log. -/
class MonadLog (m : Type → Type) where
  /-- Says a record. -/
  say : Log.Record → m Unit

export MonadLog (say)

/-- Speaking under added errors. -/
instance {ε : Type} {m : Type → Type} [Monad m] [MonadLog m] : MonadLog (ExceptT ε m) where
  say r := ExceptT.lift (say r)

end Exokernel
