import Exokernel.Layout
import Exokernel.Call.Number
import Exokernel.Text.Bytes
/-!
# Trap frames

The registers of user code as they are saved on entry to the kernel and restored on the way back.
A system call puts its number in `eax`, its arguments in `edx`, `ecx`, `ebx`, `edi` and `esi`, and
finds its result in `eax`.
-/

namespace Exokernel

/-- The saved registers of user code. -/
structure TrapFrame where
  edi : UInt32 := 0
  esi : UInt32 := 0
  ebp : UInt32 := 0
  /-- The stack pointer pushed along with the general registers, which nothing reads. -/
  oesp : UInt32 := 0
  ebx : UInt32 := 0
  edx : UInt32 := 0
  ecx : UInt32 := 0
  eax : UInt32 := 0
  es : UInt16 := 0
  ds : UInt16 := 0
  trapno : UInt32 := 0
  err : UInt32 := 0
  eip : UInt32 := 0
  cs : UInt16 := 0
  eflags : UInt32 := 0
  esp : UInt32 := 0
  ss : UInt16 := 0
deriving DecidableEq, Inhabited

namespace TrapFrame

/-- The frame of zeros. -/
def zero : TrapFrame := {}

/-- The selector of the user's code, at user privilege. -/
def userCode : UInt16 := 0x18 ||| 3

/-- The selector of the user's data, at user privilege. -/
def userData : UInt16 := 0x20 ||| 3

/-- The flag that lets interrupts through. -/
def interruptFlag : UInt32 := 0x200

/-- The first frame of a user environment: user selectors, interrupts on, an empty stack. The
entry point is set when a program is loaded. -/
def user : TrapFrame where
  ds := userData
  es := userData
  ss := userData
  cs := userCode
  eflags := interruptFlag
  esp := UInt32.ofNat Layout.stackTop

/-- The arguments of the system call made with a frame. -/
def args (tf : TrapFrame) : Args := ⟨tf.edx, tf.ecx, tf.ebx, tf.edi, tf.esi⟩

/-- The frame that makes a system call. -/
def calling (tf : TrapFrame) (number : UInt32) (a : Args) : TrapFrame :=
  { tf with eax := number, edx := a.first, ecx := a.second, ebx := a.third, edi := a.fourth,
            esi := a.fifth }

@[simp] theorem args_calling (tf : TrapFrame) (number : UInt32) (a : Args) :
    (tf.calling number a).args = a := rfl

@[simp] theorem eax_calling (tf : TrapFrame) (number : UInt32) (a : Args) :
    (tf.calling number a).eax = number := rfl

/-- The registers by name, in the order in which the frame holds them. -/
def registers (tf : TrapFrame) : List (String × Nat) :=
  [("edi", tf.edi.toNat), ("esi", tf.esi.toNat), ("ebp", tf.ebp.toNat), ("oesp", tf.oesp.toNat),
    ("ebx", tf.ebx.toNat), ("edx", tf.edx.toNat), ("ecx", tf.ecx.toNat), ("eax", tf.eax.toNat),
    ("es", tf.es.toNat), ("ds", tf.ds.toNat), ("trapno", tf.trapno.toNat),
    ("err", tf.err.toNat), ("eip", tf.eip.toNat), ("cs", tf.cs.toNat),
    ("eflags", tf.eflags.toNat), ("esp", tf.esp.toNat), ("ss", tf.ss.toNat)]

/-- The frame with the register of a name set, if there is one; the value is cut to the register's
width. -/
def set? (tf : TrapFrame) (name : String) (v : Nat) : Option TrapFrame :=
  match name with
  | "edi" => some { tf with edi := UInt32.ofNat v }
  | "esi" => some { tf with esi := UInt32.ofNat v }
  | "ebp" => some { tf with ebp := UInt32.ofNat v }
  | "oesp" => some { tf with oesp := UInt32.ofNat v }
  | "ebx" => some { tf with ebx := UInt32.ofNat v }
  | "edx" => some { tf with edx := UInt32.ofNat v }
  | "ecx" => some { tf with ecx := UInt32.ofNat v }
  | "eax" => some { tf with eax := UInt32.ofNat v }
  | "es" => some { tf with es := UInt16.ofNat v }
  | "ds" => some { tf with ds := UInt16.ofNat v }
  | "trapno" => some { tf with trapno := UInt32.ofNat v }
  | "err" => some { tf with err := UInt32.ofNat v }
  | "eip" => some { tf with eip := UInt32.ofNat v }
  | "cs" => some { tf with cs := UInt16.ofNat v }
  | "eflags" => some { tf with eflags := UInt32.ofNat v }
  | "esp" => some { tf with esp := UInt32.ofNat v }
  | "ss" => some { tf with ss := UInt16.ofNat v }
  | _ => none

/-- The frame with the registers of a list set, one after the other. -/
def setAll? (tf : TrapFrame) (values : List (String × Nat)) : Option TrapFrame :=
  values.foldlM (fun tf e => tf.set? e.1 e.2) tf

/-- The frame in memory: the general registers, then the rest, with the segment selectors padded
to 32 bits. -/
def bytes (tf : TrapFrame) : List UInt8 :=
  ([tf.edi, tf.esi, tf.ebp, tf.oesp, tf.ebx, tf.edx, tf.ecx, tf.eax, tf.es.toUInt32,
    tf.ds.toUInt32, tf.trapno, tf.err, tf.eip, tf.cs.toUInt32, tf.eflags, tf.esp,
    tf.ss.toUInt32].map Bytes.ofWord32).flatten

end TrapFrame

end Exokernel
