import Exokernel.EnvId
import Exokernel.Perm
import Exokernel.Status
import Exokernel.Call.Message
import Exokernel.Call.Number
import Exokernel.Call.Result
/-!
# System calls from user code

The kernel as user code sees it: one way in, with a call and five words, and one word that comes
back. Each system call has a function here that lays its arguments out in the words and reads the
answer.
-/

namespace Exokernel

/-- A way into the kernel. -/
structure Syscalls (m : Type → Type) where
  /-- Makes a call and answers with the return register. -/
  call : Call → Args → m UInt32
  /-- The last message delivered to the caller, as the kernel shows it. -/
  inbox : m MessageWords

namespace Syscalls

variable {m : Type → Type} [Monad m]

/-- Makes a call and reads its answer. -/
def perform (sys : Syscalls m) (c : Call) (args : Args) : ExceptT CallError m UInt32 := do
  ExceptT.mk (decodeResult <$> sys.call c args)

/-- The word that names an environment; the caller goes by 0. -/
def envWord (env : Option EnvId) : UInt32 := EnvId.rawOrZero env

/-- The word for an address, of which only the low 32 bits count. -/
def addressWord (va : Nat) : UInt32 := UInt32.ofNat va

/-- The word for the address of a page that may be missing. -/
def pageWord (page : Option Nat) : UInt32 := addressWord (page.getD Layout.noPage)

/-- The caller's identifier. -/
def getEnvId (sys : Syscalls m) : ExceptT CallError m EnvId := do
  match EnvId.ofRaw? (← sys.perform .getEnvId {}) with
  | some id => pure id
  | none => throw .unknown

/-- Destroys an environment. -/
def envDestroy (sys : Syscalls m) (env : Option EnvId) : ExceptT CallError m Unit := do
  let _ ← sys.perform .envDestroy { first := envWord env }

/-- Gives up the CPU, which never fails. -/
def yieldCpu (sys : Syscalls m) : m Unit := do
  let _ ← sys.call .yieldCpu {}

/-- Makes a child without a program. The parent gets its identifier, the child gets `none`. -/
def exofork (sys : Syscalls m) : ExceptT CallError m (Option EnvId) := do
  pure (EnvId.ofRaw? (← sys.perform .exofork {}))

/-- Puts an environment into a state. -/
def envSetStatus (sys : Syscalls m) (env : Option EnvId) (status : Status) :
    ExceptT CallError m Unit := do
  let _ ← sys.perform .envSetStatus { first := envWord env, second := status.number }

/-- Sets the entry point of an environment's page fault handler. -/
def envSetUpcall (sys : Syscalls m) (env : Option EnvId) (entry : Nat) :
    ExceptT CallError m Unit := do
  let _ ← sys.perform .envSetUpcall { first := envWord env, second := addressWord entry }

/-- Maps a new page of zeros. -/
def pageAlloc (sys : Syscalls m) (env : Option EnvId) (va : Nat) (perm : Perm) :
    ExceptT CallError m Unit := do
  let _ ← sys.perform .pageAlloc
    { first := envWord env, second := addressWord va, third := perm.bits }

/-- Maps a page of one environment in another one. -/
def pageMap (sys : Syscalls m) (src : Option EnvId) (srcva : Nat) (dst : Option EnvId)
    (dstva : Nat) (perm : Perm) : ExceptT CallError m Unit := do
  let _ ← sys.perform .pageMap
    { first := envWord src, second := addressWord srcva, third := envWord dst,
      fourth := addressWord dstva, fifth := perm.bits }

/-- Unmaps a page. -/
def pageUnmap (sys : Syscalls m) (env : Option EnvId) (va : Nat) : ExceptT CallError m Unit := do
  let _ ← sys.perform .pageUnmap { first := envWord env, second := addressWord va }

/-- Sends a word, and a page if there is one, to an environment that waits for a message. -/
def ipcTrySend (sys : Syscalls m) (target : EnvId) (value : UInt32) (page : Option Nat)
    (perm : Perm) : ExceptT CallError m Unit := do
  let _ ← sys.perform .ipcTrySend
    { first := target.raw, second := value, third := pageWord page,
      fourth := if page.isSome then perm.bits else 0 }

/-- Waits for a message, which is then in the inbox. -/
def ipcRecv (sys : Syscalls m) (page : Option Nat) : ExceptT CallError m Unit := do
  let _ ← sys.perform .ipcRecv { first := pageWord page }

/-- The number of the CPU the caller runs on. -/
def getCpuId (sys : Syscalls m) : ExceptT CallError m Nat := do
  pure (← sys.perform .getCpuId {}).toNat

end Syscalls

end Exokernel
