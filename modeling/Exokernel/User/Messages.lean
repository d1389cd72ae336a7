import Exokernel.Fault
import Exokernel.User.Syscalls
/-!
# Sending and receiving

Messages as programs use them: sending tries again until the receiver waits, receiving answers with
the message.
-/

namespace Exokernel

namespace User

variable {m : Type → Type} [Monad m]

/-- What is wrong when a message cannot be sent at all. -/
def sendFailed (e : CallError) : String := "ipc_send: " ++ e.message

/-- Tries to send, and tells whether that is done. Where the receiver does not wait for a message
the CPU goes to somebody else; any other refusal is final. -/
def sendOnce [MonadExceptOf Fault m] (sys : Syscalls m) (target : EnvId) (value : UInt32)
    (page : Option Nat) (perm : Perm) : m Bool := do
  match ← (sys.ipcTrySend target value page perm).run with
  | .ok () => pure true
  | .error .notReceiving =>
    sys.yieldCpu
    pure false
  | .error e => throw (.failed (some (sendFailed e)))

/-- Sends a word, and a page if there is one, as soon as the receiver waits for it. -/
def ipcSend [MonadExceptOf Fault m] [MonadAwait m] (sys : Syscalls m) (target : EnvId)
    (value : UInt32) (page : Option Nat) (perm : Perm) : m Unit :=
  await (sendOnce sys target value page perm)

/-- Waits for a message. A page that comes along is mapped at `page`, if that is given. -/
def ipcRecv (sys : Syscalls m) (page : Option Nat) : ExceptT CallError m Message := do
  sys.ipcRecv page
  pure (← sys.inbox).message

end User

end Exokernel
