import Exokernel.EnvId
import Exokernel.Status
import Exokernel.TrapFrame
import Exokernel.Memory.Interface
import Exokernel.Call.Message
/-!
# Environments

A slot of the environment table: the environment in it, or what is left of the last one.
-/

namespace Exokernel

/-- The receiving side of messages. -/
structure Inbox where
  /-- The environment waits for a message. -/
  receiving : Bool := false
  /-- Where a page that comes along is to be mapped. -/
  dstva : Nat := 0
  value : UInt32 := 0
  sender : Option EnvId := none
  /-- The permission of the page that came along. -/
  perm : Perm := Perm.empty
deriving DecidableEq

/-- The last message delivered, in the words user code reads. -/
def Inbox.words (b : Inbox) : MessageWords where
  sender := EnvId.rawOrZero b.sender
  value := b.value
  perm := b.perm.bits

/-- A slot of the environment table. -/
structure Env where
  /-- The identifier of the occupant, or of the last one. -/
  lastId : Option EnvId := none
  /-- The environment that made the occupant. -/
  parent : Option EnvId := none
  status : Status := .free
  /-- The CPU whose run queue owns the slot. -/
  cpu : CpuIndex
  frame : TrapFrame := TrapFrame.zero
  pgdir : PageDir := PageDir.null
  /-- The entry point of the occupant's page fault handler. -/
  upcall : Nat := 0
  inbox : Inbox := {}
  /-- The next free slot of the run queue. -/
  nextFree : Option Slot := none
deriving DecidableEq

namespace Env

/-- The identifier of the occupant. -/
def id (e : Env) : Option EnvId :=
  if e.status = .free then none else e.lastId

theorem id_of_free {e : Env} (h : e.status = .free) : e.id = none := by
  simp [id, h]

theorem id_of_not_free {e : Env} (h : e.status ≠ .free) : e.id = e.lastId := by
  simp [id, h]

/-- An environment goes by an identifier while it is there. -/
theorem id_eq_some_iff {e : Env} {id : EnvId} :
    e.id = some id ↔ e.status ≠ .free ∧ e.lastId = some id := by
  by_cases h : e.status = .free
  · simp [id_of_free h, h]
  · simp [id_of_not_free h, h]

end Env

end Exokernel
