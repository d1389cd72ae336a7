import Exokernel.Kernel.State
/-!
# Looking at the table

What a slot of the environment table shows. A free slot shows nothing but that, whatever is left in
it of the last occupant.
-/

namespace Exokernel

/-- What an occupied slot shows. -/
structure EnvView where
  status : Status
  id : Option EnvId
  parent : Option EnvId
  cpu : CpuIndex
  pgdir : PageDir
  upcall : Nat
  /-- The environment waits for a message. -/
  receiving : Bool
  /-- The last message delivered. -/
  words : MessageWords
  frame : TrapFrame
deriving DecidableEq

/-- What a slot shows, if it is not free. -/
def Env.view (e : Env) : Option EnvView :=
  if e.status = .free then
    none
  else
    some {
      status := e.status
      id := e.id
      parent := e.parent
      cpu := e.cpu
      pgdir := e.pgdir
      upcall := e.upcall
      receiving := e.inbox.receiving
      words := e.inbox.words
      frame := e.frame }

/-- What all slots show. -/
abbrev TableView := Vector (Option EnvView) slotCount

/-- What a table of free slots shows. -/
def TableView.blank : TableView := Vector.replicate slotCount none

namespace State

/-- What the table shows. -/
def view {M : Type} (k : State M) : TableView := k.envs.map Env.view

end State

/-- The slots that show something else than before, in order. -/
def TableView.changes (before after : TableView) : List (Slot × Option EnvView) :=
  ((List.finRange slotCount).filter fun s => before.get s ≠ after.get s).map fun s => (s, after.get s)

end Exokernel
