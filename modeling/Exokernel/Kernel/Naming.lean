import Exokernel.Kernel.State
/-!
# Naming environments

User code names environments by identifier, and 0 names the caller. Most calls may be aimed only
at the caller and its descendants; descent is read off the parent links of the table.
-/

namespace Exokernel

namespace State

variable {M : Type}

/-- Following at most `n` parent links from `id` arrives at `caller`, with every environment on
the way still the occupant of its slot. -/
def reaches (k : State M) (caller : EnvId) : Nat → EnvId → Bool
  | 0, _ => false
  | n + 1, id =>
    if id = caller then
      true
    else
      let e := k.env id.slot
      if e.id = some id then
        match e.parent with
        | some parent => k.reaches caller n parent
        | none => false
      else
        false

/-- The environment called `id` is the one running on a CPU or descends from it. Parent links can
form a circle through slots that were used again, so no more links are followed than there are
slots. -/
def isSelfOrDescendant (k : State M) (cpu : Nat) (id : EnvId) : Bool :=
  match k.currentId cpu with
  | some caller => k.reaches caller slotCount id
  | none => false

/-- The slot of the environment a word names, on behalf of the environment running on a CPU. With
`check` set the target has to be the caller or one of its descendants. -/
def resolve (k : State M) (cpu : Nat) (raw : UInt32) (check : Bool) : Except KernelError Slot :=
  match EnvId.ofRaw? raw with
  | none =>
    match k.current cpu with
    | some s => .ok s
    | none => .error .badTarget
  | some id =>
    let e := k.env id.slot
    if e.status = .free ∨ e.status = .dying ∨ e.lastId ≠ some id then
      .error .badTarget
    else if check && !k.isSelfOrDescendant cpu id then
      .error .badTarget
    else
      .ok id.slot

end State

end Exokernel
