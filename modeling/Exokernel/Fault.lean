/-!
# Faults and waiting

Code that cannot go on ends in a `Fault`. Code that waits repeats a test until it holds; a monad
that can wait says with `MonadAwait` how long it is prepared to.
-/

namespace Exokernel

/-- Why a computation did not come to its end. -/
inductive Fault where
  /-- A check the code makes of itself failed; there is a text where the code words one. -/
  | failed (text : Option String)
  /-- The code waits for something that does not happen. -/
  | hung
  /-- The CPU dropped into the kernel monitor under a user program. -/
  | halted
  /-- A user program did not get its CPU back in the time it was given. -/
  | starved
deriving DecidableEq, Inhabited

/-- Fails without a text unless `p` holds. -/
def Fault.unless (p : Prop) [Decidable p] : Except Fault Unit :=
  if p then .ok () else .error (.failed none)

/-- A monad whose computations can wait. -/
class MonadAwait (m : Type → Type) where
  /-- Repeats a test until it holds. -/
  await : m Bool → m Unit

export MonadAwait (await)

/-- Repeats a test until it holds, but no more than `n` times. -/
def awaitWithin {m : Type → Type} [Monad m] [MonadExceptOf Fault m] (test : m Bool) :
    Nat → m Unit
  | 0 => throw .hung
  | n + 1 => do
    if ← test then
      pure ()
    else
      awaitWithin test n

/-- A computation on a part of the state, as one on the whole of it. What the part became is kept
also when the computation fails. -/
def focus {ε σ τ α : Type} (part : σ → τ) (put : τ → σ → σ) (x : EStateM ε τ α) :
    EStateM ε σ α := fun s =>
  match x (part s) with
  | .ok a t => .ok a (put t s)
  | .error e t => .error e (put t s)

end Exokernel
