import Exokernel.Kernel.State
/-!
# How a computation ends

A kernel operation may be refused, and what it changed before that stays changed, so a statement
about one has to speak of both ends. `Ends x s Q` says that `x`, started in `s`, ends with a result
and a state that satisfy `Q`. The lemmas push it through the parts a computation is put together
from, down to the state each end leaves behind.
-/

namespace Exokernel

variable {ε σ α β : Type}

/-- What can be told of a result shows that there is one. -/
theorem exists_of_map_toOption {x : Except ε α} {f : α → β} {b : β}
    (h : x.toOption.map f = some b) : ∃ a, x = .ok a ∧ f a = b := by
  cases x with
  | error e => cases h
  | ok a => exact ⟨a, rfl, Option.some.inj h⟩

/-- Started in `s`, the computation ends with a result and a state that satisfy `Q`. -/
def Ends (x : EStateM ε σ α) (s : σ) (Q : Except ε α → σ → Prop) : Prop :=
  match x s with
  | .ok a t => Q (.ok a) t
  | .error e t => Q (.error e) t

namespace Ends

variable {x : EStateM ε σ α} {s : σ} {Q R : Except ε α → σ → Prop}

theorem pure_iff {a : α} : Ends (pure a) s Q ↔ Q (.ok a) s := Iff.rfl

theorem throw_iff {e : ε} : Ends (throw e) s Q ↔ Q (.error e) s := Iff.rfl

theorem get_iff {Q : Except ε σ → σ → Prop} : Ends get s Q ↔ Q (.ok s) s := Iff.rfl

theorem set_iff {t : σ} {Q : Except ε PUnit → σ → Prop} : Ends (set t) s Q ↔ Q (.ok ⟨⟩) t :=
  Iff.rfl

theorem modify_iff {f : σ → σ} {Q : Except ε PUnit → σ → Prop} :
    Ends (modify f) s Q ↔ Q (.ok ⟨⟩) (f s) := Iff.rfl

/-- **One after the other**: the second part runs where the first one ended, unless that was
refused. -/
theorem bind_iff {f : α → EStateM ε σ β} {Q : Except ε β → σ → Prop} :
    Ends (x >>= f) s Q ↔
      Ends x s fun r t =>
        match r with
        | .ok a => Ends (f a) t Q
        | .error e => Q (.error e) t := by
  unfold Ends
  change (match EStateM.bind x f s with | .ok a t => _ | .error e t => _) ↔ _
  unfold EStateM.bind
  cases x s <;> rfl

theorem map_iff {f : α → β} {Q : Except ε β → σ → Prop} :
    Ends (f <$> x) s Q ↔ Ends x s fun r t => Q (r.map f) t := by
  unfold Ends
  change (match EStateM.map f x s with | .ok a t => _ | .error e t => _) ↔ _
  unfold EStateM.map
  cases x s <;> rfl

theorem ite_iff {p : Prop} [Decidable p] {y : EStateM ε σ α} :
    Ends (if p then x else y) s Q ↔ (p → Ends x s Q) ∧ (¬ p → Ends y s Q) := by
  by_cases hp : p <;> simp [hp]

/-- A computation on a part of the state ends as it does on that part. -/
theorem focus_iff {τ : Type} {part : σ → τ} {put : τ → σ → σ} {y : EStateM ε τ α} :
    Ends (focus part put y) s Q ↔ Ends y (part s) fun r t => Q r (put t s) := by
  unfold Ends focus
  cases y (part s) <;> rfl

/-- A computation that does not fail goes through. -/
theorem ok_iff {Q : α → σ → Prop} :
    Ends x s (fun r t => ∃ a, r = .ok a ∧ Q a t) ↔ ∃ a t, x s = .ok a t ∧ Q a t := by
  unfold Ends
  constructor
  · intro h
    cases hx : x s with
    | ok a t =>
      rw [hx] at h
      obtain ⟨_, ⟨rfl⟩, hQ⟩ := h
      exact ⟨a, t, rfl, hQ⟩
    | error e t =>
      rw [hx] at h
      obtain ⟨_, he, -⟩ := h
      cases he
  · rintro ⟨a, t, hx, hQ⟩
    rw [hx]
    exact ⟨a, rfl, hQ⟩

/-- Two things that are known of the end are known together. -/
theorem and (h : Ends x s Q) (h' : Ends x s R) : Ends x s fun r t => Q r t ∧ R r t := by
  unfold Ends at *
  cases hx : x s with
  | ok a t =>
    rw [hx] at h h'
    exact ⟨h, h'⟩
  | error e t =>
    rw [hx] at h h'
    exact ⟨h, h'⟩

/-- What is known of the end may be weakened. -/
theorem imp (h : Ends x s Q) (himp : ∀ r t, Q r t → R r t) : Ends x s R := by
  unfold Ends at *
  cases hx : x s with
  | ok a t => rw [hx] at h; exact himp _ _ h
  | error e t => rw [hx] at h; exact himp _ _ h

/-- An end that is known satisfies what every end satisfies. -/
theorem of_ok {a : α} {t : σ} (h : Ends x s Q) (hx : x s = .ok a t) : Q (.ok a) t := by
  unfold Ends at h
  rw [hx] at h
  exact h

/-- The same of a refusal. -/
theorem of_error {e : ε} {t : σ} (h : Ends x s Q) (hx : x s = .error e t) : Q (.error e) t := by
  unfold Ends at h
  rw [hx] at h
  exact h

end Ends

namespace Op

variable {M : Type} {α : Type} {k : State M} {Q : Except KernelError α → State M → Prop}

/-- The result and the state an operation is said to leave are those it ends with. -/
theorem ends_iff_run {op : Op M α} : Ends op k Q ↔ Q (op.run k).1 (op.run k).2 := by
  unfold Ends run
  cases op k <;> rfl

/-- What every end leaves behind, the operation leaves behind. -/
theorem of_ends {op : Op M α} {P : State M → Prop} (h : Ends op k fun _ k' => P k') :
    P (op.run k).2 :=
  ends_iff_run.1 h

theorem ends_ofExcept {o : Except KernelError α} : Ends (ofExcept o) k Q ↔ Q o k := by
  cases o <;> rfl

theorem ends_ofOption {e : KernelError} {o : Option α} :
    Ends (ofOption e o) k Q ↔ (∀ a, o = some a → Q (.ok a) k) ∧ (o = none → Q (.error e) k) := by
  cases o with
  | none => exact ⟨fun h => ⟨fun a ha => (by cases ha), fun _ => h⟩, fun h => h.2 rfl⟩
  | some a =>
    refine ⟨fun h => ⟨?_, fun hn => by cases hn⟩, fun h => h.1 a rfl⟩
    rintro b ⟨rfl⟩
    exact h

/-- An operation whose refusal is an answer is not refused. -/
theorem ends_attempt {op : Op M α} {Q : Except KernelError (Except KernelError α) → State M → Prop} :
    Ends op.attempt k Q ↔ Ends op k fun r k' => Q (.ok r) k' := by
  unfold Ends attempt
  cases op k <;> rfl

/-- A memory operation changes nothing but memory. -/
theorem ends_onMemory {op : EStateM MemoryError M α} :
    Ends (onMemory op) k Q ↔
      (∀ a mem, op k.memory = .ok a mem → Q (.ok a) { k with memory := mem }) ∧
      ∀ e mem, op k.memory = .error e mem → Q (.error (.memory e)) { k with memory := mem } := by
  unfold Ends onMemory
  cases op k.memory with
  | ok a mem =>
    refine ⟨fun h => ⟨?_, fun e mem' he => by cases he⟩, fun h => h.1 a mem rfl⟩
    rintro b mem' ⟨rfl, rfl⟩
    exact h
  | error e mem =>
    refine ⟨fun h => ⟨fun a mem' ha => (by cases ha), ?_⟩, fun h => h.2 e mem rfl⟩
    rintro e' mem' ⟨rfl, rfl⟩
    exact h

end Op

end Exokernel
