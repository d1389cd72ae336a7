import Exokernel.Proofs.Entries
/-!
# Histories

What was done in a run, with the state each step found. A history is a list of deeds, latest first,
so that what had happened before a deed is the rest of the list after it: a statement about all
prefixes of a run is one about all histories. The kernel has histories of operations, the machine has
histories of visits.
-/

namespace Exokernel

/-- Something that was done, and the state it found. -/
structure Deed (σ α : Type) where
  before : σ
  act : α

variable {σ α : Type} {Start : σ → Prop} {Step : σ → α → σ → Prop}

/-- **The deeds have led to the state**, latest first: it all started in a state with `Start`, and
each deed made a `Step`. -/
inductive Traced (Start : σ → Prop) (Step : σ → α → σ → Prop) : List (Deed σ α) → σ → Prop
  | start {x : σ} : Start x → Traced Start Step [] x
  | step {l : List (Deed σ α)} {x y : σ} {a : α} : Traced Start Step l x → Step x a y →
      Traced Start Step (⟨x, a⟩ :: l) y

namespace Traced

variable {l newer older : List (Deed σ α)} {x : σ} {e : Deed σ α}

/-- **The past of a deed** had led to the state it found, and with the deed it led to the state the
deed left. -/
theorem past (h : Traced Start Step (newer ++ e :: older) x) :
    Traced Start Step older e.before ∧
      ∃ y, Step e.before e.act y ∧ Traced Start Step (e :: older) y := by
  induction newer generalizing x with
  | nil =>
    cases h with
    | step h hstep => exact ⟨h, _, hstep, h.step hstep⟩
  | cons _ _ ih =>
    cases h with
    | step h _ => exact ih h

/-- **What holds at the start and is kept by every step** holds wherever a history has led. -/
theorem invariant {P : σ → Prop} (h : Traced Start Step l x) (hstart : ∀ x, Start x → P x)
    (hstep : ∀ x a y, P x → Step x a y → P y) : P x := by
  induction h with
  | start hx => exact hstart _ hx
  | step _ hxy ih => exact hstep _ _ _ ih hxy

end Traced

/-- The history that goes on from `l` in the state `x` with some acts, one after the other, and the
state it leads to. -/
def replay (step : σ → α → Option σ) :
    List (Deed σ α) → σ → List α → Option (List (Deed σ α) × σ)
  | l, x, [] => some (l, x)
  | l, x, a :: as =>
    match step x a with
    | some y => replay step (⟨x, a⟩ :: l) y as
    | none => none

/-- **Acts that are replayed are a history.** -/
theorem Traced.replay {step : σ → α → Option σ} (hstep : ∀ x a y, step x a = some y → Step x a y)
    {as : List α} : ∀ {l l' : List (Deed σ α)} {x x' : σ}, Traced Start Step l x →
      Exokernel.replay step l x as = some (l', x') → Traced Start Step l' x' := by
  induction as with
  | nil =>
    intro l l' x x' h hreplay
    cases hreplay
    exact h
  | cons a as ih =>
    intro l l' x x' h hreplay
    unfold Exokernel.replay at hreplay
    split at hreplay
    · next hy => exact ih (h.step (hstep _ _ _ hy)) hreplay
    · cases hreplay

/-! ## Histories of the kernel -/

namespace State

variable {M : Type} [Memory M] {policy : Policy} {ncpu : Nat} {m₀ : M} {k k' : State M} {a : Action}

/-- The operation is in order, and leads from one state to the other. -/
def Steps (ncpu : Nat) (k : State M) (a : Action) (k' : State M) : Prop :=
  a.Proper ncpu k ∧ a.perform k = .ok k'

/-- **A history of the kernel**: its table was set up for `ncpu` CPUs on a memory `m₀`, and operations
that were in order have led to the state. -/
abbrev Past (policy : Policy) (ncpu : Nat) (m₀ : M) : List (Deed (State M) Action) → State M → Prop :=
  Traced (fun k => (fresh m₀).init policy ncpu = .ok k) (Steps ncpu)

theorem Past.reached {l : List (Deed (State M) Action)} (h : Past policy ncpu m₀ l k) :
    Reached policy ncpu m₀ k :=
  h.invariant (fun _ hinit => .init hinit) fun _ _ _ hx hstep => hx.step hstep.1 hstep.2

/-- The state an operation leads to, if it is in order. -/
def step? (ncpu : Nat) (k : State M) (a : Action) : Option (State M) :=
  if a.Proper ncpu k then (a.perform k).toOption else none

theorem steps_of_step? (h : k.step? ncpu a = some k') : Steps ncpu k a k' := by
  unfold step? at h
  split at h
  · next ha =>
    cases hk : a.perform k with
    | error e =>
      rw [hk] at h
      cases h
    | ok k₁ =>
      rw [hk] at h
      cases h
      exact ⟨ha, hk⟩
  · cases h

/-- The history of operations that follow the setting up of the table, with the state it leads to. -/
def recorded (policy : Policy) (ncpu : Nat) (m₀ : M) (as : List Action) :
    Option (List (Deed (State M) Action) × State M) :=
  ((fresh m₀).init policy ncpu).toOption.bind fun k => replay (step? ncpu) [] k as

/-- What can be told of a recorded history shows that there is one. -/
theorem exists_past {β : Type} (policy : Policy) (ncpu : Nat) (m₀ : M) (as : List Action)
    (f : List (Deed (State M) Action) → State M → β) {b : β}
    (h : (recorded policy ncpu m₀ as).map (fun p => f p.1 p.2) = some b) :
    ∃ l k, Past policy ncpu m₀ l k ∧ f l k = b := by
  obtain ⟨⟨l, k⟩, hrec, hb⟩ := Option.map_eq_some_iff.1 h
  obtain ⟨k₀, hinit, hreplay⟩ := Option.bind_eq_some_iff.1 hrec
  obtain ⟨k₁, hk₁, rfl⟩ := exists_of_map_toOption (f := id) (b := k₀) (by rw [hinit]; rfl)
  have hstart : Past policy ncpu m₀ [] k₁ := .start hk₁
  exact ⟨l, k, hstart.replay (fun _ _ _ => steps_of_step?) hreplay, hb⟩

end State

/-! ## Histories of the machine -/

namespace Machine

variable {M : Type} [Memory M] {policy : Policy} {ncpu : Nat} {m₀ : M} {m m' : Machine M}
  {l : List (Deed (Machine M) Visit)} {v : Visit}

/-- The visit is in order, and leads from one machine to the other. Before it anything may happen that
leaves the kernel's state alone. -/
def Steps (ncpu : Nat) (m : Machine M) (v : Visit) (m' : Machine M) : Prop :=
  v.Proper ncpu m.kernel ∧ ∃ m₁ x, m₁.kernel = m.kernel ∧ v.perform m₁ = .ok x m'

/-- **A history of the machine**: its table was set up for `ncpu` CPUs on a memory `m₀`, and visits
that were in order have led to the machine. -/
abbrev Past (policy : Policy) (ncpu : Nat) (m₀ : M) :
    List (Deed (Machine M) Visit) → Machine M → Prop :=
  Traced (fun m' => ∃ m a, m.kernel = State.fresh m₀ ∧
    onKernel (Request.init policy ncpu) m = .ok a m') (Steps ncpu)

/-- A machine with a history is one that runs. -/
theorem Past.ran (h : Past policy ncpu m₀ l m) :
    ∃ u, Ran (fun _ => True) policy ncpu m₀ m u := by
  refine h.invariant (P := fun m => ∃ u, Ran (fun _ => True) policy ncpu m₀ m u)
    (fun m' hstart => ?_) fun m v m' hran hstep => ?_
  · obtain ⟨m, a, hfresh, hinit⟩ := hstart
    exact ⟨_, .start hfresh hinit⟩
  · obtain ⟨u, hran⟩ := hran
    obtain ⟨hv, m₁, x, hm₁, hperform⟩ := hstep
    exact ⟨_, hran.visit trivial hv hm₁ hperform⟩

/-- The visit does to the kernel's state what it says. -/
theorem Steps.effect (h : Steps ncpu m v m') : ∃ r, v.effect m.kernel = .ok (r, m'.kernel) := by
  obtain ⟨-, m₁, x, hm₁, hperform⟩ := h
  obtain ⟨r, hr, -⟩ := Visit.effect_of_perform hperform
  rw [hm₁] at hr
  exact ⟨r, hr⟩

/-- The machine a visit leads to, if it is in order. -/
def step? (ncpu : Nat) (m : Machine M) (v : Visit) : Option (Machine M) :=
  if v.Proper ncpu m.kernel then
    match v.perform m with
    | .ok _ m' => some m'
    | .error _ _ => none
  else none

theorem steps_of_step? (h : step? ncpu m v = some m') : Steps ncpu m v m' := by
  unfold step? at h
  split at h
  · next hv =>
    split at h
    · next hperform =>
      cases h
      exact ⟨hv, m, _, rfl, hperform⟩
    · cases h
  · cases h

/-- The history of visits that follow the setting up of the table, with the machine it leads to. -/
def recorded (policy : Policy) (ncpu : Nat) (m₀ : M) (vs : List Visit) :
    Option (List (Deed (Machine M) Visit) × Machine M) :=
  match onKernel (Request.init policy ncpu) (bare m₀) with
  | .ok _ m => replay (step? ncpu) [] m vs
  | .error _ _ => none

/-- What can be told of a recorded history shows that there is one. -/
theorem exists_past {β : Type} (policy : Policy) (ncpu : Nat) (m₀ : M) (vs : List Visit)
    (f : List (Deed (Machine M) Visit) → Machine M → β) {b : β}
    (h : (recorded policy ncpu m₀ vs).map (fun p => f p.1 p.2) = some b) :
    ∃ l m, Past policy ncpu m₀ l m ∧ f l m = b := by
  obtain ⟨⟨l, m⟩, hrec, hb⟩ := Option.map_eq_some_iff.1 h
  unfold recorded at hrec
  split at hrec
  · next hinit =>
    have hstart : Past policy ncpu m₀ [] _ := .start ⟨_, _, rfl, hinit⟩
    exact ⟨l, m, hstart.replay (fun _ _ _ => steps_of_step?) hrec, hb⟩
  · cases hrec

end Machine

end Exokernel
