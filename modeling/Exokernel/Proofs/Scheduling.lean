import Exokernel.Proofs.Effects
/-!
# Picking the next environment

Where the slot a CPU ran last lies in the CPU's own slice, the circular order is defined, the scan
stays inside the slice, and picking an environment cannot fault. What is given the CPU is a slot of
the slice that can run, and nothing else about the state changes.
-/

namespace Exokernel

namespace RunQueue

variable {q : RunQueue} {s : Slot}

theorem contains_iff : q.contains s ↔ q.start.val ≤ s.val ∧ s.val < q.start.val + q.len := by
  rw [contains, Bool.and_eq_true, decide_eq_true_iff, decide_eq_true_iff]
  rfl

/-- A slice with slots has its idle slot. -/
theorem contains_idle (h : q.len ≠ 0) : q.contains q.idle := by
  rw [contains_iff, idle]
  omega

/-- **The circular order**: after a slot of the slice comes a slot of the slice. -/
theorem next_of_contains (h : q.contains s) : ∃ t, q.next s = .ok t ∧ q.contains t := by
  rw [contains_iff] at h
  have hlen : 0 < q.len := by omega
  unfold next
  rw [dif_pos ⟨h.1, hlen⟩]
  refine ⟨_, rfl, ?_⟩
  have := Nat.mod_lt (s.val - q.start.val + 1) hlen
  rw [contains_iff]
  dsimp only
  omega

end RunQueue

namespace State

variable {M : Type} {k : State M} {cpu : Nat}

/-- **The scan** stays inside the slice, and finds only what can be dispatched. -/
theorem scan_of_contains {rq : RunQueue} (n : Nat) :
    ∀ {s : Slot}, rq.contains s →
      ∃ r, k.scan rq n s = .ok r ∧
        ∀ t, r = some t → rq.contains t ∧ (k.env t).status = .runnable := by
  induction n with
  | zero => exact fun _ => ⟨none, rfl, nofun⟩
  | succ n ih =>
    intro s hs
    -- the next slot is in the slice again, and the rest of the scan starts there
    obtain ⟨t, ht, hct⟩ := RunQueue.next_of_contains hs
    have hscan : k.scan rq (n + 1) s =
        if t ≠ rq.idle ∧ (k.env t).status = .runnable then .ok (some t) else k.scan rq n t := by
      simp only [scan, ht]
      rfl
    rw [hscan]
    split
    · next h =>
      refine ⟨some t, rfl, ?_⟩
      rintro _ ⟨rfl⟩
      exact ⟨hct, h.2⟩
    · exact ih hct

/-- **Picking an environment** cannot fault where the CPU ran a slot of its own slice last. -/
theorem select_of_contains (hcur : ∀ s, k.current cpu = some s → (k.runQueue cpu).contains s) :
    ∃ r, k.select cpu = .ok r ∧
      ∀ s, r = .ok s → (k.runQueue cpu).contains s ∧ (k.env s).status.canRun = true := by
  unfold select
  dsimp only
  by_cases hlen : (k.runQueue cpu).len = 0
  · rw [if_pos hlen]
    exact ⟨_, rfl, nofun⟩
  · rw [if_neg hlen]
    have hidle := RunQueue.contains_idle hlen
    -- whether a slot ran last or not, the scan starts inside the slice
    have hlast : (k.runQueue cpu).contains ((k.runQueue cpu).current.getD (k.runQueue cpu).idle) := by
      cases hc : (k.runQueue cpu).current with
      | none => exact hidle
      | some s => exact hcur s hc
    generalize (k.runQueue cpu).current.getD (k.runQueue cpu).idle = last at hlast ⊢
    obtain ⟨r, hr, hfound⟩ := scan_of_contains (k := k) (k.runQueue cpu).len hlast
    rw [hr]
    cases r with
    | some t =>
      refine ⟨.ok t, rfl, ?_⟩
      rintro _ ⟨rfl⟩
      obtain ⟨hct, hst⟩ := hfound t rfl
      exact ⟨hct, by rw [hst]; rfl⟩
    | none =>
      simp only [bind, Except.bind]
      cases hf : [last, (k.runQueue cpu).idle].find? fun s => (k.env s).status.canRun with
      | none => exact ⟨.error ⟨cpu⟩, rfl, nofun⟩
      | some t =>
        refine ⟨.ok t, rfl, ?_⟩
        rintro _ ⟨rfl⟩
        have hrun : (k.env t).status.canRun = true := by simpa using List.find?_some hf
        have hmem := List.mem_of_find?_eq_some hf
        simp only [List.mem_cons, List.not_mem_nil, or_false] at hmem
        rcases hmem with rfl | rfl
        · exact ⟨hlast, hrun⟩
        · exact ⟨hidle, hrun⟩

/-- The environment of a slot given the CPU, with the context to switch to. -/
def dispatchOf (k : State M) (s : Slot) : Dispatch where
  slot := s
  frame := (k.env s).frame
  pgdir := (k.env s).pgdir

theorem dispatch_of_contains {s : Slot} (h : (k.runQueue cpu).contains s) :
    k.dispatch cpu s = .ok (k.dispatchOf s, k.running cpu s) :=
  if_pos h

/-- **Scheduling** gives the CPU to a slot of its slice that can run, or leaves the state alone. -/
theorem scheduleNext_of_contains
    (hcur : ∀ s, k.current cpu = some s → (k.runQueue cpu).contains s) :
    (∃ e, k.scheduleNext cpu = .ok (.error e, k)) ∨
      ∃ s, (k.runQueue cpu).contains s ∧ (k.env s).status.canRun = true ∧
        k.scheduleNext cpu = .ok (.ok (k.dispatchOf s), k.running cpu s) := by
  obtain ⟨r, hr, hs⟩ := select_of_contains hcur
  unfold scheduleNext
  rw [hr]
  cases r with
  | error e => exact .inl ⟨e, rfl⟩
  | ok s =>
    obtain ⟨hc, hst⟩ := hs s rfl
    refine .inr ⟨s, hc, hst, ?_⟩
    simp only [bind, Except.bind, dispatch_of_contains hc]
    rfl

/-- **Going on** gives the CPU back to the environment it was running, or leaves the state alone. -/
theorem resume_of_contains
    (hcur : ∀ s, k.current cpu = some s → (k.runQueue cpu).contains s) :
    (k.resume cpu = .ok (none, k) ∧
        ∀ s, k.current cpu = some s → (k.env s).status ≠ .running) ∨
      ∃ s, k.current cpu = some s ∧ (k.env s).status = .running ∧
        k.resume cpu = .ok (some (k.dispatchOf s), k.running cpu s) := by
  unfold resume
  cases hc : k.current cpu with
  | none => exact .inl ⟨rfl, nofun⟩
  | some s =>
    by_cases hst : (k.env s).status = .running
    · refine .inr ⟨s, rfl, hst, ?_⟩
      simp only [if_pos hst, dispatch_of_contains (hcur s hc)]
      rfl
    · refine .inl ⟨if_neg hst, ?_⟩
      rintro _ ⟨rfl⟩
      exact hst

/-- A scheduler pass leaves the policy as it is. -/
theorem policy_of_scheduleNext {k' : State M} {r : Except NothingRunnable Dispatch}
    (h : k.scheduleNext cpu = .ok (r, k')) :
    k'.policy = k.policy := by
  unfold scheduleNext at h
  cases hselect : k.select cpu with
  | error e =>
    rw [hselect] at h
    cases h
  | ok picked =>
    rw [hselect] at h
    cases picked with
    | error e =>
      cases h
      rfl
    | ok s =>
      simp only [bind, Except.bind] at h
      unfold dispatch at h
      split at h
      · cases h
      · next d hdispatch =>
        split at hdispatch
        · cases hdispatch
          cases h
          exact policy_running k cpu s
        · cases hdispatch

end State

end Exokernel
