import Exokernel.Proofs.Ownership
/-!
# The scheduler's round

The scan of a run queue goes once around the slice, from behind the slot that ran last back to that
slot. `RunQueue.round` lists the slots it meets, and the scan finds the first of them that waits for the
CPU. A round of as many steps as the slice has slots meets every slot, so when the scheduler finds
nothing there is nothing: an environment that runs is the one the CPU ran last, and that one is looked
at after the round.
-/

namespace Exokernel

namespace RunQueue

variable {q : RunQueue} {s t : Slot}

/-- **The round**: the slots met on `n` steps from `s` in circular order. -/
def round (q : RunQueue) : Nat → Slot → List Slot
  | 0, _ => []
  | n + 1, s =>
    match q.next s with
    | .ok t => t :: q.round n t
    | .error _ => []

/-- The step from a slot of the slice. -/
theorem next_eq_ok (h : q.contains s) : ∃ t, q.next s = .ok t ∧ q.contains t ∧
    t.val = q.start.val + (s.val - q.start.val + 1) % q.len := by
  obtain ⟨t, ht, hct⟩ := next_of_contains h
  refine ⟨t, ht, hct, ?_⟩
  unfold next at ht
  split at ht
  · cases ht
    rfl
  · cases ht

theorem round_succ (h : q.contains s) (n : Nat) :
    ∃ t, q.round (n + 1) s = t :: q.round n t ∧ q.contains t ∧
      t.val = q.start.val + (s.val - q.start.val + 1) % q.len := by
  obtain ⟨t, ht, hct, hval⟩ := next_eq_ok h
  exact ⟨t, by rw [round, ht], hct, hval⟩

/-- **The slot met after some steps**, by its place in the slice. -/
theorem getElem?_round {n i : Nat} (h : q.contains s) (hi : i < n) :
    ∃ t, (q.round n s)[i]? = some t ∧
      t.val = q.start.val + (s.val - q.start.val + (i + 1)) % q.len := by
  induction n generalizing s i with
  | zero => omega
  | succ n ih =>
    obtain ⟨t, ht, hct, hval⟩ := round_succ h n
    rw [ht]
    cases i with
    | zero => exact ⟨t, rfl, hval⟩
    | succ i =>
      obtain ⟨u, hu, hval'⟩ := ih hct (Nat.lt_of_succ_lt_succ hi)
      refine ⟨u, hu, ?_⟩
      -- the step that was made already is counted round like the others
      have hoffset : t.val - q.start.val = (s.val - q.start.val + 1) % q.len := by omega
      rw [hval', hoffset, Nat.mod_add_mod]
      congr 2
      omega

theorem contains_of_mem_round {n : Nat} (h : q.contains s) (ht : t ∈ q.round n s) :
    q.contains t := by
  induction n generalizing s with
  | zero => cases ht
  | succ n ih =>
    obtain ⟨u, hu, hcu, -⟩ := round_succ h n
    rw [hu] at ht
    rcases List.mem_cons.1 ht with rfl | ht
    · exact hcu
    · exact ih hcu ht

/-- **A whole round meets every slot of the slice.** -/
theorem mem_round_iff (h : q.contains s) : t ∈ q.round q.len s ↔ q.contains t := by
  refine ⟨contains_of_mem_round h, fun ht => ?_⟩
  rw [contains_iff] at ht
  have hs := contains_iff.1 h
  -- the slot is so many steps on, or as many less a whole round
  let i : Nat := (t.val - q.start.val + q.len - (s.val - q.start.val) - 1) % q.len
  have hlen : 0 < q.len := by omega
  have hi : i < q.len := Nat.mod_lt _ hlen
  obtain ⟨u, hu, hval⟩ := getElem?_round h hi
  have hplace : (s.val - q.start.val + (i + 1)) % q.len = t.val - q.start.val := by
    have hsum : s.val - q.start.val + (i + 1) =
        (t.val - q.start.val + q.len - (s.val - q.start.val) - 1) % q.len +
          (s.val - q.start.val + 1) := by omega
    rw [hsum, Nat.mod_add_mod]
    have hback : t.val - q.start.val + q.len - (s.val - q.start.val) - 1 +
        (s.val - q.start.val + 1) = t.val - q.start.val + q.len := by omega
    rw [hback, Nat.add_mod_right]
    exact Nat.mod_eq_of_lt (by omega)
  have htu : u = t := Fin.ext (by omega)
  rw [← htu]
  exact List.mem_of_getElem? hu

/-- A round has as many steps as it is given. -/
theorem length_round (h : q.contains s) (n : Nat) : (q.round n s).length = n := by
  induction n generalizing s with
  | zero => rfl
  | succ n ih =>
    obtain ⟨t, ht, hct, -⟩ := round_succ h n
    rw [ht, List.length_cons, ih hct]

/-- **A whole round** goes on to the end of the slice, and from its start to where it began. -/
theorem map_val_round (h : q.contains s) :
    (q.round q.len s).map Fin.val =
      List.range' (s.val + 1) (q.stop - (s.val + 1)) ++
        List.range' q.start.val (s.val + 1 - q.start.val) := by
  have hs := contains_iff.1 h
  have hstop : q.stop = q.start.val + q.len := rfl
  refine List.ext_getElem ?_ fun i hi hi' => ?_
  · simp only [List.length_map, length_round h, List.length_append, List.length_range']
    omega
  · rw [List.length_map, length_round h] at hi
    obtain ⟨t, ht, hval⟩ := getElem?_round h hi
    rw [List.getElem_map, (List.getElem_eq_iff _).2 ht, hval, List.getElem_append]
    simp only [List.length_range', List.getElem_range', Nat.one_mul]
    split
    · next hlt => rw [Nat.mod_eq_of_lt (by omega)]; omega
    · next hge =>
      rw [Nat.mod_eq_sub_mod (by omega), Nat.mod_eq_of_lt (by omega)]
      omega

/-- **The round of a shorter slice** that starts at the same slot is what the round of the longer one
meets of it. -/
theorem filter_round {r : RunQueue} (hstart : r.start = q.start) (hlen : r.len ≤ q.len) (h : r.contains s) :
    (q.round q.len s).filter r.contains = r.round r.len s := by
  have hs := contains_iff.1 h
  have hq : q.contains s := contains_iff.2 (by rw [← hstart]; omega)
  have hbegin : r.start.val = q.start.val := congrArg Fin.val hstart
  have hend : r.stop = r.start.val + r.len ∧ q.stop = q.start.val + q.len := ⟨rfl, rfl⟩
  let inside (n : Nat) : Bool := decide (r.start.val ≤ n) && decide (n < r.stop)
  have hinside : r.contains = inside ∘ Fin.val := rfl
  have hkeep : ∀ a n, r.start.val ≤ a → a + n ≤ r.stop →
      (List.range' a n).filter inside = List.range' a n := by
    intro a n ha hn
    refine List.filter_eq_self.2 fun m hm => ?_
    rw [List.mem_range'_1] at hm
    simp only [inside, Bool.and_eq_true, decide_eq_true_eq]
    omega
  have hdrop : (List.range' r.stop (q.stop - r.stop)).filter inside = [] := by
    refine List.filter_eq_nil_iff.2 fun m hm => ?_
    rw [List.mem_range'_1] at hm
    simp only [inside, Bool.and_eq_true, decide_eq_true_eq]
    omega
  -- the longer round passes the end of the shorter slice on its way to its own
  have hpass : List.range' (s.val + 1) (q.stop - (s.val + 1)) =
      List.range' (s.val + 1) (r.stop - (s.val + 1)) ++ List.range' r.stop (q.stop - r.stop) := by
    have hnext : r.stop = s.val + 1 + (r.stop - (s.val + 1)) := by omega
    have hsum : q.stop - (s.val + 1) = r.stop - (s.val + 1) + (q.stop - r.stop) := by omega
    rw [hsum, ← List.range'_append_1, ← hnext]
  refine (List.map_inj_right fun _ _ => Fin.ext).1 ?_
  rw [hinside, ← List.filter_map, map_val_round hq, map_val_round h, ← hbegin, List.filter_append,
    hpass, List.filter_append, hdrop, List.append_nil, hkeep _ _ (by omega) (by omega),
    hkeep _ _ (by omega) (by omega)]

end RunQueue

namespace State

variable {M : Type} {k k' : State M} {policy : Policy} {ncpu cpu : Nat} {s : Slot}

/-- **The scan finds the first slot of the round** that is not the idle one and waits for the CPU. -/
theorem scan_eq {rq : RunQueue} (n : Nat) (h : rq.contains s) :
    k.scan rq n s =
      .ok ((rq.round n s).find? fun t => t ≠ rq.idle ∧ (k.env t).status = .runnable) := by
  induction n generalizing s with
  | zero => rfl
  | succ n ih =>
    obtain ⟨t, ht, hct, -⟩ := RunQueue.next_eq_ok h
    have hscan : k.scan rq (n + 1) s =
        if t ≠ rq.idle ∧ (k.env t).status = .runnable then .ok (some t) else k.scan rq n t := by
      simp only [scan, ht]
      rfl
    have hround : rq.round (n + 1) s = t :: rq.round n t := by rw [RunQueue.round, ht]
    rw [hscan, hround, List.find?_cons]
    by_cases hfound : t ≠ rq.idle ∧ (k.env t).status = .runnable
    · rw [if_pos hfound, decide_eq_true hfound]
    · rw [if_neg hfound, decide_eq_false hfound]
      exact ih hct

/-- The slot the round starts behind: the one that ran last, or the idle one. -/
def lastSlot (k : State M) (cpu : Nat) : Slot :=
  (k.runQueue cpu).current.getD (k.runQueue cpu).idle

/-- The slot waits for the CPU, and is not the one kept for the idle environment. -/
def Waits (k : State M) (cpu : Nat) (t : Slot) : Prop :=
  t ≠ (k.runQueue cpu).idle ∧ (k.env t).status = .runnable

instance (k : State M) (cpu : Nat) (t : Slot) : Decidable (k.Waits cpu t) :=
  inferInstanceAs (Decidable (_ ∧ _))

/-- **What is picked** where the slot that ran last is one of the slice: the first slot of the round that
waits; failing that the one that ran last, and then the idle one, if they can run. -/
theorem select_eq_of_contains (hlen : (k.runQueue cpu).len ≠ 0)
    (hlast : (k.runQueue cpu).contains (k.lastSlot cpu)) :
    k.select cpu = .ok (match
        ((k.runQueue cpu).round (k.runQueue cpu).len (k.lastSlot cpu)).find? (k.Waits cpu) with
      | some s => .ok s
      | none =>
        match [k.lastSlot cpu, (k.runQueue cpu).idle].find? fun s => (k.env s).status.canRun with
        | some s => .ok s
        | none => .error ⟨cpu⟩) := by
  have hscan : k.scan (k.runQueue cpu) (k.runQueue cpu).len (k.lastSlot cpu) = .ok
      (((k.runQueue cpu).round (k.runQueue cpu).len (k.lastSlot cpu)).find? (k.Waits cpu)) :=
    scan_eq _ hlast
  unfold select
  dsimp only
  rw [if_neg hlen]
  change (k.scan (k.runQueue cpu) (k.runQueue cpu).len (k.lastSlot cpu) >>= _) = _
  rw [hscan]
  simp only [bind, Except.bind]
  cases ((k.runQueue cpu).round (k.runQueue cpu).len (k.lastSlot cpu)).find? (k.Waits cpu) with
  | some s => rfl
  | none =>
    change (match [k.lastSlot cpu, (k.runQueue cpu).idle].find? fun s => (k.env s).status.canRun with
      | some s => _
      | none => _) = _
    cases [k.lastSlot cpu, (k.runQueue cpu).idle].find? fun s => (k.env s).status.canRun <;> rfl

/-- **What is picked gets the CPU**, if it is one of the slice. -/
theorem scheduleNext_of_select (hselect : k.select cpu = .ok (.ok s))
    (hs : (k.runQueue cpu).contains s) :
    k.scheduleNext cpu = .ok (.ok (k.dispatchOf s), k.running cpu s) := by
  unfold scheduleNext
  rw [hselect]
  simp only [bind, Except.bind, dispatch_of_contains hs]
  rfl

namespace Sound

variable (h : Sound policy ncpu k) (hcpu : cpu < ncpu)

include h hcpu

/-- A CPU that takes part has slots. -/
theorem len_ne_zero : (k.runQueue cpu).len ≠ 0 := by
  rw [runQueue, h.len_eq _ (h.queueOf_lt hcpu)]
  cases policy <;> exact Nat.succ_ne_zero _

theorem contains_lastSlot : (k.runQueue cpu).contains (k.lastSlot cpu) := by
  unfold lastSlot
  cases hc : (k.runQueue cpu).current with
  | none => exact RunQueue.contains_idle (h.len_ne_zero hcpu)
  | some s => exact h.contains_current hcpu hc

/-- The same of a CPU that takes part. -/
theorem select_eq :
    k.select cpu = .ok (match
        ((k.runQueue cpu).round (k.runQueue cpu).len (k.lastSlot cpu)).find? (k.Waits cpu) with
      | some s => .ok s
      | none =>
        match [k.lastSlot cpu, (k.runQueue cpu).idle].find? fun s => (k.env s).status.canRun with
        | some s => .ok s
        | none => .error ⟨cpu⟩) :=
  select_eq_of_contains (h.len_ne_zero hcpu) (h.contains_lastSlot hcpu)

/-- **The first slot of the round that waits gets the CPU.** -/
theorem scheduleNext_of_found
    (hfound : ((k.runQueue cpu).round (k.runQueue cpu).len (k.lastSlot cpu)).find? (k.Waits cpu) =
      some s) :
    k.scheduleNext cpu = .ok (.ok (k.dispatchOf s), k.running cpu s) := by
  have hselect := h.select_eq hcpu
  rw [hfound] at hselect
  exact scheduleNext_of_select hselect
    ((RunQueue.mem_round_iff (h.contains_lastSlot hcpu)).1 (List.mem_of_find?_eq_some hfound))

/-- **If nothing is picked, nothing can run**: not what waits, which the round would have met, and not
what runs, which is what ran last. -/
theorem idle_of_select {e : NothingRunnable} (hk : k.select cpu = .ok (.error e))
    (hs : (k.runQueue cpu).contains s) : (k.env s).status.canRun = false := by
  rw [h.select_eq hcpu] at hk
  split at hk
  · cases hk
  · next hround =>
    split at hk
    · cases hk
    · next hlast =>
      have hmem := (RunQueue.mem_round_iff (h.contains_lastSlot hcpu)).2 hs
      have hnot : ¬ k.Waits cpu s := by simpa using List.find?_eq_none.1 hround s hmem
      have hidle : ∀ t ∈ [k.lastSlot cpu, (k.runQueue cpu).idle], (k.env t).status.canRun = false :=
        fun t ht => by simpa using List.find?_eq_none.1 hlast t ht
      by_cases hsi : s = (k.runQueue cpu).idle
      · rw [hsi]
        exact hidle _ (by simp)
      · cases hst : (k.env s).status with
        | free | dying | notRunnable => rfl
        | runnable => exact absurd ⟨hsi, hst⟩ hnot
        | running =>
          have hlt := h.queueOf_lt hcpu
          have hcur : (k.runQueue cpu).current = some s :=
            h.running _ s ((h.contains_iff hlt).1 hs) hst
          have hls : k.lastSlot cpu = s := by rw [lastSlot, hcur, Option.getD_some]
          have hcan := hidle (k.lastSlot cpu) (by simp)
          rw [hls, hst] at hcan
          cases hcan

/-- The same of a scheduler pass that ends without an environment. -/
theorem idle_of_scheduleNext {e : NothingRunnable} (hk : k.scheduleNext cpu = .ok (.error e, k'))
    (hs : (k.runQueue cpu).contains s) : k' = k ∧ (k.env s).status.canRun = false := by
  unfold scheduleNext at hk
  cases hsel : k.select cpu with
  | error e =>
    rw [hsel] at hk
    cases hk
  | ok r =>
    rw [hsel] at hk
    cases r with
    | error e =>
      cases hk
      exact ⟨rfl, h.idle_of_select hcpu hsel hs⟩
    | ok t =>
      simp only [bind, Except.bind] at hk
      split at hk
      · cases hk
      · cases hk

end Sound

end State

end Exokernel
