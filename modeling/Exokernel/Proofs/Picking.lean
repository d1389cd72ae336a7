import Mathlib.Data.List.Intervals
import Exokernel.Proofs.Rounds
/-!
# Who is picked

The slots of a slice stand in a circle. `RunQueue.circle` lists them as they follow a slot of the
slice, which comes last itself, and the scheduler's round is that list (`RunQueue.circle_eq_round`).
So what is picked is told by the circle behind the slot that ran last, and where nothing on it can
run nothing is picked (`Reached.select_is_first_in_circle`).
-/

namespace Exokernel

/-- What may have the CPU is runnable, or runs. -/
theorem Status.canRun_iff {st : Status} : st.canRun = true ↔ st = .runnable ∨ st = .running := by
  cases st <;> decide

namespace RunQueue

variable {q : RunQueue} {s t : Slot}

/-- **The circle** behind a slot: the slots of the slice above it, and then those up to it. -/
def circle (q : RunQueue) (s : Slot) : List Slot :=
  ((List.finRange slotCount).filter fun t => q.contains t ∧ s < t) ++
    (List.finRange slotCount).filter fun t => q.contains t ∧ t ≤ s

/-- The circle has the slots of the slice. -/
theorem mem_circle : t ∈ q.circle s ↔ q.contains t := by
  have hside : s < t ∨ t ≤ s := Nat.lt_or_ge s.val t.val
  simp only [circle, List.mem_append, List.mem_filter, List.mem_finRange, true_and,
    decide_eq_true_eq, ← and_or_left, hside, and_true]

/-- Each of them once. -/
theorem nodup_circle (q : RunQueue) (s : Slot) : (q.circle s).Nodup := by
  refine List.nodup_append.2 ⟨(List.nodup_finRange _).filter _, (List.nodup_finRange _).filter _, ?_⟩
  rintro t ht _ hu rfl
  have hlt := (of_decide_eq_true (List.mem_filter.1 ht).2).2
  have hle := (of_decide_eq_true (List.mem_filter.1 hu).2).2
  exact Nat.not_lt.2 hle hlt

/-- The slots of the table between two numbers, in order. -/
theorem map_val_filter_finRange {a b : Nat} {p : Slot → Bool} (hb : b ≤ slotCount)
    (hp : ∀ t : Slot, p t = decide (a ≤ t.val ∧ t.val < b)) :
    ((List.finRange slotCount).filter p).map Fin.val = List.range' a (b - a) := by
  have hval : p = (fun n => decide (a ≤ n) && decide (n < b)) ∘ Fin.val := by
    funext t
    rw [hp t, Bool.decide_and]
    rfl
  rw [hval, ← List.filter_map, List.map_coe_finRange_eq_range, ← List.filter_filter,
    ← List.Ico.zero_bot, List.Ico.filter_lt, min_eq_right hb, List.Ico.filter_le, Nat.zero_max]
  rfl

/-- **The scheduler's round is the circle.** -/
theorem circle_eq_round (h : q.contains s) : q.circle s = q.round q.len s := by
  have hs := contains_iff.1 h
  have hfits := q.fits
  refine (List.map_inj_right fun _ _ => Fin.ext).1 ?_
  rw [map_val_round h, circle, List.map_append]
  refine congrArg₂ _ ?_ ?_
  · refine map_val_filter_finRange (show q.stop ≤ slotCount from hfits) fun t => ?_
    rw [decide_eq_decide, contains_iff, Fin.lt_def, stop]
    omega
  · refine map_val_filter_finRange (by omega) fun t => ?_
    rw [decide_eq_decide, contains_iff, Fin.le_def]
    omega

end RunQueue

namespace State

variable {M : Type} {k k' : State M} {policy : Policy} {ncpu cpu : Nat} {s t : Slot}

/-! ## Queues of nobody -/

section Unused

variable [Memory M]

/-- Whatever is done to the state, no run queue gets longer or shorter. -/
theorem Effect.len_queue (hk : Effect ncpu k k') (q : CpuIndex) :
    (k'.queue q).len = (k.queue q).len := by
  have hoccupy : ∀ cpu s parent dir mem,
      ((k.occupy cpu s parent dir mem).queue q).len = (k.queue q).len := by
    intro cpu s parent dir mem
    rw [queue_occupy]
    split <;> rfl
  have hfree : ∀ s, ((k.free s).queue q).len = (k.queue q).len := by
    intro s
    rw [queue_free]
    split <;> rfl
  have hdestroy : ∀ cpu s, ((k.destroy cpu s).2.queue q).len = (k.queue q).len := by
    intro cpu s
    rcases destroy_cases k cpu s with ⟨-, hk⟩ | ⟨-, hk⟩
    · rw [hk]
      rfl
    · rw [hk]
      exact hfree s
  cases hk with
  | alloc => exact hoccupy ..
  | free => exact hfree _
  | destroy => exact hdestroy ..
  | deliver _ hk => cases hk <;> rfl
  | move _ hk =>
    cases hk with
    | change hk =>
      cases hk with
      | speak | touch | amend => rfl
      | fork => exact hoccupy ..
    | destroy => exact hdestroy ..
    | occupy => exact hoccupy ..
    | drop => exact hfree _
    | run =>
      rw [queue_running]
      split <;> rfl
    | hush | refuse | load | spoil | launch => rfl

/-- **A run queue with slots is that of a CPU that takes part.** -/
theorem Reached.queueOf_lt {m₀ : M} (h : Reached policy ncpu m₀ k)
    (hlen : (k.runQueue cpu).len ≠ 0) : (k.queueOf cpu).val < ncpu := by
  have hunused : ∀ q : CpuIndex, ¬ q.val < ncpu → (k.queue q).len = 0 := by
    refine h.invariant (P := fun k => ∀ q : CpuIndex, ¬ q.val < ncpu → (k.queue q).len = 0)
      (fun k hinit q hq => ?_) fun k k' _ ih hk q hq => (hk.len_queue q).trans (ih q hq)
    obtain ⟨-, text, rfl⟩ := init_eq_ok hinit
    change (((fresh m₀).divide policy ncpu).queue q).len = 0
    rw [queue_divide, if_neg hq]
    rfl
  exact Decidable.byContradiction fun hnot => hlen (hunused _ hnot)

/-- The slot that ran last is one of the slice, also where several numbers share the one run queue. -/
theorem Reached.contains_lastSlot {m₀ : M} (h : Reached policy ncpu m₀ k)
    (hlen : (k.runQueue cpu).len ≠ 0) : (k.runQueue cpu).contains (k.lastSlot cpu) := by
  have hsound := h.sound
  have hlt := h.queueOf_lt hlen
  have hlast := hsound.contains_lastSlot hlt
  unfold lastSlot runQueue at hlast ⊢
  rwa [hsound.queueOf_self hlt] at hlast

end Unused

/-- What runs in a slice is what ran there last. -/
theorem Sound.lastSlot_eq (h : Sound policy ncpu k) (hlt : (k.queueOf cpu).val < ncpu)
    (hs : (k.runQueue cpu).contains s) (hrun : (k.env s).status = .running) :
    k.lastSlot cpu = s := by
  have hcur : (k.runQueue cpu).current = some s := h.running _ s ((h.contains_iff hlt).1 hs) hrun
  rw [lastSlot, hcur, Option.getD_some]

/-! ## The pick -/

/-- Two slots to fall back on, one after the other. -/
theorem find?_canRun_pair (k : State M) (s t : Slot) :
    ([s, t].find? fun u => (k.env u).status.canRun) =
      if (k.env s).status.canRun then some s
      else if (k.env t).status.canRun then some t else none := by
  rw [List.find?_cons, List.find?_cons, List.find?_nil]
  cases (k.env s).status.canRun <;> cases (k.env t).status.canRun <;> rfl

/-- **The pick, by the circle** behind the slot that ran last: the first slot on it that waits, and
failing that the slot that ran last and then the idle one, if they can run. -/
theorem select_eq_circle (hlen : (k.runQueue cpu).len ≠ 0)
    (hlast : (k.runQueue cpu).contains (k.lastSlot cpu)) :
    k.select cpu = .ok (match ((k.runQueue cpu).circle (k.lastSlot cpu)).find? (k.Waits cpu) with
      | some s => .ok s
      | none =>
        if (k.env (k.lastSlot cpu)).status.canRun then .ok (k.lastSlot cpu)
        else if (k.env (k.runQueue cpu).idle).status.canRun then .ok (k.runQueue cpu).idle
        else .error ⟨cpu⟩) := by
  rw [select_eq_of_contains hlen hlast, RunQueue.circle_eq_round hlast, find?_canRun_pair]
  cases ((k.runQueue cpu).round (k.runQueue cpu).len (k.lastSlot cpu)).find? (k.Waits cpu) with
  | some s => rfl
  | none =>
    cases (k.env (k.lastSlot cpu)).status.canRun <;>
      cases (k.env (k.runQueue cpu).idle).status.canRun <;> rfl

section Reached

variable [Memory M] {m₀ : M} (h : Reached policy ncpu m₀ k) (hlen : (k.runQueue cpu).len ≠ 0)

include h hlen

/-- **Where nothing on the circle waits**, a slot that can run is the idle one, or the one that ran
last. -/
theorem Reached.lastSlot_of_canRun
    (hfind : ((k.runQueue cpu).circle (k.lastSlot cpu)).find? (k.Waits cpu) = none)
    (hs : (k.runQueue cpu).contains s) (hcan : (k.env s).status.canRun = true)
    (hidle : s ≠ (k.runQueue cpu).idle) : k.lastSlot cpu = s := by
  have hnot : ¬ k.Waits cpu s := by
    simpa using List.find?_eq_none.1 hfind s (RunQueue.mem_circle.2 hs)
  rcases Status.canRun_iff.1 hcan with hst | hst
  · exact absurd ⟨hidle, hst⟩ hnot
  · exact h.sound.lastSlot_eq (h.queueOf_lt hlen) hs hst

/-- Something is picked that can run, the idle slot only if nothing else can, or nothing can run. -/
theorem Reached.pick_cases :
    (∃ s, k.select cpu = .ok (.ok s) ∧ (k.runQueue cpu).contains s ∧
        (k.env s).status.canRun = true ∧
        (s = (k.runQueue cpu).idle → ∀ t, (k.runQueue cpu).contains t →
          t ≠ (k.runQueue cpu).idle → (k.env t).status.canRun = false)) ∨
      (k.select cpu = .ok (.error ⟨cpu⟩) ∧
        ∀ s, (k.runQueue cpu).contains s → (k.env s).status.canRun = false) := by
  have hlast := h.contains_lastSlot hlen
  have hselect := select_eq_circle hlen hlast
  -- what is picked depends on whether anybody waits, and then on the two slots to fall back on
  cases hfind : ((k.runQueue cpu).circle (k.lastSlot cpu)).find? (k.Waits cpu) with
  | some s =>
    have hwaits := List.find?_some hfind
    obtain ⟨hne, hst⟩ : k.Waits cpu s := of_decide_eq_true hwaits
    refine .inl ⟨s, by rw [hselect, hfind], ?_, by rw [hst]; rfl, fun heq => absurd heq hne⟩
    exact RunQueue.mem_circle.1 (List.mem_of_find?_eq_some hfind)
  | none =>
    have hrest : ∀ s, (k.runQueue cpu).contains s → s ≠ (k.runQueue cpu).idle →
        s ≠ k.lastSlot cpu → (k.env s).status.canRun = false := fun s hs hsi hsl =>
      Bool.eq_false_iff.2 fun hcan => hsl (h.lastSlot_of_canRun hlen hfind hs hcan hsi).symm
    rw [hfind] at hselect
    dsimp only at hselect
    split at hselect
    · next hcl =>
      exact .inl ⟨_, hselect, hlast, hcl, fun heq s hs hsi => hrest s hs hsi (heq ▸ hsi)⟩
    · next hcl =>
      have hothers : ∀ s, (k.runQueue cpu).contains s → s ≠ (k.runQueue cpu).idle →
          (k.env s).status.canRun = false := by
        intro s hs hsi
        by_cases hsl : s = k.lastSlot cpu
        · rw [hsl]
          exact Bool.eq_false_iff.2 hcl
        · exact hrest s hs hsi hsl
      split at hselect
      · next hci =>
        exact .inl ⟨_, hselect, RunQueue.contains_idle hlen, hci, fun _ => hothers⟩
      · next hci =>
        refine .inr ⟨hselect, fun s hs => ?_⟩
        by_cases hsi : s = (k.runQueue cpu).idle
        · rw [hsi]
          exact Bool.eq_false_iff.2 hci
        · exact hothers s hs hsi

/-- **The scheduler picks the first in the circle.** In every reached state, for every CPU whose
slice has slots, the circle is walked from behind the slot that ran last, or the idle one if none is
recorded, up to that slot, and the first that is not the idle one and waits for the CPU is picked.
If there is none, the slot that ran last is picked if it can run, and then the idle one if that can.
Nothing is picked exactly where nothing in the slice can run, the idle slot only where nothing else
in it can, and what is picked is a slot of the slice whose environment is runnable or runs. -/
theorem Reached.select_is_first_in_circle :
    k.select cpu = .ok (match ((k.runQueue cpu).circle (k.lastSlot cpu)).find? (k.Waits cpu) with
      | some s => .ok s
      | none =>
        if (k.env (k.lastSlot cpu)).status.canRun then .ok (k.lastSlot cpu)
        else if (k.env (k.runQueue cpu).idle).status.canRun then .ok (k.runQueue cpu).idle
        else .error ⟨cpu⟩) ∧
      (k.select cpu = .ok (.error ⟨cpu⟩) ↔
        ∀ s, (k.runQueue cpu).contains s → (k.env s).status.canRun = false) ∧
      (k.select cpu = .ok (.ok (k.runQueue cpu).idle) →
        ∀ s, (k.runQueue cpu).contains s → s ≠ (k.runQueue cpu).idle →
          (k.env s).status.canRun = false) ∧
      ∀ s, k.select cpu = .ok (.ok s) → (k.runQueue cpu).contains s ∧
        ((k.env s).status = .runnable ∨ (k.env s).status = .running) := by
  refine ⟨select_eq_circle hlen (h.contains_lastSlot hlen), ?_⟩
  rcases h.pick_cases hlen with ⟨s, hs, hin, hcan, hothers⟩ | ⟨hnone, hall⟩
  · rw [hs]
    refine ⟨iff_of_false nofun fun hnone => ?_, fun heq => ?_, fun t heq => ?_⟩
    · cases hcan.symm.trans (hnone s hin)
    · exact hothers (Except.ok.inj (Except.ok.inj heq))
    · rw [← Except.ok.inj (Except.ok.inj heq)]
      exact ⟨hin, Status.canRun_iff.1 hcan⟩
  · rw [hnone]
    exact ⟨iff_of_true rfl hall, nofun, nofun⟩

end Reached

/-- Of three environments the second one ran last, so the third one is picked. -/
theorem Reached.select_is_first_in_circle_third :
    ∃ k : State Frames, Reached .perCpu 2 ({} : Frames) k ∧ (k.runQueue 0).len ≠ 0 ∧
      k.lastSlot 0 = 1 ∧ ((k.runQueue 0).circle 1).find? (k.Waits 0) = some 2 ∧
      k.select 0 = .ok (.ok 2) := by
  obtain ⟨k, hk, hseen⟩ := exists_of_map_toOption
    (f := fun k => (decide ((k.runQueue 0).len = 0), k.lastSlot 0,
      ((k.runQueue 0).circle 1).find? (k.Waits 0)))
    (b := (false, 1, some 2))
    (x := ran .perCpu 2 ({} : Frames)
      [.create [0x7f] 0, .create [0x7f] 0, .create [0x7f] 0, .schedule 0])
    (by decide +kernel)
  simp only [Prod.mk.injEq, decide_eq_false_iff_not] at hseen
  obtain ⟨hlen, hlast, hfind⟩ := hseen
  have h := reached_of_ran hk
  obtain ⟨hselect, -⟩ := h.select_is_first_in_circle hlen
  rw [hlast, hfind] at hselect
  exact ⟨k, h, hlen, hlast, hfind, hselect⟩

end State

end Exokernel
