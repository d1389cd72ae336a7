import Exokernel.Proofs.Mailboxes
import Exokernel.Proofs.Reaping
import Exokernel.Proofs.Rounds
/-!
# Whose turn it is

A scheduler pass starts behind the slot the kernel has recorded for the CPU, so each pass ends nearer to
a slot that waits (`Sound.pass_cases`), and what waits gets the CPU within a round. The record is of
what ran last, as long as that is there: when its slot is given back the record is gone, and the next
pass starts from the idle slot again. A slot can be kept waiting by that for another round each time,
and no longer (`Past.turn_comes`).
-/

namespace Exokernel

namespace RunQueue

variable {q : RunQueue} {s t u : Slot}

/-- **How far on a slot is** in circular order, from 1 to the length of the slice: a slot is a whole
round away from itself. -/
def gap (q : RunQueue) (s t : Slot) : Nat :=
  if s.val < t.val then t.val - s.val else q.len + t.val - s.val

theorem gap_pos (hs : q.contains s) (ht : q.contains t) : 0 < q.gap s t := by
  rw [contains_iff] at hs ht
  unfold gap
  split <;> omega

theorem gap_le (hs : q.contains s) (ht : q.contains t) : q.gap s t ≤ q.len := by
  rw [contains_iff] at hs ht
  unfold gap
  split <;> omega

/-- A step in circular order leads nearer, or there. -/
theorem gap_next (hu : q.contains u) (hs : q.contains s)
    (ht : t.val = q.start.val + (u.val - q.start.val + 1) % q.len) :
    t = s ∨ q.gap t s + 1 = q.gap u s := by
  rw [contains_iff] at hu hs
  have hoffset : u.val - q.start.val + 1 = q.len ∨ u.val - q.start.val + 1 < q.len := by omega
  by_cases hts : t = s
  · exact .inl hts
  have hne : t.val ≠ s.val := fun heq => hts (Fin.ext heq)
  refine .inr ?_
  unfold gap
  rcases hoffset with hlast | hinside
  · rw [hlast, Nat.mod_self] at ht
    split <;> split <;> omega
  · rw [Nat.mod_eq_of_lt hinside] at ht
    split <;> split <;> omega

/-- **The first slot of the round with some property** is nearer to each slot with the property, or is
that slot. -/
theorem find?_round_closer {p : Slot → Bool} (hs : q.contains s) (hp : p s) :
    ∀ {n : Nat} {u : Slot}, q.contains u → q.gap u s ≤ n →
      ∃ t, (q.round n u).find? p = some t ∧ (t = s ∨ q.gap t s < q.gap u s) := by
  intro n
  induction n with
  | zero =>
    intro u hu hn
    have hpos := gap_pos hu hs
    omega
  | succ n ih =>
    intro u hu hn
    obtain ⟨t, hround, ht, hval⟩ := round_succ hu n
    rw [hround, List.find?_cons]
    cases hpt : p t with
    | true =>
      refine ⟨t, rfl, (gap_next hu hs hval).imp_right fun hstep => ?_⟩
      omega
    | false =>
      have hne : t ≠ s := by
        rintro rfl
        cases hp.symm.trans hpt
      have hstep := (gap_next hu hs hval).resolve_left hne
      obtain ⟨found, hfound, hcloser⟩ := ih ht (by omega)
      exact ⟨found, hfound, hcloser.imp_right fun hlt => by omega⟩

end RunQueue

namespace State

variable {M : Type} {k k' : State M} {policy : Policy} {ncpu cpu c : Nat} {s t : Slot}

/-- **A scheduler pass comes nearer to whoever waits**: it gives the CPU to a slot that is nearer than
the one the pass started behind, or to the one that waits. -/
theorem Sound.pass_cases (h : Sound policy ncpu k) (hcpu : cpu < ncpu) (hs : k.Waits cpu s)
    (hin : (k.runQueue cpu).contains s) :
    ∃ t, k.scheduleNext cpu = .ok (.ok (k.dispatchOf t), k.running cpu t) ∧
      (k.runQueue cpu).contains t ∧
      (t = s ∨ (k.runQueue cpu).gap t s < (k.runQueue cpu).gap (k.lastSlot cpu) s) := by
  have hlast := h.contains_lastSlot hcpu
  obtain ⟨t, hfound, hcloser⟩ := RunQueue.find?_round_closer (p := fun t => k.Waits cpu t) hin
    (decide_eq_true hs) hlast (RunQueue.gap_le hlast hin)
  exact ⟨t, h.scheduleNext_of_found hcpu hfound,
    (RunQueue.mem_round_iff hlast).1 (List.mem_of_find?_eq_some hfound), hcloser⟩

/-! ## The record of what ran last -/

section Record

variable [Memory M]

/-- What a change does on a CPU's behalf leaves every CPU what it runs. -/
theorem Change.current (h : Change c k k') (cpu : Nat) : k'.current cpu = k.current cpu := by
  cases h with
  | speak | touch | amend => rfl
  | @fork p s dir mem => exact current_occupy k c s (k.env p).id dir mem cpu

theorem Changes.current (h : Changes c k k') (cpu : Nat) : k'.current cpu = k.current cpu := by
  induction h with
  | refl => rfl
  | tail _ hstep ih => exact (hstep.current cpu).trans ih

/-- The slot a CPU ran is given back, and the record with it. -/
def Vacates (cpu : Nat) (k k' : State M) : Prop :=
  k'.current cpu = none ∧ ∃ t, k.current cpu = some t ∧ (k'.env t).status = .free

omit [Memory M] in
theorem Vacates.after (h : Vacates cpu k k') {k'' : State M}
    (hcur : k''.current cpu = k'.current cpu) (hst : ∀ t, (k''.env t).status = (k'.env t).status) :
    Vacates cpu k k'' := by
  obtain ⟨hnone, t, ht, hfree⟩ := h
  exact ⟨hcur.trans hnone, t, ht, (hst t).trans hfree⟩

namespace Sound

variable (h : Sound policy ncpu k) (hcpu : cpu < ncpu)

include h hcpu

/-- What a CPU ran stays recorded when a slot is given back, unless it is that slot. -/
theorem current_free_cases (s : Slot) :
    (k.free s).current cpu = k.current cpu ∨ Vacates cpu k (k.free s) := by
  by_cases hs : k.current cpu = some s
  · refine .inr ⟨h.current_free hcpu hs, s, hs, ?_⟩
    rw [env_free, if_pos rfl]
  · exact .inl (current_free_ne k s hs)

theorem current_destroy_cases (c : Nat) (s : Slot) :
    (k.destroy c s).2.current cpu = k.current cpu ∨ Vacates cpu k (k.destroy c s).2 := by
  rcases destroy_cases k c s with ⟨-, hk⟩ | ⟨-, hk⟩
  · rw [hk]
    exact .inl rfl
  · rw [hk]
    exact h.current_free_cases hcpu s

/-- **A call leaves a CPU what it runs**, or gives it back. -/
theorem current_syscall_cases (c : Nat) (tf : TrapFrame) :
    (k.syscall c tf).2.current cpu = k.current cpu ∨ Vacates cpu k (k.syscall c tf).2 := by
  rcases syscall_cases c tf k with hchanges | ⟨victim, hdestroy⟩ | ⟨s, receiver, hsends⟩
  · exact .inl (hchanges.current cpu)
  · obtain ⟨s, text, k₁, hc, -, hk₁, hend⟩ := hdestroy.ends
    have hsaid : Sound policy ncpu ((k.save s tf).say .debug Log.Target.calls text) :=
      (h.setEnv (.of_registers _ _ _)).alike rfl rfl fun _ => .refl _
    have hgone := hsaid.current_destroy_cases hcpu c victim
    rw [← hk₁] at hgone
    have hgone : k₁.current cpu = k.current cpu ∨ Vacates cpu k k₁ := hgone
    rcases hend with ⟨-, hk'⟩ | ⟨-, -, hk'⟩
    · rw [hk']
      exact hgone
    · rw [hk']
      exact hgone.imp_right fun hv => hv.after rfl (sameNames_frame k₁ s _).status
  · obtain ⟨k₁, hd, hk'⟩ := hsends.ends
    rw [hk']
    exact .inl (hd.current cpu)

omit hcpu in
/-- Making an environment leaves every CPU what it runs, also if it fails. -/
theorem current_create (image : Image) (hc : c < ncpu) (cpu : Nat) :
    ((State.create image c).run k).2.current cpu = k.current cpu := by
  refine Op.of_ends (P := fun k' => k'.current cpu = k.current cpu) ?_
  refine ends_create (fun _ => rfl) (fun _ _ _ => rfl) (fun s dir mem e mem' hs _ _ => ?_)
    fun s dir mem entry mem' _ _ _ => current_occupy k c s none dir mem cpu
  obtain ⟨hqueue, -⟩ := h.free_occupy hc hs dir mem mem'
  exact congrArg RunQueue.current (hqueue (k.queueOf cpu))

omit [Memory M] in
/-- **Handing over one CPU** leaves the others what they run. -/
theorem current_running_ne (hc : c < ncpu) (hne : cpu ≠ c) (s : Slot) :
    (k.running c s).current cpu = k.current cpu := by
  have hq : (k.running c s).queueOf cpu = k.queueOf cpu := by
    simp only [queueOf, policy_running]
  rw [State.current, runQueue, hq, queue_running, if_neg]
  · rfl
  · intro heq
    refine hne ?_
    rw [← h.queueOf_val hcpu, ← h.queueOf_val hc, heq]

end Sound

end Record

end State

namespace Deed

variable {M : Type}

/-- The slot that the deed gives a CPU to. -/
def dispatches (d : Deed (State M) Action) (cpu : Nat) : Option Slot :=
  match d.act with
  | .schedule c =>
    if c = cpu then
      match d.before.scheduleNext c with
      | .ok (.ok x, _) => some x.slot
      | _ => none
    else none
  | .resume c =>
    if c = cpu then
      match d.before.resume c with
      | .ok (some x, _) => some x.slot
      | _ => none
    else none
  | _ => none

/-- The deed is a scheduler pass of a CPU. -/
def isPass (d : Deed (State M) Action) (cpu : Nat) : Bool :=
  match d.act with
  | .schedule c => c == cpu
  | _ => false

/-- The deed takes the record of what it ran from a CPU. -/
def vacates [Memory M] (d : Deed (State M) Action) (cpu : Nat) : Bool :=
  (d.before.current cpu).isSome &&
    match d.act.perform d.before with
    | .ok k' => (k'.current cpu).isNone
    | .error _ => false

end Deed

namespace State

variable {M : Type} [Memory M] {k k' : State M} {policy : Policy} {ncpu cpu c : Nat} {m₀ : M}
  {s t : Slot} {a : Action} {l newer older : List (Deed (State M) Action)}

/-- **What a step makes of the record**: a pass writes down what it gives the CPU to, the record is lost
with the slot that was recorded, and otherwise it stays, also when the CPU goes on with what it runs. -/
inductive Records (cpu : Nat) (d : Deed (State M) Action) (k' : State M) : Prop
  | given {t : Slot} : d.act = .schedule cpu → d.dispatches cpu = some t →
      k' = d.before.running cpu t → Records cpu d k'
  | again {t : Slot} : d.isPass cpu = false → d.dispatches cpu = some t →
      k'.current cpu = some t → d.before.current cpu = some t → Records cpu d k'
  | lost : d.isPass cpu = false → d.dispatches cpu = none → d.vacates cpu = true → Records cpu d k'
  | kept : d.dispatches cpu = none → k'.current cpu = d.before.current cpu → Records cpu d k'

theorem vacates_of_steps (hstep : Steps ncpu k a k') (h : Vacates cpu k k') :
    (⟨k, a⟩ : Deed (State M) Action).vacates cpu = true := by
  obtain ⟨hnone, t, ht, -⟩ := h
  simp only [Deed.vacates, hstep.2, ht, hnone, Option.isSome_some, Option.isNone_none, Bool.and_self]

theorem Sound.records (h : Sound policy ncpu k) (hcpu : cpu < ncpu) (hstep : Steps ncpu k a k') :
    Records cpu ⟨k, a⟩ k' := by
  have hcases : (⟨k, a⟩ : Deed (State M) Action).isPass cpu = false →
      (⟨k, a⟩ : Deed (State M) Action).dispatches cpu = none →
      (k'.current cpu = k.current cpu ∨ Vacates cpu k k') → Records cpu ⟨k, a⟩ k' :=
    fun hpass hnone hor => hor.elim (.kept hnone) fun hv =>
      .lost hpass hnone (vacates_of_steps hstep hv)
  obtain ⟨hproper, hk'⟩ := hstep
  cases a with
  | alloc parent c =>
    cases hk'
    refine .kept rfl (Op.of_ends (P := fun k' => k'.current cpu = k.current cpu) ?_)
    exact ends_alloc (fun _ => rfl) (fun _ _ _ => rfl) fun s dir mem _ _ =>
      current_occupy k c s parent dir mem cpu
  | create image c =>
    cases hk'
    exact .kept rfl (h.current_create image hproper cpu)
  | free s =>
    cases hk'
    exact hcases rfl rfl (h.current_free_cases hcpu s)
  | destroy c s =>
    cases hk'
    exact hcases rfl rfl (h.current_destroy_cases hcpu c s)
  | syscall c tf =>
    cases hk'
    exact hcases rfl rfl (h.current_syscall_cases hcpu c tf)
  | reap c =>
    cases hk'
    refine hcases rfl rfl ?_
    unfold State.reap
    split
    · next s _ =>
      split
      · exact h.current_free_cases hcpu s
      · exact .inl rfl
    · exact .inl rfl
  | schedule c =>
    rcases h.scheduleNext_cases hproper with ⟨e, hpass⟩ | ⟨t, ht, hrun, hpass⟩
    all_goals
      have hperform : Prod.snd <$> k.scheduleNext c = .ok k' := hk'
      rw [hpass] at hperform
      cases hperform
    · refine .kept ?_ rfl
      simp only [Deed.dispatches, hpass, ite_self]
    · by_cases hc : c = cpu
      · subst hc
        refine .given (t := t) rfl ?_ rfl
        simp only [Deed.dispatches, hpass, if_true]
        rfl
      · exact .kept (if_neg hc) (h.current_running_ne hcpu hproper (Ne.symm hc) t)
  | resume c =>
    rcases h.resume_cases hproper with ⟨hgo, -⟩ | ⟨t, ht, hrun, hgo⟩
    all_goals
      have hperform : Prod.snd <$> k.resume c = .ok k' := hk'
      rw [hgo] at hperform
      cases hperform
    · refine .kept ?_ rfl
      simp only [Deed.dispatches, hgo, ite_self]
    · by_cases hc : c = cpu
      · subst hc
        refine .again (t := t) rfl ?_ (current_running k c t) ht
        simp only [Deed.dispatches, hgo, if_true]
        rfl
      · exact .kept (if_neg hc) (h.current_running_ne hcpu hproper (Ne.symm hc) t)

/-! ## Turns -/

/-- The slot a CPU was given to last. -/
def lastRun (cpu : Nat) (l : List (Deed (State M) Action)) : Option Slot :=
  l.findSome? (·.dispatches cpu)

/-- What was done since a CPU was given to anybody. -/
def sinceRun (cpu : Nat) (l : List (Deed (State M) Action)) : List (Deed (State M) Action) :=
  l.takeWhile fun d => (d.dispatches cpu).isNone

/-- How many scheduler passes of a CPU there were. -/
def passes (cpu : Nat) (l : List (Deed (State M) Action)) : Nat :=
  l.countP (·.isPass cpu)

/-- How often a CPU lost the record of what it ran. -/
def losses (cpu : Nat) (l : List (Deed (State M) Action)) : Nat :=
  l.countP (·.vacates cpu)

/-- Nothing is recorded for a CPU of a table that was just set up. -/
theorem current_of_init (h : (fresh m₀).init policy ncpu = .ok k) (hcpu : cpu < ncpu) :
    k.current cpu = none := by
  cases hc : k.current cpu with
  | none => rfl
  | some t => exact absurd (vacant_of_init h t).1 ((Reached.init h).sound.current_ne_free hcpu hc)

/-- **The record is of what ran last**, unless it was lost since. -/
theorem Past.current_eq_lastRun (h : Past policy ncpu m₀ l k) (hcpu : cpu < ncpu)
    (hkept : ∀ d ∈ sinceRun cpu l, d.vacates cpu = false) : k.current cpu = lastRun cpu l := by
  induction h with
  | start hinit => exact current_of_init hinit hcpu
  | @step l before k act hbefore hstep ih =>
    have hsound := (Past.reached hbefore).sound
    have hlast : lastRun cpu (⟨before, act⟩ :: l) =
        ((⟨before, act⟩ : Deed (State M) Action).dispatches cpu).or (lastRun cpu l) := by
      rw [lastRun, List.findSome?_cons]
      cases (⟨before, act⟩ : Deed (State M) Action).dispatches cpu <;> rfl
    -- as long as nobody gets the CPU, what was done since goes on
    have hsince : (⟨before, act⟩ : Deed (State M) Action).dispatches cpu = none →
        sinceRun cpu (⟨before, act⟩ :: l) = ⟨before, act⟩ :: sinceRun cpu l := fun hnone =>
      List.takeWhile_cons_of_pos (by rw [hnone]; rfl)
    rw [hlast]
    cases hsound.records hcpu hstep with
    | @given t _ hgiven hk =>
      rw [hgiven, hk]
      exact current_running _ cpu t
    | again _ hgiven hcur _ =>
      rw [hgiven, hcur]
      rfl
    | lost _ hnone hvacates =>
      rw [hsince hnone] at hkept
      cases hvacates.symm.trans (hkept _ (.head _))
    | kept hnone hcur =>
      rw [hsince hnone] at hkept
      rw [hnone, hcur, ih fun d hd => hkept d (.tail _ hd)]
      rfl

omit [Memory M] in
/-- Slices stay where they are. -/
theorem Sound.slice_eq (h : Sound policy ncpu k) (h' : Sound policy ncpu k') (hcpu : cpu < ncpu) :
    (k'.runQueue cpu).start = (k.runQueue cpu).start ∧
      (k'.runQueue cpu).len = (k.runQueue cpu).len := by
  have hq : k'.queueOf cpu = k.queueOf cpu := by
    unfold queueOf
    rw [h.policy_eq, h'.policy_eq]
  have hlt := h.queueOf_lt hcpu
  unfold runQueue
  rw [hq]
  exact ⟨(h'.start_eq _ hlt).trans (h.start_eq _ hlt).symm,
    (h'.len_eq _ hlt).trans (h.len_eq _ hlt).symm⟩

omit [Memory M] in
theorem passes_cons (cpu : Nat) (d : Deed (State M) Action) (l : List (Deed (State M) Action)) :
    passes cpu (d :: l) = passes cpu l + (d.isPass cpu).toNat := by
  rw [passes, List.countP_cons]
  cases d.isPass cpu <;> rfl

theorem losses_cons (cpu : Nat) (d : Deed (State M) Action) (l : List (Deed (State M) Action)) :
    losses cpu (d :: l) = losses cpu l + (d.vacates cpu).toNat := by
  rw [losses, List.countP_cons]
  cases d.vacates cpu <;> rfl

omit [Memory M] in
/-- A pass of a CPU that gives it to some slot. -/
theorem dispatches_of_pass {x : Dispatch} {d : Deed (State M) Action}
    (hpass : d.before.scheduleNext cpu = .ok (.ok x, k')) (hd : d.isPass cpu = true) :
    d.dispatches cpu = some x.slot := by
  obtain ⟨before, act⟩ := d
  cases act with
  | schedule c =>
    obtain rfl : c = cpu := beq_iff_eq.1 hd
    simp only [Deed.dispatches, hpass, if_true]
  | alloc | create | free | destroy | reap | syscall | resume => cases hd

/-- **A step brings a slot that goes on waiting nearer** if it is a pass, and only the loss of the
record sets it back, by a round at most. -/
theorem Sound.gap_step (h : Sound policy ncpu k) (h' : Sound policy ncpu k') (hcpu : cpu < ncpu)
    (hstep : Steps ncpu k a k') (hin : (k.runQueue cpu).contains s) (hs : k.Waits cpu s)
    (hs' : (k'.env s).status = .runnable) :
    let d : Deed (State M) Action := ⟨k, a⟩
    (d.isPass cpu).toNat + (k.runQueue cpu).gap (k'.lastSlot cpu) s ≤
      (k.runQueue cpu).gap (k.lastSlot cpu) s +
        (d.vacates cpu).toNat * (k.runQueue cpu).len := by
  intro d
  obtain ⟨hstart, hlen⟩ := h.slice_eq h' hcpu
  have hsame : k'.current cpu = k.current cpu → k'.lastSlot cpu = k.lastSlot cpu := by
    intro hcur
    show (k'.current cpu).getD _ = (k.current cpu).getD _
    rw [hcur, RunQueue.idle, RunQueue.idle, hstart]
  obtain ⟨t, hpass, -, hcloser⟩ := h.pass_cases hcpu hs hin
  cases h.records hcpu hstep with
  | @given u hact hgiven hk =>
    have hd : d.isPass cpu = true := by
      show Deed.isPass ⟨k, a⟩ cpu = true
      rw [show a = .schedule cpu from hact]
      exact beq_self_eq_true cpu
    obtain rfl : u = t := Option.some.inj (hgiven.symm.trans (dispatches_of_pass hpass hd))
    have hlast : k'.lastSlot cpu = u := by
      show (k'.current cpu).getD _ = u
      rw [hk]
      exact congrArg (Option.getD · _) (current_running k cpu u)
    -- what got the CPU is not the slot that goes on waiting
    have hne : u ≠ s := by
      rintro rfl
      rw [hk, env_running, if_pos rfl] at hs'
      cases hs'
    have hlt := hcloser.resolve_left hne
    rw [hd, hlast, Bool.toNat_true]
    omega
  | @again u hd _ hcur' hcur =>
    rw [hd, hsame (hcur'.trans hcur.symm), Bool.toNat_false]
    omega
  | lost hd _ hvacates =>
    have hin' : (k.runQueue cpu).contains (k'.lastSlot cpu) := by
      have hlast := h'.contains_lastSlot hcpu
      rw [RunQueue.contains_iff] at hlast ⊢
      rwa [← hstart, ← hlen]
    have hle := RunQueue.gap_le hin' hin
    rw [hd, hvacates, Bool.toNat_false, Bool.toNat_true]
    omega
  | kept hnone hcur =>
    have hd : d.isPass cpu = false := by
      refine Bool.eq_false_iff.2 fun hd => ?_
      cases hnone.symm.trans (dispatches_of_pass hpass hd)
    rw [hd, hsame hcur, Bool.toNat_false]
    omega

/-- **Passes and losses are counted against each other** while a slot waits. -/
theorem Past.passes_add_gap_le (hcpu : cpu < ncpu) :
    ∀ {newer : List (Deed (State M) Action)} {k : State M},
      Past policy ncpu m₀ (newer ++ older) k → (k.runQueue cpu).contains s → k.Waits cpu s →
      (∀ d ∈ newer, (d.before.env s).status = .runnable) →
      passes cpu newer + (k.runQueue cpu).gap (k.lastSlot cpu) s ≤
        (losses cpu newer + 1) * (k.runQueue cpu).len := by
  intro newer
  induction newer with
  | nil =>
    intro k h hin hs _
    have hle := RunQueue.gap_le ((Past.reached h).sound.contains_lastSlot hcpu) hin
    simpa [passes, losses] using hle
  | cons d newer ih =>
    intro k h hin hs hstays
    have hsound' := (Past.reached h).sound
    cases h with
    | @step _ before _ act hbefore hstep =>
      have hsound := (Past.reached hbefore).sound
      obtain ⟨hstart, hlen⟩ := hsound.slice_eq hsound' hcpu
      have hin' : (before.runQueue cpu).contains s := by
        rw [RunQueue.contains_iff] at hin ⊢
        rwa [← hstart, ← hlen]
      have hs' : before.Waits cpu s := by
        refine ⟨?_, hstays _ (.head _)⟩
        rw [RunQueue.idle, ← hstart]
        exact hs.1
      have hbound := ih hbefore hin' hs' fun d hd => hstays d (.tail _ hd)
      have hgap := hsound.gap_step hsound' hcpu hstep hin' hs' hs.2
      have hlast : (k.runQueue cpu).gap (k.lastSlot cpu) s =
          (before.runQueue cpu).gap (k.lastSlot cpu) s := by
        rw [RunQueue.gap, RunQueue.gap, hlen]
      have hrounds : (losses cpu newer + (Deed.vacates ⟨before, act⟩ cpu).toNat + 1) *
            (before.runQueue cpu).len =
          (losses cpu newer + 1) * (before.runQueue cpu).len +
            (Deed.vacates ⟨before, act⟩ cpu).toNat * (before.runQueue cpu).len := by
        rw [Nat.add_right_comm, Nat.add_mul]
      rw [passes_cons, losses_cons, hlast, hlen, hrounds]
      dsimp only at hgap
      omega

/-- **Turns come.** A slot that waits for its CPU gets it at the next pass, or some slot does that is
nearer to it, in circular order, than the one the pass started behind. That is the slot the CPU was given
to last, or the idle one if it was given to none yet, unless the slot was given back since. So whatever
the other environments do, a slot that goes on waiting lets fewer passes go by than the slice has slots,
and as many again each time that the slot the CPU ran last is given back; if none is, the pass that makes
the number of slots full is its own. -/
theorem Past.turn_comes (h : Past policy ncpu m₀ (newer ++ older) k) (hcpu : cpu < ncpu)
    (hin : (k.runQueue cpu).contains s) (hs : k.Waits cpu s)
    (hstays : ∀ d ∈ newer, (d.before.env s).status = .runnable) :
    (∃ t, k.scheduleNext cpu = .ok (.ok (k.dispatchOf t), k.running cpu t) ∧
        (k.runQueue cpu).contains t ∧
        (t = s ∨ (k.runQueue cpu).gap t s < (k.runQueue cpu).gap (k.lastSlot cpu) s)) ∧
      ((∀ d ∈ sinceRun cpu (newer ++ older), d.vacates cpu = false) →
        k.lastSlot cpu = (lastRun cpu (newer ++ older)).getD (k.runQueue cpu).idle) ∧
      passes cpu newer < (losses cpu newer + 1) * (k.runQueue cpu).len ∧
      (losses cpu newer = 0 → passes cpu newer + 1 = (k.runQueue cpu).len →
        k.scheduleNext cpu = .ok (.ok (k.dispatchOf s), k.running cpu s)) := by
  have hsound := (Past.reached h).sound
  have hlast := hsound.contains_lastSlot hcpu
  have hbound := h.passes_add_gap_le hcpu hin hs hstays
  have hpos := RunQueue.gap_pos hlast hin
  obtain ⟨t, hpass, ht, hcloser⟩ := hsound.pass_cases hcpu hs hin
  refine ⟨⟨t, hpass, ht, hcloser⟩, fun hkept => ?_, by omega, fun hnone hfull => ?_⟩
  · show (k.current cpu).getD _ = _
    rw [h.current_eq_lastRun hcpu hkept]
  · -- the pass started one step before the slot, and nothing is nearer than that
    rw [hnone, Nat.zero_add, Nat.one_mul] at hbound
    have hpos' := RunQueue.gap_pos ht hin
    rcases hcloser with rfl | hlt
    · exact hpass
    · omega

/-- Of four environments of a CPU the last one gets its turn at the third pass. -/
theorem Past.turn_comes_third :
    ∃ (newer older : List (Deed (State Frames) Action)) (k : State Frames),
      Past .perCpu 1 ({} : Frames) (newer ++ older) k ∧ 0 < 1 ∧ (k.runQueue 0).contains 3 ∧
      k.Waits 0 3 ∧ (∀ d ∈ newer, (d.before.env 3).status = .runnable) ∧ passes 0 newer = 2 ∧
      k.lastSlot 0 = 2 ∧ k.scheduleNext 0 = .ok (.ok (k.dispatchOf 3), k.running 0 3) := by
  obtain ⟨l, k, h, hseen⟩ := exists_past .perCpu 1 ({} : Frames)
    [.create [0x7f] 0, .create [0x7f] 0, .create [0x7f] 0, .create [0x7f] 0, .schedule 0, .schedule 0]
    (fun l k => (decide (k.Waits 0 3 ∧ (k.runQueue 0).contains 3), k.lastSlot 0,
      decide ((k.runQueue 0).gap 2 3 = 1), passes 0 (l.take 2),
      (l.take 2).all fun d => decide ((d.before.env 3).status = .runnable)))
    (b := (true, 2, true, 2, true)) (by decide +kernel)
  simp only [Prod.mk.injEq, decide_eq_true_eq] at hseen
  obtain ⟨⟨hs, hin⟩, hlast, hgap, hpasses, hall⟩ := hseen
  have hstays : ∀ d ∈ l.take 2, (d.before.env 3).status = .runnable := by
    intro d hd
    exact of_decide_eq_true (List.all_eq_true.1 hall d hd)
  rw [← List.take_append_drop 2 l] at h
  obtain ⟨⟨t, hpass, ht, hcloser⟩, -⟩ := h.turn_comes (by decide : 0 < 1) hin hs hstays
  refine ⟨l.take 2, l.drop 2, k, h, by decide, hin, hs, hstays, hpasses, hlast, ?_⟩
  rw [hlast, hgap] at hcloser
  rcases hcloser with rfl | hlt
  · exact hpass
  · have hpos := RunQueue.gap_pos ht hin
    omega

/-- The environment that ran last exits, and the next pass starts from the idle slot again: it goes to
the first of the others, where the last one was next. -/
theorem Past.turn_lost :
    ¬ ∀ (l : List (Deed (State Frames) Action)) (k k' : State Frames) (s : Slot) (x : Dispatch),
      Past .perCpu 1 ({} : Frames) l k → (k.runQueue 0).contains s → k.Waits 0 s →
        k.scheduleNext 0 = .ok (.ok x, k') →
          x.slot = s ∨ (k.runQueue 0).gap x.slot s <
            (k.runQueue 0).gap ((lastRun 0 l).getD (k.runQueue 0).idle) s := by
  intro hclaim
  obtain ⟨l, k, h, hseen⟩ := exists_past .perCpu 1 ({} : Frames)
    [.create [0x7f] 0, .create [0x7f] 0, .create [0x7f] 0, .create [0x7f] 0, .schedule 0, .schedule 0,
      callOf .envDestroy {}]
    (fun l k => (decide (k.Waits 0 3 ∧ (k.runQueue 0).contains 3), lastRun 0 l,
      decide ((k.runQueue 0).gap 2 3 ≤ (k.runQueue 0).gap 1 3),
      (k.scheduleNext 0).toOption.map fun p => p.1.toOption.map (·.slot)))
    (b := (true, some 2, true, some (some 1))) (by decide +kernel)
  simp only [Prod.mk.injEq, decide_eq_true_eq] at hseen
  obtain ⟨⟨hs, hin⟩, hlast, hgap, hnext⟩ := hseen
  obtain ⟨⟨r, k'⟩, hk', hr⟩ := exists_of_map_toOption hnext
  obtain ⟨x, rfl, hslot⟩ := exists_of_map_toOption hr
  rcases hclaim l k k' 3 x h hin hs hk' with heq | hlt
  · rw [hslot] at heq
    cases heq
  · rw [hslot, hlast, Option.getD_some] at hlt
    exact absurd hlt (Nat.not_lt.2 hgap)

end State

end Exokernel
