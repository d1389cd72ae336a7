import Mathlib.Data.List.Rotate
import Exokernel.Proofs.Fairness
import Exokernel.Proofs.Picking
/-!
# Taking turns

The slots of a slice that can run, the idle one apart, take turns. `State.rota` lists them as they
stand in the circle behind the slot that ran last. A scheduler pass gives the CPU to the first on
the list and puts it last (`Sound.rota_running`), so as long as nobody comes to it and nobody
leaves, the list only turns (`Since.turned`) and the passes go through it again and again
(`Reached.rota_goes_round`).
-/

namespace Exokernel

/-- **A list turned past the first entry of some kind**: of that kind it now has the others first. -/
theorem filter_rotate_of_filter_eq_cons {α : Type} {l rest : List α} {p : α → Bool} {a : α}
    (h : l.filter p = a :: rest) :
    ∃ j, l[j]? = some a ∧ (l.rotate (j + 1)).filter p = rest ++ [a] := by
  obtain ⟨before, after, rfl, hbefore, ha, hafter⟩ := List.filter_eq_cons_iff.1 h
  refine ⟨before.length, by simp, ?_⟩
  have hturned : (before ++ a :: after).rotate (before.length + 1) = after ++ (before ++ [a]) := by
    have hlength : before.length + 1 = (before ++ [a]).length := by simp
    rw [List.append_cons, hlength, List.rotate_append_length_eq]
  rw [hturned, List.filter_append, List.filter_append, hafter, List.filter_eq_nil_iff.2 hbefore,
    List.filter_cons_of_pos ha, List.filter_nil, List.nil_append]

namespace RunQueue

variable {q : RunQueue} {s t : Slot}

/-- **The round of another slot** is the same round, turned up to that slot. -/
theorem round_rotate {j : Nat} (h : q.contains s) (hj : (q.round q.len s)[j]? = some t) :
    q.round q.len t = (q.round q.len s).rotate (j + 1) := by
  have hlt : j < q.len := by
    rw [← length_round h q.len]
    exact (List.getElem?_eq_some_iff.1 hj).1
  obtain ⟨u, hu, hval⟩ := getElem?_round h hlt
  obtain rfl : u = t := Option.some.inj (hu.symm.trans hj)
  have ht : q.contains u := contains_of_mem_round h (List.mem_of_getElem? hj)
  refine List.ext_getElem ?_ fun i hi _ => ?_
  · rw [List.length_rotate, length_round h, length_round ht]
  · rw [length_round ht] at hi
    have hplace : (i + (j + 1)) % q.len < q.len := Nat.mod_lt _ (by omega)
    obtain ⟨v, hv, hval'⟩ := getElem?_round ht hi
    obtain ⟨w, hw, hval''⟩ := getElem?_round h hplace
    rw [List.getElem_rotate]
    simp only [length_round h]
    rw [(List.getElem_eq_iff _).2 hv, (List.getElem_eq_iff _).2 hw]
    refine Fin.ext ?_
    have hoffset : u.val - q.start.val = (s.val - q.start.val + (j + 1)) % q.len := by omega
    have hswap : s.val - q.start.val + ((i + (j + 1)) % q.len + 1) =
        (i + (j + 1)) % q.len + (s.val - q.start.val + 1) := by omega
    rw [hval', hval'', hoffset, hswap, Nat.mod_add_mod, Nat.mod_add_mod]
    congr 2
    omega

/-- The slot a circle is behind comes last. -/
theorem circle_getLast? (h : q.contains s) : (q.circle s).getLast? = some s := by
  have hlen : q.len ≠ 0 := by
    have hs := contains_iff.1 h
    omega
  obtain ⟨t, ht, hval⟩ := getElem?_round (i := q.len - 1) h (by omega : q.len - 1 < q.len)
  have hs := contains_iff.1 h
  have hround : s.val - q.start.val + (q.len - 1 + 1) = s.val - q.start.val + q.len := by omega
  rw [hround, Nat.add_mod_right, Nat.mod_eq_of_lt (by omega)] at hval
  rw [circle_eq_round h, List.getLast?_eq_getElem?, length_round h, ht]
  exact congrArg some (Fin.ext (by omega))

end RunQueue

namespace State

variable {M : Type} {k k' : State M} {policy : Policy} {ncpu cpu : Nat} {s t : Slot}

/-- The slot takes turns: it can run, and is not the one kept for the idle environment. -/
def Contends (k : State M) (cpu : Nat) (t : Slot) : Prop :=
  t ≠ (k.runQueue cpu).idle ∧ (k.env t).status.canRun = true

instance (k : State M) (cpu : Nat) (t : Slot) : Decidable (k.Contends cpu t) :=
  inferInstanceAs (Decidable (_ ∧ _))

/-- **The rota**: the slots of a CPU's slice that take turns, in circular order from behind the slot
that ran last. -/
def rota (k : State M) (cpu : Nat) : List Slot :=
  ((k.runQueue cpu).circle (k.lastSlot cpu)).filter (k.Contends cpu)

/-- On the rota is what can run, but for the idle slot. -/
theorem mem_rota : s ∈ k.rota cpu ↔ (k.runQueue cpu).contains s ∧ k.Contends cpu s := by
  rw [rota, List.mem_filter, RunQueue.mem_circle, decide_eq_true_iff]

theorem nodup_rota (k : State M) (cpu : Nat) : (k.rota cpu).Nodup :=
  (RunQueue.nodup_circle _ _).filter _

/-! ## One pass -/

/-- A CPU's run queue after it was given to a slot. -/
theorem runQueue_running (k : State M) (cpu : Nat) (s : Slot) :
    (k.running cpu s).runQueue cpu = { k.runQueue cpu with current := some s } := by
  have hq : (k.running cpu s).queueOf cpu = k.queueOf cpu := by simp only [queueOf, policy_running]
  rw [runQueue, hq, queue_running, if_pos rfl]
  rfl

/-- Handing over the CPU decides who runs, not who can. -/
theorem canRun_running (ht : (k.env t).status.canRun = true) (s : Slot) :
    ((k.running cpu t).env s).status.canRun = (k.env s).status.canRun := by
  rw [env_running]
  split
  · next hst =>
    rw [hst, ht]
    rfl
  · split
    · next hlast =>
      rw [hlast.2]
      rfl
    · rfl

namespace Sound

variable (h : Sound policy ncpu k) (hcpu : cpu < ncpu)

include h hcpu

/-- **What is first on the rota** waits for the CPU, and then it is the first on the circle that does;
or it runs, and then it stands alone. -/
theorem pick_of_rota {rest : List Slot} (hrota : k.rota cpu = t :: rest) :
    ((k.runQueue cpu).circle (k.lastSlot cpu)).find? (k.Waits cpu) = some t ∨
      ((k.runQueue cpu).circle (k.lastSlot cpu)).find? (k.Waits cpu) = none ∧ k.lastSlot cpu = t := by
  have hlast := RunQueue.circle_getLast? (h.contains_lastSlot hcpu)
  have hnodup := RunQueue.nodup_circle (k.runQueue cpu) (k.lastSlot cpu)
  have hwaits : ∀ s, k.Waits cpu s → k.Contends cpu s := fun s hs => ⟨hs.1, by rw [hs.2]; rfl⟩
  have hin : t ∈ k.rota cpu := by rw [hrota]; exact .head _
  have hslice := (mem_rota.1 hin).1
  obtain ⟨before, after, hcircle, hbefore, hcontends, hafter⟩ := List.filter_eq_cons_iff.1 hrota
  rw [hcircle] at hlast hnodup ⊢
  have hnone : before.find? (k.Waits cpu) = none := by
    refine List.find?_eq_none.2 fun s hs hw => hbefore s hs ?_
    exact decide_eq_true (hwaits s (of_decide_eq_true hw))
  have ht : k.Contends cpu t := of_decide_eq_true hcontends
  rw [List.find?_append, hnone, Option.none_or]
  rcases Status.canRun_iff.1 ht.2 with hst | hst
  · refine .inl (List.find?_cons_of_pos (decide_eq_true ?_))
    exact ⟨ht.1, hst⟩
  · have heq := h.lastSlot_eq (h.queueOf_lt hcpu) hslice hst
    -- what runs is the slot the circle ends with, so nothing stands behind it
    have hend : after = [] := by
      by_contra hne
      rw [heq, List.getLast?_append_of_ne_nil _ (List.cons_ne_nil _ _),
        List.getLast?_cons_of_ne_nil hne] at hlast
      exact (List.nodup_cons.1 (List.nodup_append.1 hnodup).2.1).1 (List.mem_of_getLast? hlast)
    have hruns : ¬ k.Waits cpu t := fun hw => by cases hw.2.symm.trans hst
    refine .inr ⟨?_, heq⟩
    rw [hend]
    exact List.find?_cons_of_neg (by simpa using hruns)

/-- **The first on the rota gets the CPU.** -/
theorem scheduleNext_of_rota {rest : List Slot} (hrota : k.rota cpu = t :: rest) :
    k.scheduleNext cpu = .ok (.ok (k.dispatchOf t), k.running cpu t) := by
  have hin : t ∈ k.rota cpu := by rw [hrota]; exact .head _
  obtain ⟨hslice, -, hcan⟩ := mem_rota.1 hin
  refine scheduleNext_of_select ?_ hslice
  rw [select_eq_circle (h.len_ne_zero hcpu) (h.contains_lastSlot hcpu)]
  rcases h.pick_of_rota hcpu hrota with hfind | ⟨hfind, heq⟩
  · rw [hfind]
  · rw [hfind, heq]
    exact congrArg _ (if_pos hcan)

/-- **And comes to stand last on it**, behind the others. -/
theorem rota_running {rest : List Slot} (hrota : k.rota cpu = t :: rest) :
    (k.running cpu t).rota cpu = rest ++ [t] := by
  have hin : t ∈ k.rota cpu := by rw [hrota]; exact .head _
  obtain ⟨hslice, -, hcan⟩ := mem_rota.1 hin
  have hlast := h.contains_lastSlot hcpu
  have hcontends : ∀ s, (k.running cpu t).Contends cpu s ↔ k.Contends cpu s := by
    intro s
    unfold Contends
    rw [runQueue_running, canRun_running hcan]
    rfl
  have hafter : (k.running cpu t).rota cpu =
      ((k.runQueue cpu).circle t).filter (k.Contends cpu) := by
    unfold rota lastSlot
    simp only [hcontends, runQueue_running]
    rfl
  rw [rota, RunQueue.circle_eq_round hlast] at hrota
  obtain ⟨j, hj, hturned⟩ := filter_rotate_of_filter_eq_cons hrota
  rw [hafter, RunQueue.circle_eq_round hslice, RunQueue.round_rotate hlast hj, hturned]

end Sound

/-! ## Any number of passes -/

end State

namespace Deed

variable {M : Type}

/-- **The deed leaves a CPU's slice as it is**: the CPU runs what it ran, and nobody there comes or
goes, stops or wakes. -/
def Spares [Memory M] (d : Deed (State M) Action) (cpu : Nat) : Prop :=
  ∀ k', d.act.perform d.before = .ok k' → k'.current cpu = d.before.current cpu ∧
    ∀ s, (d.before.runQueue cpu).contains s → (k'.env s).status = (d.before.env s).status

theorem act_of_isPass {d : Deed (State M) Action} {cpu : Nat} (hd : d.isPass cpu = true) :
    d.act = .schedule cpu := by
  obtain ⟨before, act⟩ := d
  cases act with
  | schedule c => exact congrArg Action.schedule (beq_iff_eq.1 hd)
  | alloc | create | free | destroy | reap | syscall | resume => cases hd

end Deed

namespace State

variable {M : Type} [Memory M] {k₀ k k' : State M} {policy : Policy} {ncpu cpu : Nat} {m₀ : M}
  {s t : Slot} {a : Action} {d : Deed (State M) Action} {l : List (Deed (State M) Action)}

/-- What the passes of a CPU gave it to, oldest first. -/
def given (cpu : Nat) (l : List (Deed (State M) Action)) : List (Option Slot) :=
  (l.reverse.filter (·.isPass cpu)).map (·.dispatches cpu)

omit [Memory M] in
theorem given_cons_pass (hd : d.isPass cpu = true) :
    given cpu (d :: l) = given cpu l ++ [d.dispatches cpu] := by
  simp [given, hd]

omit [Memory M] in
theorem given_cons_other (hd : d.isPass cpu = false) : given cpu (d :: l) = given cpu l := by
  simp [given, hd]

omit [Memory M] in
theorem Sound.contains_eq (h : Sound policy ncpu k) (h' : Sound policy ncpu k') (hcpu : cpu < ncpu)
    (s : Slot) : (k'.runQueue cpu).contains s = (k.runQueue cpu).contains s := by
  obtain ⟨hstart, hlen⟩ := h.slice_eq h' hcpu
  rw [Bool.eq_iff_iff, RunQueue.contains_iff, RunQueue.contains_iff, hstart, hlen]

omit [Memory M] in
/-- **Where the slice is as it was**, so is the rota. -/
theorem Sound.rota_congr (h : Sound policy ncpu k) (h' : Sound policy ncpu k') (hcpu : cpu < ncpu)
    (hcur : k'.current cpu = k.current cpu)
    (hst : ∀ s, (k.runQueue cpu).contains s → (k'.env s).status = (k.env s).status) :
    k'.rota cpu = k.rota cpu := by
  have hcontains := h.contains_eq h' hcpu
  have hidle : (k'.runQueue cpu).idle = (k.runQueue cpu).idle := (h.slice_eq h' hcpu).1
  have hlast : k'.lastSlot cpu = k.lastSlot cpu := by
    change (k'.current cpu).getD _ = (k.current cpu).getD _
    rw [hcur, hidle]
  have hcircle : (k'.runQueue cpu).circle (k'.lastSlot cpu) =
      (k.runQueue cpu).circle (k.lastSlot cpu) := by
    simp only [RunQueue.circle, hcontains, hlast]
  unfold rota
  rw [hcircle]
  refine List.filter_congr fun s hs => decide_eq_decide.2 ?_
  unfold Contends
  rw [hidle, hst s (RunQueue.mem_circle.1 hs)]

/-- **What was done since** some state, latest first. -/
abbrev Since (ncpu : Nat) (k₀ : State M) : List (Deed (State M) Action) → State M → Prop :=
  Traced (· = k₀) (Steps ncpu)

/-- What follows a reached state is reached. -/
theorem Reached.since (h₀ : Reached policy ncpu m₀ k₀) (h : Since ncpu k₀ l k) :
    Reached policy ncpu m₀ k :=
  h.invariant (fun _ hx => hx ▸ h₀) fun _ _ _ hx hstep => hx.step hstep.1 hstep.2

/-- **How far the rota has turned**: after some passes, between which the slice is left as it is, it
has turned by as many places, the passes have gone through it from its start, and what the last of
them gave the CPU to runs. -/
structure Turned (cpu : Nat) (k₀ : State M) (l : List (Deed (State M) Action)) (k : State M) :
    Prop where
  rota : k.rota cpu = (k₀.rota cpu).rotate (passes cpu l)
  given : given cpu l =
    (List.range (passes cpu l)).map fun i => (k₀.rota cpu)[i % (k₀.rota cpu).length]?
  runs : ∀ t, (State.given cpu l).getLast? = some (some t) →
    k.current cpu = some t ∧ (k.env t).status = .running

namespace Turned

variable (hrota : k₀.rota cpu ≠ []) (ht : Turned cpu k₀ l k)

include ht

omit [Memory M] in
/-- As many passes in a row as there are slots on the rota go once through it. -/
theorem window {i : Nat} (hi : i + (k₀.rota cpu).length ≤ passes cpu l) :
    ((State.given cpu l).drop i).take (k₀.rota cpu).length = ((k₀.rota cpu).map some).rotate i := by
  rw [ht.given]
  refine List.ext_getElem ?_ fun j hj _ => ?_
  · simp only [List.length_take, List.length_drop, List.length_map, List.length_range,
      List.length_rotate]
    omega
  · simp only [List.getElem_take, List.getElem_drop, List.getElem_map, List.getElem_range,
      List.getElem_rotate, List.length_map, Nat.add_comm j i]
    exact List.getElem?_eq_getElem _

/-- What is left alone does not turn. -/
theorem spared (h : Sound policy ncpu k) (h' : Sound policy ncpu k') (hcpu : cpu < ncpu)
    (hpass : (⟨k, a⟩ : Deed (State M) Action).isPass cpu = false)
    (hspares : (⟨k, a⟩ : Deed (State M) Action).Spares cpu) (hk' : a.perform k = .ok k') :
    Turned cpu k₀ (⟨k, a⟩ :: l) k' := by
  obtain ⟨hcur, hst⟩ := hspares k' hk'
  have hpasses : passes cpu (⟨k, a⟩ :: l) = passes cpu l := by
    rw [passes_cons, hpass]
    rfl
  refine ⟨?_, ?_, fun t hlast => ?_⟩
  · rw [h.rota_congr h' hcpu hcur hst, hpasses, ht.rota]
  · rw [given_cons_other hpass, hpasses, ht.given]
  · rw [given_cons_other hpass] at hlast
    obtain ⟨hcurrent, hruns⟩ := ht.runs t hlast
    rw [hcur, hst t (h.contains_current hcpu hcurrent)]
    exact ⟨hcurrent, hruns⟩

include hrota

omit [Memory M] in
/-- Whose turn is next. -/
theorem head : ∃ t rest, k.rota cpu = t :: rest ∧
    (k₀.rota cpu)[passes cpu l % (k₀.rota cpu).length]? = some t := by
  have hpos : 0 < (k₀.rota cpu).length := List.length_pos_iff.2 hrota
  have hhead := List.getElem?_rotate (l := k₀.rota cpu) (n := passes cpu l) hpos
  rw [Nat.zero_add, ← ht.rota] at hhead
  have hne : k.rota cpu ≠ [] := by
    rw [ht.rota]
    exact mt List.rotate_eq_nil_iff.1 hrota
  obtain ⟨t, rest, heq⟩ := List.exists_cons_of_ne_nil hne
  refine ⟨t, rest, heq, ?_⟩
  rw [← hhead, heq]
  rfl

/-- **A pass** goes to the next one, and turns the rota by a place. -/
theorem pass (h : Sound policy ncpu k) (hcpu : cpu < ncpu)
    (hpass : (⟨k, a⟩ : Deed (State M) Action).isPass cpu = true) (hk' : a.perform k = .ok k') :
    Turned cpu k₀ (⟨k, a⟩ :: l) k' := by
  obtain ⟨t, rest, hhead, hnext⟩ := ht.head hrota
  have hgo := h.scheduleNext_of_rota hcpu hhead
  have hdispatch : (⟨k, a⟩ : Deed (State M) Action).dispatches cpu = some t :=
    dispatches_of_pass hgo hpass
  have hpasses : passes cpu (⟨k, a⟩ :: l) = passes cpu l + 1 := by
    rw [passes_cons, hpass]
    rfl
  have hgiven := given_cons_pass (l := l) hpass
  rw [hdispatch] at hgiven
  obtain rfl : a = .schedule cpu := Deed.act_of_isPass hpass
  have hperform : Prod.snd <$> k.scheduleNext cpu = .ok k' := hk'
  rw [hgo] at hperform
  cases hperform
  refine ⟨?_, ?_, fun u hlast => ?_⟩
  · rw [h.rota_running hcpu hhead, hpasses, ← List.rotate_rotate, ← ht.rota, hhead,
      List.rotate_cons_succ, List.rotate_zero]
  · rw [hgiven, hpasses, List.range_succ, List.map_append, ← ht.given, List.map_singleton, hnext]
  · rw [hgiven, List.getLast?_concat] at hlast
    obtain rfl : t = u := Option.some.inj (Option.some.inj hlast)
    refine ⟨current_running k cpu t, ?_⟩
    rw [env_running, if_pos rfl]

end Turned

/-- **The rota turns**, whatever is done that leaves the slice as it is. -/
theorem Since.turned (h₀ : Reached policy ncpu m₀ k₀) (hcpu : cpu < ncpu)
    (hrota : k₀.rota cpu ≠ []) (h : Since ncpu k₀ l k)
    (hl : ∀ d ∈ l, d.isPass cpu = true ∨ d.Spares cpu) : Turned cpu k₀ l k := by
  induction h with
  | start hx =>
    subst hx
    exact ⟨(List.rotate_zero _).symm, rfl, nofun⟩
  | @step l k k' a hbefore hstep ih =>
    have hturned := ih fun d hd => hl d (.tail _ hd)
    have hsound := (h₀.since hbefore).sound
    have hsound' := (h₀.since (hbefore.step hstep)).sound
    rcases hpass : (⟨k, a⟩ : Deed (State M) Action).isPass cpu with _ | _
    · have hspares := (hl ⟨k, a⟩ (.head _)).resolve_left (Bool.eq_false_iff.1 hpass)
      exact hturned.spared hsound hsound' hcpu hpass hspares hstep.2
    · exact hturned.pass hrota hsound hcpu hpass hstep.2

/-- **Turns are taken in a circle.** Let some slots of a CPU's slice, apart from the idle one, be
able to run in a reached state. However often the CPU schedules from there on, as long as whatever
is done besides leaves its slice as it is, the passes give it to these slots one after the other, in
circular order from behind the slot that ran last at the start, or the idle one if none was
recorded, and again from the first. So of as many passes in a row as there are slots each slot gets
exactly one, and the idle slot gets none. After any of them the slot it gave the CPU to runs, the
others that take turns are runnable, and nothing else in the slice runs; and the next pass goes
through, to whose turn it is. -/
theorem Reached.rota_goes_round (h₀ : Reached policy ncpu m₀ k₀) (hcpu : cpu < ncpu)
    (hrota : k₀.rota cpu ≠ []) (h : Since ncpu k₀ l k)
    (hl : ∀ d ∈ l, d.isPass cpu = true ∨ d.Spares cpu) :
    given cpu l = (List.range (passes cpu l)).map (fun i =>
        (k₀.rota cpu)[i % (k₀.rota cpu).length]?) ∧
      (k₀.rota cpu).Nodup ∧
      (∀ i, i + (k₀.rota cpu).length ≤ passes cpu l →
        (((given cpu l).drop i).take (k₀.rota cpu).length).Perm ((k₀.rota cpu).map some)) ∧
      some (k₀.runQueue cpu).idle ∉ given cpu l ∧
      (∀ t, (given cpu l).getLast? = some (some t) →
        (∀ s ∈ k₀.rota cpu, (k.env s).status = if s = t then .running else .runnable) ∧
        ∀ s, (k₀.runQueue cpu).contains s → (k.env s).status = .running → s = t) ∧
      ∃ t, (k₀.rota cpu)[passes cpu l % (k₀.rota cpu).length]? = some t ∧
        k.scheduleNext cpu = .ok (.ok (k.dispatchOf t), k.running cpu t) := by
  have hturned := Since.turned h₀ hcpu hrota h hl
  have hsound := (h₀.since h).sound
  obtain ⟨t, rest, hhead, hnext⟩ := hturned.head hrota
  refine ⟨hturned.given, nodup_rota k₀ cpu, fun i hi => ?_, ?_, fun t hlast => ?_, t, hnext,
    hsound.scheduleNext_of_rota hcpu hhead⟩
  · rw [hturned.window hi]
    exact List.rotate_perm _ _
  · rw [hturned.given, List.mem_map]
    rintro ⟨i, -, hi⟩
    exact (mem_rota.1 (List.mem_of_getElem? hi)).2.1 rfl
  · obtain ⟨hcur, hruns⟩ := hturned.runs t hlast
    have hlastSlot : k.lastSlot cpu = t := congrArg (Option.getD · _) hcur
    have honly : ∀ s, (k₀.runQueue cpu).contains s → (k.env s).status = .running → s = t := by
      intro s hs hrun
      rw [← h₀.sound.contains_eq hsound hcpu] at hs
      rw [← hlastSlot, hsound.lastSlot_eq (hsound.queueOf_lt hcpu) hs hrun]
    refine ⟨fun s hs => ?_, honly⟩
    have hs' : s ∈ k.rota cpu := by rwa [hturned.rota, List.mem_rotate]
    obtain ⟨-, -, hcan⟩ := mem_rota.1 hs'
    split
    · next hst => rw [hst, hruns]
    · next hst =>
      rcases Status.canRun_iff.1 hcan with hrunnable | hrun
      · exact hrunnable
      · exact absurd (honly s (mem_rota.1 hs).1 hrun) hst

/-- Three environments beside the idle one get four passes in turn, and the second one is next. -/
theorem Reached.rota_goes_round_again :
    ∃ (k₀ k : State Frames) (l : List (Deed (State Frames) Action)),
      Reached .perCpu 1 ({} : Frames) k₀ ∧ 0 < 1 ∧ k₀.rota 0 = [1, 2, 3] ∧
        Since 1 k₀ l k ∧ (∀ d ∈ l, d.isPass 0 = true ∨ d.Spares 0) ∧
        given 0 l = [some 1, some 2, some 3, some 1] ∧ (k.env 1).status = .running ∧
        k.scheduleNext 0 = .ok (.ok (k.dispatchOf 2), k.running 0 2) := by
  obtain ⟨k₀, hk₀, hseen⟩ := exists_of_map_toOption
    (f := fun k₀ => (k₀.rota 0,
      (replay (step? 1) [] k₀ (List.replicate 4 (.schedule 0))).map fun p =>
        (p.1.all (·.isPass 0), passes 0 p.1)))
    (b := ([1, 2, 3], some (true, 4)))
    (x := ran .perCpu 1 ({} : Frames) (List.replicate 4 (.create [0x7f] 0))) (by decide +kernel)
  simp only [Prod.mk.injEq, Option.map_eq_some_iff] at hseen
  obtain ⟨hrota, ⟨l, k⟩, hreplay, hall, hpasses⟩ := hseen
  have h₀ := reached_of_ran hk₀
  have hstart : Since 1 k₀ [] k₀ := .start rfl
  have h : Since 1 k₀ l k := hstart.replay (fun _ _ _ => steps_of_step?) hreplay
  have hl : ∀ d ∈ l, d.isPass 0 = true ∨ d.Spares 0 := fun d hd =>
    .inl (List.all_eq_true.1 hall d hd)
  obtain ⟨hgiven, -, -, -, hruns, t, hnext, hgo⟩ :=
    h₀.rota_goes_round (by decide) (by rw [hrota]; exact List.cons_ne_nil _ _) h hl
  rw [hrota, hpasses] at hgiven hnext
  obtain rfl : 2 = t := Option.some.inj hnext
  have hstatus := (hruns 1 (by rw [hgiven]; rfl)).1 1 (by rw [hrota]; exact .head _)
  exact ⟨k₀, k, l, h₀, by decide, hrota, h, hl, hgiven, hstatus, hgo⟩

end State

end Exokernel
