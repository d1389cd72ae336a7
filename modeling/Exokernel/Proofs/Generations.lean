import Exokernel.Proofs.Origins
import Mathlib.Data.Nat.ModEq
/-!
# Identifiers go round

A slot gives its occupants one identifier after the other, and after as many as there are generations
it begins anew. `Given` is what a history tells of an identifier: which occupant of the slot it was
made for, counted from 1. It names that occupant, and nobody else until the slot has gone all the way
round (`Past.identifiers_go_round`).
-/

namespace Exokernel

namespace EnvId

variable {s : Slot} {n m : Nat} {id id' : EnvId}

theorem ext_raw (h : id.raw.toNat = id'.raw.toNat) : id = id' := by
  obtain ⟨raw, _⟩ := id
  obtain ⟨raw', _⟩ := id'
  obtain rfl : raw = raw' := UInt32.toNat_inj.1 h
  rfl

theorem generation_of_nth (h : nth s (n + 1) = some id) :
    id.generation = n % (generationLimit - 1) + 1 := by
  rw [← generation_nth_succ s n, h]
  rfl

/-- The word an identifier of a slot is made of: its generation above the number of the slot. -/
theorem raw_of_nth (h : nth s (n + 1) = some id) :
    id.raw.toNat = (n % (generationLimit - 1) + 1) * generationStep + s := by
  have hgeneration := generation_of_nth h
  obtain rfl : next (nth s n) s = id := Option.some.inj h
  rw [generation_next] at hgeneration
  rw [← hgeneration]
  rfl

/-- **Identifiers of a slot come back after a round**, and no sooner. -/
theorem nth_eq_iff (hn : 0 < n) (hm : 0 < m) :
    nth s n = nth s m ↔ n ≡ m [MOD generationLimit - 1] := by
  obtain ⟨n, rfl⟩ := Nat.exists_eq_succ_of_ne_zero hn.ne'
  obtain ⟨m, rfl⟩ := Nat.exists_eq_succ_of_ne_zero hm.ne'
  constructor
  · intro heq
    have hgeneration := congrArg (fun o => (o.map generation).getD 0) heq
    simp only [Nat.succ_eq_add_one, generation_nth_succ, Nat.add_right_cancel_iff] at hgeneration
    exact Nat.ModEq.add_right 1 hgeneration
  · intro hround
    have hmod : n % (generationLimit - 1) = m % (generationLimit - 1) :=
      Nat.ModEq.add_right_cancel' 1 hround
    refine congrArg some (ext_raw ?_)
    rw [raw_of_nth (n := n) rfl, raw_of_nth (n := m) rfl, hmod]

/-- What an identifier that was given out looks like. -/
structure InRange (s : Slot) (id : EnvId) : Prop where
  slot : id.slot = s
  spare : ∀ b, 9 ≤ b → b ≤ 11 → id.raw.toNat.testBit b = false
  pos : 1 ≤ id.generation
  le : id.generation ≤ 2 ^ 19 - 1
  lt : id.raw.toNat < 2 ^ 31

theorem inRange_of_nth (h : nth s n = some id) : InRange s id := by
  cases n with
  | zero => cases h
  | succ n =>
    have hgeneration := generation_of_nth h
    have hraw := raw_of_nth h
    have hmod : n % (generationLimit - 1) < generationLimit - 1 := Nat.mod_lt _ (by decide)
    have hs := s.isLt
    simp only [generationLimit, generationStep, slotCount] at hgeneration hraw hmod hs
    refine ⟨slot_of_nth h, fun b hlow hhigh => ?_, by omega, by omega, by omega⟩
    rw [Nat.testBit_eq_decide_div_mod_eq]
    obtain rfl | rfl | rfl : b = 9 ∨ b = 10 ∨ b = 11 := by omega
    all_goals
      refine decide_eq_false fun hset => ?_
      omega

end EnvId

namespace State

variable {M : Type} [Memory M] {k k' : State M} {policy : Policy} {ncpu cpu : Nat} {m₀ : M}
  {s t : Slot} {n m j : Nat} {id : EnvId} {l : List (Deed (State M) Action)}

/-- **The identifier of the `n`-th occupant of a slot** in a history: the deed that took the slot for
the `n`-th time left it there, also when the program of the occupant could not be loaded. -/
def Given (ncpu : Nat) (l : List (Deed (State M) Action)) (s : Slot) (n : Nat) (id : EnvId) : Prop :=
  ∃ d older k', d :: older <:+ l ∧ d.taken = some s ∧ takings s (d :: older) = n ∧
    Steps ncpu d.before d.act k' ∧ (k'.env s).lastId = some id

/-- Every taking of a slot has left an identifier. -/
theorem Past.exists_given (h : Past policy ncpu m₀ l k) (hn : 0 < n) (hle : n ≤ takings s l) :
    ∃ id, Given ncpu l s n id := by
  induction h with
  | start => exact absurd (hn.trans_le hle) (Nat.lt_irrefl 0)
  | @step l before k act hbefore hstep ih =>
    by_cases hearlier : n ≤ takings s l
    · obtain ⟨id, d, older, k', hsuffix, hgiven⟩ := ih hearlier
      exact ⟨id, d, older, k', hsuffix.trans (List.suffix_cons _ _), hgiven⟩
    · rw [takings_cons] at hle
      split at hle
      · next htaken =>
        have hlast := Past.lastId (hbefore.step hstep) s
        have hcount : takings s (⟨before, act⟩ :: l) = n := by
          rw [takings_cons, if_pos htaken]
          omega
        rw [hcount] at hlast
        obtain ⟨n, rfl⟩ := Nat.exists_eq_succ_of_ne_zero hn.ne'
        exact ⟨_, _, l, k, List.suffix_rfl, htaken, hcount, hstep, hlast⟩
      · omega

/-- **What was given to the `n`-th occupant** is the `n`-th identifier of the slot. -/
theorem Past.nth_of_given (h : Past policy ncpu m₀ l k) (hid : Given ncpu l s n id) :
    0 < n ∧ n ≤ takings s l ∧ EnvId.nth s n = some id := by
  obtain ⟨d, older, k', ⟨newer, rfl⟩, htaken, hcount, hstep, hlast⟩ := hid
  obtain ⟨hbefore, -⟩ := Traced.past h
  have hnth := Past.lastId (hbefore.step hstep) s
  rw [hcount] at hnth
  refine ⟨?_, ?_, hnth.symm.trans hlast⟩
  · rw [← hcount, takings_cons, if_pos htaken]
    exact Nat.succ_pos _
  · rw [← hcount]
    exact takings_le (List.suffix_append _ _)

omit [Memory M] in
/-- **An identifier that is not the occupant's is no good**, whoever uses it. -/
theorem resolve_eq_badTarget (hslot : id.slot = s) (hid : (k.env s).id ≠ some id) (cpu : Nat)
    (check : Bool) : k.resolve cpu id.raw check = .error .badTarget := by
  have hsome : EnvId.ofRaw? id.raw = some id := dif_pos id.raw_ne_zero
  unfold resolve
  rw [hsome]
  refine if_pos ?_
  rw [hslot]
  by_cases hfree : (k.env s).status = .free
  · exact .inl hfree
  · rw [Env.id_of_not_free hfree] at hid
    exact .inr (.inr hid)

/-- **Identifiers go round.** The occupants of a slot are given one identifier after the other. Each
names the slot, has nothing but zeros between the number of the slot and the generation, is of a
generation between 1 and 2¹⁹ - 1 and not negative; two of a slot are equal exactly if their places in
the row differ by a multiple of 2¹⁹ - 1. So whoever is in the table goes by an identifier of its own,
the last one given for its slot, and an identifier of an earlier occupant is refused unless the slot
was taken a multiple of 2¹⁹ - 1 times since and has an occupant. -/
theorem Past.identifiers_go_round (h : Past policy ncpu m₀ l k) :
    (∀ s n, 0 < n → n ≤ takings s l → ∃ id, Given ncpu l s n id) ∧
      (∀ s n id, Given ncpu l s n id → EnvId.InRange s id) ∧
      (∀ s n m id id', Given ncpu l s n id → Given ncpu l s m id' →
        (id = id' ↔ n ≡ m [MOD 2 ^ 19 - 1])) ∧
      (∀ s, (k.env s).status ≠ .free →
        ∃ id, (k.env s).id = some id ∧ Given ncpu l s (takings s l) id) ∧
      (∀ s t, (k.env s).status ≠ .free → (k.env t).status ≠ .free → s ≠ t →
        (k.env s).id ≠ (k.env t).id) ∧
      ∀ s n j id, Given ncpu l s n id → takings s l = n + j →
        (k.env s).status = .free ∨ ¬ 2 ^ 19 - 1 ∣ j →
          ∀ cpu check, k.resolve cpu id.raw check = .error .badTarget := by
  have hpresent : ∀ s, (k.env s).status ≠ .free →
      ∃ id, (k.env s).id = some id ∧ Given ncpu l s (takings s l) id := by
    intro s hs
    obtain ⟨id, hgiven⟩ := h.exists_given (h.takings_pos hs) (Nat.le_refl _)
    refine ⟨id, ?_, hgiven⟩
    rw [Env.id_of_not_free hs, h.lastId s]
    exact (h.nth_of_given hgiven).2.2
  refine ⟨fun s n => h.exists_given, fun s n id hid => ?_, fun s n m id id' hid hid' => ?_, hpresent,
    fun s t hs ht hne heq => ?_, fun s n j id hid hcount hgone => ?_⟩
  · exact EnvId.inRange_of_nth (h.nth_of_given hid).2.2
  · obtain ⟨hn, -, hnth⟩ := h.nth_of_given hid
    obtain ⟨hm, -, hnth'⟩ := h.nth_of_given hid'
    rw [← Option.some_inj, ← hnth, ← hnth']
    exact EnvId.nth_eq_iff hn hm
  · obtain ⟨id, hid, hgiven⟩ := hpresent s hs
    obtain ⟨id', hid', hgiven'⟩ := hpresent t ht
    obtain rfl := Option.some.inj (hid.symm.trans (heq.trans hid'))
    -- an identifier names one slot
    exact hne ((EnvId.slot_of_nth (h.nth_of_given hgiven).2.2).symm.trans
      (EnvId.slot_of_nth (h.nth_of_given hgiven').2.2))
  · obtain ⟨hn, hle, hnth⟩ := h.nth_of_given hid
    refine resolve_eq_badTarget (EnvId.slot_of_nth hnth) fun hthere => ?_
    obtain ⟨hs, hlast⟩ := Env.id_eq_some_iff.1 hthere
    refine hgone.elim hs fun hround => hround ?_
    have hsame : n ≡ n + j [MOD EnvId.generationLimit - 1] := by
      rw [← EnvId.nth_eq_iff hn (by omega), hnth, ← hcount, ← hlast, h.lastId s]
    exact (Nat.modEq_iff_dvd' (Nat.le_add_right n j)).1 hsame |>.trans (by rw [Nat.add_sub_cancel_left])

/-- An identifier that was given to an environment whose program could not be loaded is refused when
the slot has another occupant. -/
theorem Past.identifiers_go_round_failed :
    ∃ (l : List (Deed (State Frames) Action)) (k : State Frames) (id id' : EnvId),
      Past .perCpu 1 ({} : Frames) l k ∧ Given 1 l 0 1 id ∧ Given 1 l 0 2 id' ∧ id ≠ id' ∧
      (k.env 0).id = some id' ∧ ∀ cpu check, k.resolve cpu id.raw check = .error .badTarget := by
  obtain ⟨l, k, h, hseen⟩ := exists_past .perCpu 1 ({} : Frames) [.create [] 0, .create [0x7f] 0]
    (fun l k => (takings 0 l, (k.env 0).status)) (b := (2, .runnable)) (by decide +kernel)
  obtain ⟨hcount, hstatus⟩ := Prod.mk.inj hseen
  have hs : (k.env 0).status ≠ .free := by
    rw [hstatus]
    exact nofun
  obtain ⟨hgiven, -, hround, hpresent, -, hrefused⟩ := h.identifiers_go_round
  obtain ⟨id, hid⟩ := hgiven 0 1 (by decide) (by rw [hcount]; decide)
  obtain ⟨id', hid', hlast⟩ := hpresent 0 hs
  rw [hcount] at hlast
  refine ⟨l, k, id, id', h, hid, hlast, fun heq => ?_, hid',
    hrefused 0 1 1 id hid hcount (.inr (by decide))⟩
  exact absurd ((hround 0 1 2 id id' hid hlast).1 heq) (by decide)

end State

end Exokernel
