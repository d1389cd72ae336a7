import Mathlib.Data.Fintype.Card
import Exokernel.Proofs.Mailboxes
import Exokernel.Proofs.Origins
/-!
# Authority is descent

An environment has authority over itself and over whatever descends from it. The kernel reads descent
off the identifiers in the table, following at most as many parent links as there are slots; a history
tells who created whom. As long as the generations of no slot start over the two are the same: an
identifier names one environment, each creator came before its child, so the environments on the way
from a descendant to its ancestor are in as many slots, and the links suffice.
-/

namespace Exokernel

namespace State

variable {M : Type} {k : State M} {caller : EnvId}

/-- One link, and the rest of the way. -/
theorem reaches_succ_iff {n : Nat} {id : EnvId} : k.reaches caller (n + 1) id = true ↔
    id = caller ∨ (k.env id.slot).id = some id ∧
      ∃ parent, (k.env id.slot).parent = some parent ∧ k.reaches caller n parent = true := by
  rw [reaches]
  by_cases heq : id = caller
  · simp only [heq, true_or, if_true]
  · simp only [heq, false_or, if_false]
    by_cases hid : (k.env id.slot).id = some id
    · rw [if_pos hid]
      cases hparent : (k.env id.slot).parent with
      | none => simp [hid]
      | some parent => simp [hid]
    · rw [if_neg hid]
      simp [hid]

/-- More links lead no less far. -/
theorem reaches_mono {m n : Nat} (hmn : m ≤ n) {id : EnvId} (h : k.reaches caller m id = true) :
    k.reaches caller n id = true := by
  induction m generalizing n id with
  | zero => cases h
  | succ m ih =>
    obtain ⟨n, rfl⟩ : ∃ i, n = i + 1 := ⟨n - 1, by omega⟩
    rw [reaches_succ_iff] at h ⊢
    rcases h with heq | ⟨hid, parent, hparent, hrest⟩
    · exact .inl heq
    · exact .inr ⟨hid, parent, hparent, ih (by omega) hrest⟩

/-- A nonzero word names, with authority over it, the occupant of a slot the way from which to the
caller is short enough. -/
theorem resolve_iff_reaches {cpu : Nat} {raw : UInt32} {s c : Slot} (hraw : raw ≠ 0)
    (hc : k.current cpu = some c) (hcaller : (k.env c).id = some caller) :
    k.resolve cpu raw true = .ok s ↔
      ∃ id : EnvId, id.raw = raw ∧ id.slot = s ∧ (k.env s).id = some id ∧
        (k.env s).status ≠ .dying ∧ k.reaches caller slotCount id = true := by
  have hself : ∀ id, k.isSelfOrDescendant cpu id = k.reaches caller slotCount id := by
    intro id
    simp only [isSelfOrDescendant, currentId, hc, hcaller]
  rw [resolve_eq_ok_iff]
  simp only [hraw, false_and, false_or, true_implies, hself]

/-! ## Descent -/

variable [Memory M] {policy : Policy} {ncpu cpu : Nat} {m₀ : M} {l : List (Deed (State M) Action)}

/-- The environment is in the slot it was put in. -/
structure Present (l : List (Deed (State M) Action)) (k : State M) (o : Occupant M) : Prop where
  occupied : (k.env o.slot).status ≠ .free
  occupant_eq : occupant o.slot l = o

/-- **Descent**: the environment is the ancestor, or it is there and its creator descends from the
ancestor. -/
inductive Descends (l : List (Deed (State M) Action)) (k : State M) (ancestor : Occupant M) :
    Occupant M → Prop
  | self : Descends l k ancestor ancestor
  | child {o c : Occupant M} : Present l k o → o.creator = some c → Descends l k ancestor c →
      Descends l k ancestor o

omit [Memory M] in
/-- Whoever was created from the slot of its ancestor was created by that ancestor. -/
theorem Descends.creator_eq {ancestor o creator : Occupant M} (h : Descends l k ancestor o)
    (hne : o ≠ ancestor) (hcreator : o.creator = some creator)
    (hslot : creator.slot = ancestor.slot) (hthere : occupant ancestor.slot l = ancestor) :
    creator = ancestor := by
  cases h with
  | self => exact absurd rfl hne
  | child _ hcreator' hrest =>
    obtain rfl := Option.some.inj (hcreator'.symm.trans hcreator)
    cases hrest with
    | self => rfl
    | child hpresent =>
      rw [← hpresent.occupant_eq, hslot]
      exact hthere

section Descent

variable (h : Past policy ncpu m₀ l k) (hmade : ∀ d ∈ l, d.act.bare = false)
  (hfew : ∀ s, takings s l < EnvId.generationLimit) {c : Slot}
  (hcaller : (k.env c).id = some caller)

include h hmade hcaller

/-- Whoever goes by an identifier in the table came under that identifier. -/
theorem came_of_id : (occupant c l).Came l ∧ (occupant c l).id = some caller := by
  obtain ⟨hocc, hlast⟩ := Env.id_eq_some_iff.1 hcaller
  have hknown := Past.known h hmade c hocc
  exact ⟨hknown.came, hknown.lastId.symm.trans hlast⟩

include hfew in
/-- **Links lead to ancestors only.** -/
theorem descends_of_reaches {n : Nat} : ∀ {id : EnvId} {o : Occupant M}, o.Came l →
    o.id = some id → k.reaches caller n id = true → Descends l k (occupant c l) o := by
  induction n with
  | zero =>
    intro id o _ _ hreaches
    cases hreaches
  | succ n ih =>
    intro id o hcame hid hreaches
    rcases reaches_succ_iff.1 hreaches with heq | ⟨hthere, parent, hparent, hrest⟩
    · obtain ⟨hcaller_came, hcaller_id⟩ := came_of_id h hmade hcaller
      have hself : o = occupant c l := hcame.ext hcaller_came hfew hid (heq ▸ hcaller_id)
      rw [hself]
      exact .self
    · have hocc := (Env.id_eq_some_iff.1 hthere).1
      have hknown := Past.known h hmade id.slot hocc
      -- who bears the identifier now is the environment it was given to
      have hsame : o = occupant id.slot l :=
        hcame.ext hknown.came hfew hid (came_of_id h hmade hthere).2
      have hbind := hknown.parent.symm.trans hparent
      obtain ⟨creator, hcreator, hcreatorId⟩ := Option.bind_eq_some_iff.1 hbind
      rw [← hsame] at hcreator
      obtain ⟨hcame', -, -⟩ := Past.creator_came h hmade hcame hcreator
      have hslot : o.slot = id.slot := congrArg Occupant.slot hsame
      have hpresent : Present l k o := by
        refine ⟨?_, ?_⟩
        · rw [hslot]
          exact hocc
        · rw [hslot]
          exact hsame.symm
      exact .child hpresent hcreator (ih hcame' hcreatorId hrest)

/-- **Links lead to every ancestor**, through as many slots as there are environments on the way, none
of which came after the descendant. -/
theorem reaches_of_descends {o : Occupant M} (hdescends : Descends l k (occupant c l) o) :
    o.Came l → ∃ slots : List Slot, slots.Nodup ∧
      (∀ t ∈ slots, (occupant t l).past.length ≤ o.past.length) ∧
      ∀ id, o.id = some id → k.reaches caller slots.length id = true := by
  induction hdescends with
  | self =>
    intro _
    refine ⟨[c], List.nodup_singleton c, ?_, ?_⟩
    · intro t ht
      rw [List.mem_singleton.1 ht]
    · intro id hid
      refine reaches_succ_iff.2 (.inl ?_)
      exact Option.some.inj (hid.symm.trans (came_of_id h hmade hcaller).2)
  | @child o creator hpresent hcreator _ ih =>
    intro hcame
    obtain ⟨hcame', hearlier, -⟩ := Past.creator_came h hmade hcame hcreator
    obtain ⟨slots, hnodup, hbefore, hreaches⟩ := ih hcame'
    refine ⟨o.slot :: slots, ?_, ?_, ?_⟩
    · -- the slots so far have occupants that came before this one
      refine List.nodup_cons.2 ⟨fun hmem => ?_, hnodup⟩
      have hle := hbefore _ hmem
      rw [hpresent.occupant_eq] at hle
      omega
    · intro t ht
      rcases List.mem_cons.1 ht with rfl | ht
      · rw [hpresent.occupant_eq]
      · have := hbefore t ht
        omega
    · intro id hid
      have hslot : id.slot = o.slot := EnvId.slot_of_nth hid
      have hknown := Past.known h hmade o.slot hpresent.occupied
      rw [hpresent.occupant_eq] at hknown
      obtain ⟨parent, hparent⟩ := hcame'.exists_id
      refine reaches_succ_iff.2 (.inr ⟨?_, parent, ?_, hreaches parent hparent⟩)
      · rw [hslot, Env.id_of_not_free hpresent.occupied, hknown.lastId]
        exact hid
      · rw [hslot, hknown.parent, hcreator]
        exact hparent

include hfew in
/-- **The links that are followed suffice.** -/
theorem reaches_iff_descends {o : Occupant M} {id : EnvId} (hcame : o.Came l)
    (hid : o.id = some id) :
    k.reaches caller slotCount id = true ↔ Descends l k (occupant c l) o := by
  constructor
  · intro hreaches
    exact descends_of_reaches h hmade hfew hcaller hcame hid hreaches
  · intro hdescends
    obtain ⟨slots, hnodup, -, hreaches⟩ :=
      reaches_of_descends h hmade hcaller hdescends hcame
    have hcard : slots.length ≤ slotCount := by
      have := hnodup.length_le_card
      rwa [Fintype.card_fin] at this
    exact reaches_mono hcard (hreaches id hid)

end Descent

/-- **Authority is descent.** As long as every slot was taken fewer than 2¹⁹ times, so that no
generations start over: a nonzero word names a slot, with authority over it, if and only if it is the
identifier of the environment that is there, that environment is not being destroyed, and it is the
caller or was created by one that descends from the caller, all of them still there. Following more
parent links than there are slots leads no further, and the caller has no authority over what an
earlier occupant of its slot created. -/
theorem Past.authority_is_descent (h : Past policy ncpu m₀ l k)
    (hmade : ∀ d ∈ l, d.act.bare = false) (hfew : ∀ s, takings s l < EnvId.generationLimit)
    {c : Slot} (hc : k.current cpu = some c) (hocc : (k.env c).status ≠ .free) :
    (∀ raw s, raw ≠ 0 → (k.resolve cpu raw true = .ok s ↔
        (∃ id, (k.env s).id = some id ∧ id.raw = raw) ∧ (k.env s).status ≠ .free ∧
          (k.env s).status ≠ .dying ∧ Descends l k (occupant c l) (occupant s l))) ∧
      (∀ caller n id, (k.env c).id = some caller → k.reaches caller n id = true →
        k.reaches caller slotCount id = true) ∧
      ∀ raw s o, k.resolve cpu raw true = .ok s → (occupant s l).creator = some o → o.slot = c →
        o = occupant c l := by
  have hknown := Past.known h hmade c hocc
  obtain ⟨caller, hlast⟩ := hknown.came.exists_id
  have hcaller : (k.env c).id = some caller :=
    Env.id_eq_some_iff.2 ⟨hocc, hknown.lastId.trans hlast⟩
  -- from whoever is in the table, the links lead to the caller just when it descends from it
  have hwalk : ∀ {caller s id}, (k.env c).id = some caller → (k.env s).id = some id →
      (k.reaches caller slotCount id = true ↔ Descends l k (occupant c l) (occupant s l)) := by
    intro caller s id hcaller hid
    obtain ⟨hcame, hid⟩ := came_of_id h hmade hid
    exact reaches_iff_descends h hmade hfew hcaller hcame hid
  have hauthority : ∀ raw s, raw ≠ 0 → (k.resolve cpu raw true = .ok s ↔
      (∃ id, (k.env s).id = some id ∧ id.raw = raw) ∧ (k.env s).status ≠ .free ∧
        (k.env s).status ≠ .dying ∧ Descends l k (occupant c l) (occupant s l)) := by
    intro raw s hraw
    rw [resolve_iff_reaches hraw hc hcaller]
    constructor
    · rintro ⟨id, hraw, -, hid, hdying, hreaches⟩
      have hs := (Env.id_eq_some_iff.1 hid).1
      exact ⟨⟨id, hid, hraw⟩, hs, hdying, (hwalk hcaller hid).1 hreaches⟩
    · rintro ⟨⟨id, hid, hraw⟩, -, hdying, hdescends⟩
      have hslot : id.slot = s := EnvId.slot_of_nth (came_of_id h hmade hid).2
      exact ⟨id, hraw, hslot, hid, hdying, (hwalk hcaller hid).2 hdescends⟩
  refine ⟨hauthority, ?_, ?_⟩
  · intro caller n id hcaller hreaches
    cases n with
    | zero => cases hreaches
    | succ n =>
      rcases reaches_succ_iff.1 hreaches with heq | ⟨hid, -⟩
      · exact reaches_mono (by decide : 1 ≤ slotCount) (reaches_succ_iff.2 (.inl heq))
      · obtain ⟨hcame, hlast⟩ := came_of_id h hmade hid
        refine (hwalk hcaller hid).2 ?_
        exact descends_of_reaches h hmade hfew hcaller hcame hlast hreaches
  · intro raw s o hresolve hcreator hslot
    have hself : raw = 0 → s = c := by
      rintro rfl
      exact Except.ok.inj (hresolve.symm.trans (resolve_zero hc true))
    have hs : (k.env s).status ≠ .free := by
      by_cases hraw : raw = 0
      · rw [hself hraw]
        exact hocc
      · exact ((hauthority raw s hraw).1 hresolve).2.1
    have hcame := (Past.known h hmade s hs).came
    -- an environment is not created from its own slot
    have hother : s ≠ c := by
      rintro rfl
      obtain ⟨-, -, hne⟩ := Past.creator_came h hmade hcame hcreator
      exact hne hslot
    have hraw : raw ≠ 0 := fun hraw => hother (hself hraw)
    obtain ⟨-, -, -, hdescends⟩ := (hauthority raw s hraw).1 hresolve
    have hne : occupant s l ≠ occupant c l := fun heq => hother (congrArg Occupant.slot heq)
    exact hdescends.creator_eq hne hcreator hslot rfl

/-- A child makes a child in turn, which its parent's parent has authority over. -/
theorem Past.authority_is_descent_grandchild :
    ∃ (l : List (Deed (State Frames) Action)) (k : State Frames), Past .perCpu 1 ({} : Frames) l k ∧
      (∀ d ∈ l, d.act.bare = false) ∧ (∀ s, takings s l < EnvId.generationLimit) ∧
      k.current 0 = some 0 ∧ (k.env 0).status ≠ .free ∧ k.resolve 0 0x1002 true = .ok 2 ∧
      Descends l k (occupant 0 l) (occupant 2 l) ∧
      (occupant 2 l).creator.map Occupant.slot = some 1 := by
  obtain ⟨l, k, h, hseen⟩ := exists_past .perCpu 1 ({} : Frames)
    (withChild ++ [callOf .exofork {}, callOf .ipcRecv { first := 0xffffffff }, .schedule 0])
    (fun l k => (l.length, l.all fun d => !d.act.bare, k.current 0,
      (k.resolve 0 0x1002 true).toOption, (occupant 2 l).creator.map Occupant.slot))
    (b := (9, true, some 0, some 2, some 1)) (by decide +kernel)
  simp only [Prod.mk.injEq] at hseen
  obtain ⟨hlength, hbare, hc, hresolve, hcreator⟩ := hseen
  have hmade : ∀ d ∈ l, d.act.bare = false := by
    intro d hd
    simpa using List.all_eq_true.1 hbare d hd
  have hfew : ∀ s, takings s l < EnvId.generationLimit := by
    intro s
    have hle : takings s l ≤ l.length := List.countP_le_length
    show takings s l < 0x80000
    omega
  obtain ⟨s, hs, hs'⟩ := exists_of_map_toOption (f := id) (b := 2)
    (x := k.resolve 0 0x1002 true) (by rw [hresolve]; rfl)
  obtain rfl : s = 2 := hs'
  have hocc := (Past.reached h).sound.current_ne_free (by decide) hc
  obtain ⟨hauthority, -, -⟩ := h.authority_is_descent hmade hfew hc hocc
  obtain ⟨-, -, -, hdescends⟩ := (hauthority 0x1002 2 (by decide)).1 hs
  exact ⟨l, k, h, hmade, hfew, hc, hocc, hs, hdescends, hcreator⟩

end State

end Exokernel
