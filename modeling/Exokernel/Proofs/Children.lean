import Exokernel.Proofs.Alone
import Exokernel.Proofs.Plays
/-!
# What a fork leaves

A program that has the kernel to itself forks. The walk through its pages keeps `Mappings.Copied`:
below the address it has come to the child has what its parent had, with the permission that
`User.sharedPerm` leaves, and above it nothing has changed yet, so the pages that are left to walk
through are those the program had before. Each call is refused for want of memory alone, and what it
leaves of the mappings, the names and the fault handlers is said once, for the call
(`Alone.Going.pageMap` and its like); `Alone.Raising` is what stays as it is while the child waits.
Together they make `Alone.fork_shares_every_page`.
-/

namespace Exokernel

open MemoryView PageView Memory State

/-! ## The pages of a child -/

namespace Mappings

/-- What a child has mapped where its parent has a page. -/
def lent (e : PhysPage × Perm) : PhysPage × Perm := (e.1, User.sharedPerm e.2)

/-- What its parent has mapped there from then on. -/
def kept (e : PhysPage × Perm) : PhysPage × Perm :=
  (e.1, if e.2.intersects (Perm.write ||| Perm.copyOnWrite) then User.sharedPerm e.2 else e.2)

theorem contains_write_lent (e : PhysPage × Perm) : (lent e).2.contains Perm.write = false :=
  User.contains_write_sharedPerm e.2

/-- What the parent keeps cannot be written, since it is shared if it could. -/
theorem contains_write_kept (e : PhysPage × Perm) : (kept e).2.contains Perm.write = false := by
  unfold kept
  dsimp only
  split
  · exact User.contains_write_sharedPerm e.2
  · next hrights =>
    rw [Perm.intersects_write_copyOnWrite, Bool.or_eq_true, not_or] at hrights
    exact Bool.eq_false_iff.2 hrights.1

/-- How far a distinction is made does not matter where there is none. -/
theorem ite_lt_congr {e d : Option (PhysPage × Perm)} {v va va' : Nat} (hle : va ≤ va')
    (h : va ≤ v → v < va' → e = d) : (if v < va then e else d) = if v < va' then e else d := by
  by_cases hv : v < va
  · rw [if_pos hv, if_pos (Nat.lt_of_lt_of_le hv hle)]
  · rw [if_neg hv]
    split
    · next hv' => exact (h (Nat.not_lt.1 hv) hv').symm
    · rfl

theorem put_self {x : Mappings} {s : Slot} {va : Nat} {e : Option (PhysPage × Perm)}
    (h : x s va = e) : x.put s va e = x := by
  funext u v
  unfold put
  split
  · next heq => rw [heq.1, heq.2, h]
  · rfl

/-- **A child has its parent's pages below an address**, and nothing else is changed. -/
structure Copied (x₀ x : Mappings) (s t : Slot) (va : Nat) : Prop where
  child : ∀ v, x t v = if v < va then (x₀ s v).map lent else none
  parent : ∀ v, x s v = if v < va then (x₀ s v).map kept else x₀ s v
  others : ∀ u v, u ≠ s → u ≠ t → x u v = x₀ u v
  /-- The child had nothing before. -/
  bare : ∀ v, x₀ t v = none

/-- **The pages of a child and its parent** once the child has all of them: those below the top of the
ordinary stack, and a new one for an exception stack. -/
structure Inherited (x₀ x : Mappings) (s t : Slot) : Prop where
  absent : ∀ va, va < Layout.stackTop → x₀ s va = none → x t va = none ∧ x s va = none
  /-- What the parent could write, or had shared before, is shared. -/
  shared : ∀ va page p, va < Layout.stackTop → x₀ s va = some (page, p) →
    p.intersects (Perm.write ||| Perm.copyOnWrite) = true →
    x t va = some (page, Perm.userRead ||| Perm.copyOnWrite) ∧
      x s va = some (page, Perm.userRead ||| Perm.copyOnWrite)
  /-- What it could only read it keeps as it is. -/
  readOnly : ∀ va page p, va < Layout.stackTop → x₀ s va = some (page, p) →
    p.intersects (Perm.write ||| Perm.copyOnWrite) = false →
    x t va = some (page, Perm.userRead) ∧ x s va = some (page, p)
  above : ∀ va, Layout.stackTop ≤ va → va ≠ Layout.exceptionStack → x t va = none
  /-- The exception stack is a page that nobody had, and nobody else has. -/
  stack : ∃ page, (∀ u va p, x₀ u va ≠ some (page, p)) ∧ ∀ u va p, x u va = some (page, p) ↔
    u = t ∧ va = Layout.exceptionStack ∧ p = Perm.userWrite
  /-- None of the pages below the stack's top can be written in either. -/
  unwritable : ∀ va, va < Layout.stackTop → ∀ u, u = s ∨ u = t → ∀ page p, x u va = some (page, p) →
    p.contains Perm.write = false

namespace Copied

variable {x₀ x : Mappings} {s t : Slot} {va va' : Nat}

theorem start (x : Mappings) (s t : Slot) (hnone : ∀ v, x t v = none) : Copied x x s t 0 where
  child v := by rw [hnone, if_neg (Nat.not_lt_zero v)]
  parent v := by rw [if_neg (Nat.not_lt_zero v)]
  others _ _ _ _ := rfl
  bare := hnone

/-- Where the parent has nothing, the child lacks nothing. -/
theorem skip (h : Copied x₀ x s t va) (hle : va ≤ va')
    (hnone : ∀ v, va ≤ v → v < va' → x₀ s v = none) : Copied x₀ x s t va' where
  child v := (h.child v).trans (ite_lt_congr hle fun hv hv' => by rw [hnone v hv hv']; rfl)
  parent v := (h.parent v).trans (ite_lt_congr hle fun hv hv' => by rw [hnone v hv hv']; rfl)
  others := h.others
  bare := h.bare

/-- **One more page.** -/
theorem snoc (h : Copied x₀ x s t va) (hne : t ≠ s) :
    Copied x₀ ((x.put t va ((x₀ s va).map lent)).put s va ((x₀ s va).map kept)) s t (va + 1) where
  child v := by
    unfold put
    rw [if_neg fun heq => hne heq.1, h.child]
    by_cases hv : v = va
    · rw [if_pos ⟨rfl, hv⟩, if_pos (by omega), hv]
    · rw [if_neg fun heq => hv heq.2]
      exact if_congr (by omega) rfl rfl
  parent v := by
    unfold put
    rw [if_neg (c := s = t ∧ _) fun heq => hne heq.1.symm, h.parent]
    by_cases hv : v = va
    · rw [if_pos ⟨rfl, hv⟩, if_pos (by omega), hv]
    · rw [if_neg fun heq => hv heq.2]
      exact if_congr (by omega) rfl rfl
  others u v hs ht := by
    unfold put
    rw [if_neg fun heq => hs heq.1, if_neg fun heq => ht heq.1, h.others u v hs ht]
  bare := h.bare

/-- No page is lost on the way. -/
theorem exists_of_some (h : Copied x₀ x s t va) {u : Slot} {v : Nat} {page : PhysPage} {p : Perm}
    (hpage : x₀ u v = some (page, p)) : ∃ q, x u v = some (page, q) := by
  by_cases ht : u = t
  · cases (ht ▸ h.bare v).symm.trans hpage
  by_cases hs : u = s
  · subst hs
    rw [h.parent]
    split
    · exact ⟨_, by rw [hpage]; rfl⟩
    · exact ⟨p, hpage⟩
  · exact ⟨p, (h.others u v hs ht).trans hpage⟩

/-- **All pages but the exception stack are copied**, and that is a new one. -/
theorem inherited (h : Copied x₀ x s t Layout.stackTop) (hne : t ≠ s) {page : PhysPage}
    (hnew : ∀ u v p, x u v ≠ some (page, p)) :
    Inherited x₀ (x.put t Layout.exceptionStack (some (page, Perm.userWrite))) s t := by
  have hchild : ∀ v, v ≠ Layout.exceptionStack →
      x.put t Layout.exceptionStack (some (page, Perm.userWrite)) t v = x t v := fun v hv =>
    if_neg fun heq => hv heq.2
  have hlent : ∀ v, v < Layout.stackTop →
      x.put t Layout.exceptionStack (some (page, Perm.userWrite)) t v = (x₀ s v).map lent :=
    fun v hv => (hchild v (Nat.ne_of_lt (hv.trans (by decide)))).trans
      ((h.child v).trans (if_pos hv))
  have hkept : ∀ v, v < Layout.stackTop →
      x.put t Layout.exceptionStack (some (page, Perm.userWrite)) s v = (x₀ s v).map kept :=
    fun v hv => (if_neg fun heq => hne heq.1.symm).trans ((h.parent v).trans (if_pos hv))
  exact {
    absent := fun v hv hnone => by
      rw [hlent v hv, hkept v hv, hnone]
      exact ⟨rfl, rfl⟩
    shared := fun v q p hv he hrights => by
      rw [hlent v hv, hkept v hv, he]
      simp only [Option.map_some, lent, kept, User.sharedPerm, hrights, if_true, and_self]
    readOnly := fun v q p hv he hrights => by
      rw [hlent v hv, hkept v hv, he]
      simp only [Option.map_some, lent, kept, User.sharedPerm, hrights, Bool.false_eq_true,
        if_false, and_self]
    above := fun v hv hstack => by
      rw [hchild v hstack, h.child, if_neg (Nat.not_lt.2 hv)]
    stack := by
      refine ⟨page, fun u v p he => ?_, fun u v p => ⟨fun he => ?_, ?_⟩⟩
      · obtain ⟨q, hq⟩ := h.exists_of_some he
        exact hnew u v q hq
      · unfold put at he
        split at he
        · next heq =>
          cases he
          exact ⟨heq.1, heq.2, rfl⟩
        · exact absurd he (hnew u v p)
      · rintro ⟨rfl, rfl, rfl⟩
        exact if_pos ⟨rfl, rfl⟩
    unwritable := by
      rintro v hv u (rfl | rfl) q p he
      · rw [hkept v hv] at he
        obtain ⟨e, -, heq⟩ := Option.map_eq_some_iff.1 he
        exact (congrArg (·.2.contains Perm.write) heq).symm.trans (contains_write_kept e)
      · rw [hlent v hv] at he
        obtain ⟨e, -, heq⟩ := Option.map_eq_some_iff.1 he
        exact (congrArg (·.2.contains Perm.write) heq).symm.trans (contains_write_lent e) }

end Copied

namespace Inherited

variable {x₀ x₁ x : Mappings} {s t : Slot}

/-- The same, where the parent had fewer pages above the ordinary stack before. -/
theorem congr (h : Inherited x₁ x s t) (hbelow : ∀ v, v < Layout.stackTop → x₁ s v = x₀ s v)
    (hkept : ∀ u v e, x₀ u v = some e → x₁ u v = some e) : Inherited x₀ x s t where
  absent v hv hnone := h.absent v hv ((hbelow v hv).trans hnone)
  shared v page p hv he := h.shared v page p hv ((hbelow v hv).trans he)
  readOnly v page p hv he := h.readOnly v page p hv ((hbelow v hv).trans he)
  above := h.above
  stack := by
    obtain ⟨page, hnew, hpage⟩ := h.stack
    exact ⟨page, fun u v p he => hnew u v p (hkept u v _ he), hpage⟩
  unwritable := h.unwritable

end Inherited

end Mappings

/-! ## Calls -/

namespace State

variable {M : Type} [Memory M] {k : State M} {cpu : Nat} {a : Args} {s t : Slot}

/-- A slot for a child is refused for want of memory, if at all. -/
theorem short_of_exofork (hcur : k.current cpu = some s) (hhead : (k.runQueue cpu).freeHead = some t) :
    Ends (perform cpu .exofork a) k fun r _ => ∀ e, r = .error e → ∃ short, e = .memory short := by
  simp only [perform, exofork, Ends.map_iff, Ends.bind_iff, Ends.get_iff, Op.ends_ofOption]
  refine ⟨fun p hp => ends_alloc ?_ ?_ ?_, ?_⟩
  · rintro hnone
    cases hhead.symm.trans hnone
  · rintro short _ _ e ⟨rfl⟩
    exact ⟨short, rfl⟩
  · intro child dir mem _ _
    have hid : ((k.forked cpu p child dir mem).env child).id =
        some (EnvId.next (k.env child).lastId child) := by
      rw [env_forked, if_pos rfl]
      rfl
    simp only [Ends.modify_iff, Ends.pure_iff]
    refine ⟨?_, fun hnone => ?_⟩
    · rintro _ _ _ ⟨⟩
    · cases hid.symm.trans hnone
  · rintro hnone
    cases hcur.symm.trans hnone

omit [Memory M] in
/-- Run queues have the same slots all the time. -/
theorem Sound.contains_congr {policy : Policy} {ncpu : Nat} {k' : State M} (h : Sound policy ncpu k)
    (h' : Sound policy ncpu k') (hcpu : cpu < ncpu) :
    (k.runQueue cpu).contains s ↔ (k'.runQueue cpu).contains s := by
  have hqueue : k.queueOf cpu = k'.queueOf cpu :=
    Fin.ext ((h.queueOf_val hcpu).trans (h'.queueOf_val hcpu).symm)
  exact (h.contains_iff (h.queueOf_lt hcpu)).trans (hqueue ▸ (h'.contains_iff (h'.queueOf_lt hcpu)).symm)

omit [Memory M] in
/-- A run queue with a free slot has one to give. -/
theorem Sound.exists_head {policy : Policy} {ncpu : Nat} (h : Sound policy ncpu k) (hcpu : cpu < ncpu)
    (hs : (k.runQueue cpu).contains s) (hfree : (k.env s).status = .free) :
    ∃ t, (k.runQueue cpu).freeHead = some t := by
  have hlt := h.queueOf_lt hcpu
  obtain ⟨l, hl, -, hmem⟩ := h.chain (k.queueOf cpu) hlt
  have hin : s ∈ l := (hmem s).2 ⟨(h.contains_iff hlt).1 hs, hfree⟩
  change ∃ t, (k.queue (k.queueOf cpu)).freeHead = some t
  cases hhead : (k.queue (k.queueOf cpu)).freeHead with
  | some t => exact ⟨t, rfl⟩
  | none =>
    rw [hhead] at hl
    cases hl
    cases hin

theorem short_of_envSetUpcall (hraw : k.resolve cpu a.first true = .ok t) :
    Ends (perform cpu .envSetUpcall a) k fun r _ =>
      ∀ e, r = .error e → ∃ short, e = .memory short := by
  simp only [perform, perform.done, setUpcall, target, Ends.bind_iff, Ends.get_iff, Op.ends_ofExcept,
    hraw, Ends.modify_iff, Ends.pure_iff]
  rintro _ ⟨⟩

theorem short_of_envSetStatus (hraw : k.resolve cpu a.first true = .ok t) {st : Status}
    (hst : settable? a.second = some st) :
    Ends (perform cpu .envSetStatus a) k fun r _ =>
      ∀ e, r = .error e → ∃ short, e = .memory short := by
  simp only [perform, perform.done, setStatus, target, Ends.bind_iff, Ends.get_iff, Op.ends_ofExcept,
    Op.ends_ofOption, hst, hraw, Ends.modify_iff, Ends.pure_iff]
  constructor
  · rintro _ _ _ ⟨⟩
  · rintro ⟨⟩

end State

namespace Alone

variable {M : Type} [Memory M] {o : Alone M} {policy : Policy} {ncpu : Nat} {m₀ : M}
  {r r' : Course M} {c : Call} {args : Args} {t : Slot} {va : Nat}

omit [Memory M] in
theorem eax_frame (o : Alone M) (c : Call) (args : Args) (r : Course M) :
    (o.frame c args r).eax = c.number := rfl

/-- Only a call for a child counts as one. -/
theorem forks_enter (hc : c ≠ .exofork) : (o.enter c args r).forks = r.forks := by
  refine List.filter_cons_of_neg ?_
  rw [decide_eq_true_iff, eax_frame]
  exact fun heq => hc (Call.number_injective heq)

theorem forks_exofork : (o.enter .exofork args r).forks = o.frame .exofork args r :: r.forks :=
  List.filter_cons_of_pos (decide_eq_true rfl)

/-- **A call that nobody is changed by** but for the answer. -/
structure Served (o : Alone M) (policy : Policy) (ncpu : Nat) (m₀ : M) (r r' : Course M) : Prop
    extends o.Going policy ncpu m₀ r' where
  answers : Answers r.kernel r'.kernel o.slot 0 fun _ => False
  forks : r'.forks = r.forks

namespace Served

theorem same (h : o.Served policy ncpu m₀ r r') (u : Slot) :
    Env.Same (r.kernel.env u) (r'.kernel.env u) := h.answers.same u not_false

theorem trans {r'' : Course M} (h : o.Served policy ncpu m₀ r r')
    (h' : o.Served policy ncpu m₀ r' r'') : o.Served policy ncpu m₀ r r'' where
  toGoing := h'.toGoing
  answers := ⟨h'.answers.eax, fun u _ => (h.same u).trans (h'.same u), fun u hu hnot =>
    (h'.answers.frame u hu hnot).trans (h.answers.frame u hu hnot)⟩
  forks := h'.forks.trans h.forks

end Served

/-- Where the answer is all that changes, the call is served. -/
theorem Going.served (h : o.Going policy ncpu m₀ r) (hc : c ≠ .exofork)
    (hanswers : Answers r.kernel (o.enter c args r).kernel o.slot 0 fun _ => False) :
    o.Served policy ncpu m₀ r (o.enter c args r) :=
  ⟨h.enter ((hanswers.same o.slot not_false).status.trans h.runs.2.2), hanswers, forks_enter hc⟩

section Calls

variable [MemoryView M] [PageView M] [LawfulMemory M] [LawfulPages M] [FiniteMap M] [FreshPages M]
  {env dst : Option EnvId}

/-- A call that is performed leaves what `Remaps` says. -/
theorem Going.remaps (h : o.Going policy ncpu m₀ r) (hm : Valid m₀) (ha : Accounted m₀)
    (ht : Tidy m₀) (hcopies : c.copies = true) {completion : Completion} {k' : State M}
    (hp : Performs (r.kernel.save o.slot (o.frame c args r)) o.cpu args c completion k')
    (hk : (o.enter c args r).kernel = k'.conclude o.slot completion) :
    Remaps r.kernel o.cpu o.slot args c (o.enter c args r).kernel :=
  hk ▸ (h.reached.housed hm).remaps_of_performs h.reached.sound (h.reached.accounted hm ha)
    (h.reached.tidy hm ht) h.runs.1 h.runs.2.1 hcopies hp

omit [MemoryView M] [PageView M] [LawfulMemory M] [LawfulPages M] [FiniteMap M] [FreshPages M] in
/-- The program goes by 0. -/
theorem Going.resolve_self (h : o.Going policy ncpu m₀ r) :
    r.kernel.resolve o.cpu (Syscalls.envWord none) true = .ok o.slot :=
  resolve_zero h.runs.2.1 true

variable (hm : Valid m₀) (ha : Accounted m₀) (ht : Tidy m₀)
include hm ha ht

/-- **A page of its own**, for the program or its child. -/
theorem Going.pageAlloc (h : o.Going policy ncpu m₀ r)
    (hraw : r.kernel.resolve o.cpu (Syscalls.envWord env) true = .ok t)
    (hva : va % Layout.pageSize = 0) (hlt : va < Layout.userTop) :
    o.Succeeds (Program.syscalls.pageAlloc env va Perm.userWrite) r fun _ r' =>
      o.Served policy ncpu m₀ r r' ∧
        (∀ u, (r.kernel.env u).status ≠ .free →
          (r'.kernel.env u).upcall = (r.kernel.env u).upcall) ∧
        ∃ page, (∀ u v p, r.kernel.mapping u v ≠ some (page, p)) ∧
          r'.kernel.mapping = r.kernel.mapping.put t va (some (page, Perm.userWrite)) := by
  refine Succeeds.ask fun hsup => ?_
  obtain ⟨completion, k', hp, hk⟩ := h.performs hsup (short_of_pageAlloc
    ((resolve_save r.kernel o.slot _ _).trans hraw) (isUserPage_addressWord hva hlt)
    ofUser?_userWrite)
  have hupcall := fun u => h.reached.sound.upcall_of_performs (u := u) h.runs.1 hp rfl nofun
  have hremaps := h.remaps hm ha ht rfl hp hk
  rw [← hk] at hupcall
  obtain ⟨ht', hperm, hnew, hmaps, hanswers⟩ := hremaps
  cases hraw.symm.trans ht'
  cases ofUser?_userWrite.symm.trans hperm
  rw [toNat_addressWord hlt] at hmaps
  exact ⟨hanswers.eax, h.served nofun hanswers, hupcall, _, hnew, hmaps⟩

/-- **A page the program has**, without the right to write to it. -/
theorem Going.pageMap (h : o.Going policy ncpu m₀ r)
    (hraw : r.kernel.resolve o.cpu (Syscalls.envWord env) true = .ok t)
    (hva : va % Layout.pageSize = 0) (hlt : va < Layout.userTop) {page : PhysPage} {mapped : Perm}
    (hmapped : r.kernel.mapping o.slot va = some (page, mapped)) :
    o.Succeeds (Program.syscalls.pageMap none va env va (User.sharedPerm mapped)) r fun _ r' =>
      o.Served policy ncpu m₀ r r' ∧
        (∀ u, (r.kernel.env u).status ≠ .free →
          (r'.kernel.env u).upcall = (r.kernel.env u).upcall) ∧
        r'.kernel.mapping = r.kernel.mapping.put t va (some (page, User.sharedPerm mapped)) := by
  refine Succeeds.ask fun hsup => ?_
  have hself := h.resolve_self
  have hpage (tf : TrapFrame) : (r.kernel.save o.slot tf).shareable
      ((r.kernel.save o.slot tf).env o.slot).pgdir (Syscalls.addressWord va).toNat
      (User.sharedPerm mapped) = some page := by
    have hlookup : Memory.lookup (r.kernel.save o.slot tf).memory (r.kernel.env o.slot).pgdir va =
        some (page, mapped) := (mapping_eq_lookup h.there).symm.trans hmapped
    rw [(same_save r.kernel o.slot o.slot tf).pgdir, toNat_addressWord hlt]
    unfold shareable
    rw [hlookup, User.contains_write_sharedPerm]
    rfl
  obtain ⟨completion, k', hp, hk⟩ := h.performs hsup (short_of_pageMap
    ((resolve_save r.kernel o.slot _ _).trans hself) ((resolve_save r.kernel o.slot _ _).trans hraw)
    (isUserPage_addressWord hva hlt) (isUserPage_addressWord hva hlt) (User.ofUser?_sharedPerm mapped)
    (hpage _))
  have hupcall := fun u => h.reached.sound.upcall_of_performs (u := u) h.runs.1 hp rfl nofun
  have hremaps := h.remaps hm ha ht rfl hp hk
  rw [← hk] at hupcall
  obtain _ | ⟨hsrc, hdst, hperm, hpage', hmaps, hanswers⟩ := hremaps
  cases hself.symm.trans hsrc
  cases hraw.symm.trans hdst
  cases (User.ofUser?_sharedPerm mapped).symm.trans hperm
  rw [toNat_addressWord hlt] at hpage' hmaps
  cases hmapped.symm.trans hpage'
  exact ⟨hanswers.eax, h.served nofun hanswers, hupcall, hmaps⟩

/-- **The entry point of a fault handler.** -/
theorem Going.envSetUpcall (h : o.Going policy ncpu m₀ r) (entry : Nat)
    (hraw : r.kernel.resolve o.cpu (Syscalls.envWord env) true = .ok t) :
    o.Succeeds (Program.syscalls.envSetUpcall env entry) r fun _ r' =>
      o.Served policy ncpu m₀ r r' ∧ r'.kernel.mapping = r.kernel.mapping ∧
        ∀ u, (r'.kernel.env u).upcall =
          if u = t then entry % 2 ^ 32 else (r.kernel.env u).upcall := by
  refine Succeeds.ask fun hsup => ?_
  obtain ⟨completion, k', hp, hk⟩ := h.performs hsup (short_of_envSetUpcall
    ((resolve_save r.kernel o.slot _ _).trans hraw))
  obtain ⟨t', ht', hupcall⟩ := upcall_of_performs hp
  have hremaps := h.remaps hm ha ht rfl hp hk
  rw [← hk] at hupcall
  cases hraw.symm.trans ht'
  obtain _ | _ | _ | _ | _ | ⟨hmaps, hanswers⟩ := hremaps
  exact ⟨hanswers.eax, h.served nofun hanswers, hmaps, hupcall⟩

/-- **A child that can be named is started.** -/
theorem Going.envSetStatus (h : o.Going policy ncpu m₀ r)
    (hraw : r.kernel.resolve o.cpu (Syscalls.envWord env) true = .ok t) (hne : t ≠ o.slot) :
    o.Succeeds (Program.syscalls.envSetStatus env .runnable) r fun _ r' =>
      o.Going policy ncpu m₀ r' ∧ r'.kernel.mapping = r.kernel.mapping ∧
        (r'.kernel.env t).status = .runnable ∧
        (r'.kernel.env t).lastId = (r.kernel.env t).lastId ∧
        (r'.kernel.env t).frame = (r.kernel.env t).frame ∧
        (∀ u, (r.kernel.env u).status ≠ .free →
          (r'.kernel.env u).upcall = (r.kernel.env u).upcall) ∧ r'.forks = r.forks := by
  refine Succeeds.ask fun hsup => ?_
  have hst : settable? Status.runnable.number = some .runnable := by decide
  obtain ⟨completion, k', hp, hk⟩ := h.performs hsup (short_of_envSetStatus
    ((resolve_save r.kernel o.slot _ _).trans hraw) hst)
  have hupcall := fun u => h.reached.sound.upcall_of_performs (u := u) h.runs.1 hp rfl nofun
  have hname := lastId_of_performs (u := t) hp
  have hremaps := h.remaps hm ha ht rfl hp hk
  rw [← hk] at hupcall hname
  obtain _ | _ | _ | _ | ⟨hst', ht', hstatus, hframe, hmaps, hanswers⟩ := hremaps
  cases hraw.symm.trans ht'
  cases hst.symm.trans hst'
  have hrunning := (hanswers.same o.slot hne.symm).status.trans h.runs.2.2
  exact ⟨hanswers.eax, h.enter hrunning, hmaps, hstatus, hname, hframe hne, hupcall, forks_enter nofun⟩

end Calls

/-! ## A child that is made -/

/-- **The program has a child that waits.** The child has the registers of the call that made it, and
the program has its fault handler. -/
structure Raising (o : Alone M) (policy : Policy) (ncpu : Nat) (m₀ : M) (entry : Nat) (id : EnvId)
    (tf : TrapFrame) (r : Course M) : Prop extends o.Going policy ncpu m₀ r where
  raises : r.kernel.Raises o.slot id
  frame : (r.kernel.env id.slot).frame = { tf with eax := 0 }
  upcall : (r.kernel.env o.slot).upcall = entry % 2 ^ 32
  forks : r.forks = [tf]

namespace Raising

variable {entry : Nat} {id : EnvId} {tf : TrapFrame}

theorem ne (h : o.Raising policy ncpu m₀ entry id tf r) : id.slot ≠ o.slot := by
  intro heq
  have hwaits := h.raises.waits
  rw [heq, h.runs.2.2] at hwaits
  cases hwaits

theorem resolve (h : o.Raising policy ncpu m₀ entry id tf r) :
    r.kernel.resolve o.cpu (Syscalls.envWord (some id)) true = .ok id.slot :=
  h.raises.resolve h.reached h.runs.2.1 h.there

/-- A call that changes nobody keeps the child. -/
theorem served (h : o.Raising policy ncpu m₀ entry id tf r) (hs : o.Served policy ncpu m₀ r r')
    (hupcall : (r'.kernel.env o.slot).upcall = (r.kernel.env o.slot).upcall) :
    o.Raising policy ncpu m₀ entry id tf r' where
  toGoing := hs.toGoing
  raises := h.raises.congr (hs.same o.slot).lastId (hs.same id.slot)
  frame := (hs.answers.frame id.slot h.ne not_false).trans h.frame
  upcall := hupcall.trans h.upcall
  forks := hs.forks.trans h.forks

end Raising

/-- **The view of the page tables is right**: where it shows none, no page is mapped. -/
def Sees (o : Alone M) (k : State M) : Prop :=
  ∀ va, o.covered k va = false →
    ∀ v, v / Layout.tableSpan = va / Layout.tableSpan → k.mapping o.slot v = none

/-- **What a fork leaves** of a program with the mappings `x₀`: a child that can run, with the fault
handler and the pages of its parent. -/
structure Forked (o : Alone M) (x₀ : Mappings) (entry : Nat) (id : EnvId) (r : Course M) : Prop where
  name : (r.kernel.env id.slot).id = some id
  status : (r.kernel.env id.slot).status = .runnable
  /-- It has the registers of the only call for a child, and finds 0. -/
  registers : ∃ tf, r.forks = [tf] ∧ (r.kernel.env id.slot).frame = { tf with eax := 0 }
  parent_upcall : (r.kernel.env o.slot).upcall = entry % 2 ^ 32
  upcall : (r.kernel.env id.slot).upcall = entry % 2 ^ 32
  pages : Mappings.Inherited x₀ r.kernel.mapping o.slot id.slot

section Making

variable [MemoryView M] [PageView M] [LawfulMemory M] [LawfulPages M] [FiniteMap M] [FreshPages M]
  (hm : Valid m₀) (ha : Accounted m₀) (ht : Tidy m₀) {entry : Nat} {id : EnvId} {tf : TrapFrame}
include hm ha ht

/-- **A child is made** in a free slot, with the pages of the program still all its own. -/
theorem Going.exofork (h : o.Going policy ncpu m₀ r) (hslot : (r.kernel.runQueue o.cpu).contains t)
    (hfree : (r.kernel.env t).status = .free)
    (hupcall : (r.kernel.env o.slot).upcall = entry % 2 ^ 32) (hforks : r.forks = []) :
    o.Succeeds Program.syscalls.exofork r fun child r' => ∃ id tf,
      child = some id ∧ (r.kernel.env id.slot).status = .free ∧
        o.Raising policy ncpu m₀ entry id tf r' ∧ r'.kernel.mapping = r.kernel.mapping := by
  obtain ⟨hcpu, hcur, -⟩ := h.runs
  obtain ⟨head, hhead⟩ := h.reached.sound.exists_head hcpu hslot hfree
  refine (Succeeds.perform (Q := fun v r' => ∃ id tf, EnvId.ofRaw? v = some id ∧
    (r.kernel.env id.slot).status = .free ∧ o.Raising policy ncpu m₀ entry id tf r' ∧
      r'.kernel.mapping = r.kernel.mapping) fun hsup => ?_).bind fun v r' hQ => .pure hQ
  obtain ⟨completion, k', hp, hk⟩ := h.performs hsup
    (short_of_exofork (k := r.kernel.save o.slot _) hcur hhead)
  have hframe := fun u => h.reached.sound.frame_of_performs (u := u) hcpu hcur hp
  have hkept := h.reached.sound.upcall_of_performs hcpu hp rfl nofun h.there
  have hremaps := h.remaps hm ha ht rfl hp hk
  rw [← hk] at hframe hkept
  obtain _ | _ | _ | @⟨_, id, hbefore, hlt, hmaps, hanswers, hwaits, hname, hparent, -⟩ := hremaps
  have hne : o.slot ≠ id.slot := by
    rintro heq
    exact h.there (heq ▸ hbefore)
  have hself := hanswers.same o.slot hne
  refine ⟨id.raw, by rw [hanswers.eax]; exact decodeResult_of_lt hlt, id, _, id.ofRaw?_raw, hbefore,
    { toGoing := h.enter (hself.status.trans h.runs.2.2)
      raises := ⟨hwaits, (Env.id_eq_some_iff.1 hname).2, ?_⟩
      frame := hframe id.slot hbefore (by rw [hwaits]; exact nofun)
      upcall := hkept.trans hupcall
      forks := by rw [forks_exofork, hforks] }, hmaps⟩
  rw [hparent, Env.id_of_not_free h.there, hself.lastId]

/-- **The program gets ready**: it has an exception stack and its fault handler. -/
theorem Going.prepare (h : o.Going policy ncpu m₀ r) (entry : Nat) :
    o.Succeeds (User.prepare Program.syscalls Program.space entry) r fun _ r' =>
      o.Served policy ncpu m₀ r r' ∧ (r'.kernel.env o.slot).upcall = entry % 2 ^ 32 ∧
        (∀ u v e, r.kernel.mapping u v = some e → r'.kernel.mapping u v = some e) ∧
        ∀ v, v < Layout.stackTop → r'.kernel.mapping o.slot v = r.kernel.mapping o.slot v := by
  have hset {r : Course M} (h : o.Going policy ncpu m₀ r) :
      o.Succeeds (Program.syscalls.envSetUpcall none entry) r fun _ r' =>
        o.Served policy ncpu m₀ r r' ∧ (r'.kernel.env o.slot).upcall = entry % 2 ^ 32 ∧
          r'.kernel.mapping = r.kernel.mapping :=
    (h.envSetUpcall hm ha ht entry h.resolve_self).imp fun _ _ ⟨hserved, hmaps, hupcall⟩ =>
      ⟨hserved, (hupcall o.slot).trans (if_pos rfl), hmaps⟩
  refine Succeeds.look ?_
  cases hstack : r.kernel.mapping o.slot Layout.exceptionStack with
  | some e =>
    refine (hset h).imp fun _ _ ⟨hserved, hupcall, hmaps⟩ => ?_
    exact ⟨hserved, hupcall, fun u v e he => hmaps ▸ he, fun v _ => by rw [hmaps]⟩
  | none =>
    refine (h.pageAlloc hm ha ht h.resolve_self (by decide) (by decide)).bind fun _ r₁ hstep => ?_
    obtain ⟨hserved₁, -, page, -, hmaps₁⟩ := hstep
    refine (hset hserved₁.toGoing).imp fun _ _ ⟨hserved, hupcall, hmaps⟩ => ?_
    rw [hmaps, hmaps₁]
    refine ⟨hserved₁.trans hserved, hupcall, fun u v e he => ?_, fun v hv => ?_⟩
    · refine (if_neg ?_).trans he
      rintro ⟨rfl, rfl⟩
      cases hstack.symm.trans he
    · refine if_neg ?_
      rintro ⟨-, rfl⟩
      exact absurd hv (by decide)

/-! ## The walk through the pages -/

open Program User in
/-- **A page is shared**, and kept from being written where it could be. -/
theorem Raising.sharePage (h : o.Raising policy ncpu m₀ entry id tf r)
    (hva : va % Layout.pageSize = 0) (hlt : va < Layout.userTop) {e : PhysPage × Perm}
    (he : r.kernel.mapping o.slot va = some e) :
    o.Succeeds (sharePage syscalls id va e.2) r fun _ r' =>
      o.Raising policy ncpu m₀ entry id tf r' ∧
        r'.kernel.mapping = (r.kernel.mapping.put id.slot va (some (Mappings.lent e))).put o.slot va
          (some (Mappings.kept e)) := by
  refine (h.pageMap hm ha ht h.resolve hva hlt he).bind fun _ r₁ hstep => ?_
  obtain ⟨hserved₁, hupcall₁, hmaps₁⟩ := hstep
  have h₁ := h.served hserved₁ (hupcall₁ _ h.there)
  have he₁ : r₁.kernel.mapping o.slot va = some e := by
    rw [hmaps₁, Mappings.put, if_neg fun heq => h.ne heq.1.symm, he]
  change o.Succeeds (if (sharedPerm e.2).contains Perm.copyOnWrite = true then
    syscalls.pageMap none va none va (sharedPerm e.2) else pure ()) r₁ _
  rw [contains_copyOnWrite_sharedPerm]
  unfold Mappings.kept
  split
  · refine (h₁.pageMap hm ha ht h₁.resolve_self hva hlt he₁).imp fun _ r₂ hstep => ?_
    obtain ⟨hserved₂, hupcall₂, hmaps₂⟩ := hstep
    exact ⟨h₁.served hserved₂ (hupcall₂ _ h₁.there), hmaps₁ ▸ hmaps₂⟩
  · refine .pure ⟨h₁, ?_⟩
    rw [← Mappings.put_self he₁]
    exact hmaps₁ ▸ rfl

open Program User in
/-- **The walk gives the child every page.** -/
theorem Raising.shareFrom {x₀ : Mappings}
    (hview : ∀ k, Reached policy ncpu m₀ k → k.Runs ncpu o.cpu o.slot → o.Sees k)
    (haligned : ∀ v, v < Layout.stackTop → v % Layout.pageSize ≠ 0 → x₀ o.slot v = none) (va : Nat)
    (h : o.Raising policy ncpu m₀ entry id tf r) (hva : va % Layout.pageSize = 0)
    (hcopied : Mappings.Copied x₀ r.kernel.mapping o.slot id.slot (min va Layout.stackTop)) :
    o.Succeeds (shareFrom syscalls space id va) r fun _ r' =>
      o.Raising policy ncpu m₀ entry id tf r' ∧
        Mappings.Copied x₀ r'.kernel.mapping o.slot id.slot Layout.stackTop := by
  induction va using shareFrom.induct generalizing r with
  | case1 va hlt ihpage ihtable =>
    rw [Nat.min_eq_left hlt.le] at hcopied
    have hbare : ∀ v, va ≤ v → r.kernel.mapping o.slot v = x₀ o.slot v := fun v hv =>
      (hcopied.parent v).trans (if_neg (Nat.not_lt.2 hv))
    rw [User.shareFrom, dif_pos hlt]
    refine Succeeds.lookTable ?_
    split
    · refine Succeeds.look ?_
      have hnext : va + 1 ≤ min (va + Layout.pageSize) Layout.stackTop :=
        Nat.le_min.2 ⟨Nat.add_le_add_left (by decide) va, hlt⟩
      -- no page is mapped in between
      have hbetween : ∀ v, va + 1 ≤ v → v < min (va + Layout.pageSize) Layout.stackTop →
          x₀ o.slot v = none := fun v hv hv' =>
        haligned v (by omega) (by simp only [Layout.pageSize] at hva hv' ⊢; omega)
      cases he : r.kernel.mapping o.slot va with
      | none =>
        refine ihpage h (Sharing.add_pageSize_mod hva) (hcopied.skip (by omega) fun v hv hv' => ?_)
        rcases hv.eq_or_lt with rfl | hlt
        · exact (hbare va le_rfl).symm.trans he
        · exact hbetween v hlt hv'
      | some e =>
        refine (h.sharePage hm ha ht hva (hlt.trans (by decide)) he).bind fun _ r₁ hstep => ?_
        obtain ⟨h₁, hmaps₁⟩ := hstep
        have he₀ : x₀ o.slot va = some e := (hbare va le_rfl).symm.trans he
        refine ihpage h₁ (Sharing.add_pageSize_mod hva) (Mappings.Copied.skip ?_ hnext hbetween)
        have hsnoc := hcopied.snoc h.ne
        rw [he₀] at hsnoc
        exact hmaps₁ ▸ hsnoc
    · next hnone =>
      refine ihtable h (Sharing.nextTable_mod va) (hcopied.skip ?_ fun v hv hv' => ?_)
      · exact Nat.le_min.2 ⟨(lt_nextTable va).le, hlt.le⟩
      · rw [← hbare v hv]
        refine hview _ h.reached h.runs va (Bool.eq_false_iff.2 hnone) v ?_
        simp only [User.nextTable, Layout.tableSpan, Layout.pageSize] at hv' ⊢
        omega
  | case2 va hge =>
    rw [Nat.min_eq_right (Nat.not_lt.1 hge)] at hcopied
    rw [User.shareFrom, dif_neg hge]
    exact .pure ⟨h, hcopied⟩

open Program User in
/-- **The child is completed**, and can run. -/
theorem Raising.populate {x₀ : Mappings}
    (hview : ∀ k, Reached policy ncpu m₀ k → k.Runs ncpu o.cpu o.slot → o.Sees k)
    (haligned : ∀ v, v < Layout.stackTop → v % Layout.pageSize ≠ 0 → x₀ o.slot v = none)
    (h : o.Raising policy ncpu m₀ entry id tf r)
    (hcopied : Mappings.Copied x₀ r.kernel.mapping o.slot id.slot 0) :
    o.Succeeds (populate syscalls space id entry) r fun _ r' => o.Forked x₀ entry id r' := by
  refine (h.shareFrom hm ha ht hview haligned 0 rfl hcopied).bind fun _ r₁ hstep => ?_
  obtain ⟨h₁, hcopied₁⟩ := hstep
  refine (h₁.pageAlloc hm ha ht h₁.resolve (by decide) (by decide)).bind fun _ r₂ hstep => ?_
  obtain ⟨hserved₂, hupcall₂, page, hnew, hmaps₂⟩ := hstep
  have h₂ := h₁.served hserved₂ (hupcall₂ _ h₁.there)
  refine (h₂.envSetUpcall hm ha ht entry h₂.resolve).bind fun _ r₃ hstep => ?_
  obtain ⟨hserved₃, hmaps₃, hupcall₃⟩ := hstep
  have h₃ := h₂.served hserved₃ ((hupcall₃ _).trans (if_neg h₂.ne.symm))
  refine (h₃.envSetStatus hm ha ht h₃.resolve h₃.ne).imp fun _ r₄ hstep => ?_
  obtain ⟨-, hmaps₄, hstatus, hname, hframe, hupcall₄, hforks⟩ := hstep
  have hwaits : (r₃.kernel.env id.slot).status ≠ .free := by
    rw [h₃.raises.waits]
    exact nofun
  refine {
    name := Env.id_eq_some_iff.2 ⟨by rw [hstatus]; exact nofun, hname.trans h₃.raises.name⟩
    status := hstatus
    registers := ⟨tf, hforks.trans h₃.forks, hframe.trans h₃.frame⟩
    parent_upcall := (hupcall₄ _ h₃.there).trans h₃.upcall
    upcall := (hupcall₄ _ hwaits).trans ((hupcall₃ _).trans (if_pos rfl))
    pages := ?_ }
  rw [hmaps₄, hmaps₃, hmaps₂]
  exact hcopied₁.inherited h₁.ne hnew

open Program User in
/-- **A fork gives the child every page of the program**, where pages are mapped at addresses of
pages, the program sees its page tables as they are, a slot is free and memory suffices. -/
theorem fork_shares_every_page {k : State M} (hreached : Reached policy ncpu m₀ k)
    (hruns : k.Runs ncpu o.cpu o.slot)
    (hview : ∀ k, Reached policy ncpu m₀ k → k.Runs ncpu o.cpu o.slot → o.Sees k)
    (haligned : ∀ v, v < Layout.stackTop → v % Layout.pageSize ≠ 0 → k.mapping o.slot v = none)
    (hslot : (k.runQueue o.cpu).contains t) (hfree : (k.env t).status = .free) (entry : Nat) :
    o.Succeeds (fork syscalls space entry) { kernel := k } fun child r =>
      ∃ id, child = some id ∧ (k.env id.slot).status = .free ∧
        o.Forked k.mapping entry id r := by
  have hgoing : o.Going policy ncpu m₀ { kernel := k } := ⟨hreached, hruns⟩
  refine (hgoing.prepare hm ha ht entry).bind fun _ r₁ hstep => ?_
  obtain ⟨hserved, hupcall, hkept, hbelow⟩ := hstep
  have hslot₁ : (r₁.kernel.runQueue o.cpu).contains t :=
    (hreached.sound.contains_congr hserved.reached.sound hruns.1).1 hslot
  have hfree₁ : (r₁.kernel.env t).status = .free := (hserved.same t).status.trans hfree
  refine (hserved.toGoing.exofork hm ha ht hslot₁ hfree₁ hupcall hserved.forks).bind
    fun child r₂ hstep => ?_
  obtain ⟨id, tf, rfl, hgone, h₂, hmaps₂⟩ := hstep
  have hcopied : Mappings.Copied r₁.kernel.mapping r₂.kernel.mapping o.slot id.slot 0 := by
    rw [hmaps₂]
    exact .start _ _ _ fun v => mapping_of_free hgone
  have haligned₁ : ∀ v, v < Layout.stackTop → v % Layout.pageSize ≠ 0 →
      r₁.kernel.mapping o.slot v = none := fun v hv hva => (hbelow v hv).trans (haligned v hv hva)
  refine (h₂.populate hm ha ht hview haligned₁ hcopied).attempt fun _ r₃ hforked => ?_
  refine .pure ⟨id, rfl, (hserved.same id.slot).status.symm.trans hgone, ?_⟩
  exact { hforked with pages := hforked.pages.congr hbelow hkept }

end Making

/-! ## Programs on counted page frames -/

/-- A program that sees the page tables of its slot. -/
def onFrames (cpu : Nat) (slot : Slot) (registers : Nat → TrapFrame) : Alone Frames where
  cpu := cpu
  slot := slot
  registers := registers
  covered k va := k.memory.tablePresent (k.env slot).pgdir va

/-- It sees them as they are. -/
theorem sees_onFrames (cpu : Nat) (s : Slot) (registers : Nat → TrapFrame) (k : State Frames) :
    (onFrames cpu s registers).Sees k :=
  fun _ hnone v hv => World.mapping_of_tablePresent hnone v hv

/-- A program that has a stack shares it with its child. -/
theorem fork_shares_the_stack :
    ∃ (o : Alone Frames) (k : State Frames) (t : Slot) (id : EnvId) (r : Course Frames),
      Valid ({} : Frames) ∧ Accounted ({} : Frames) ∧ Tidy ({} : Frames) ∧
      Reached .perCpu 1 ({} : Frames) k ∧ k.Runs 1 o.cpu o.slot ∧
      (∀ k, Reached .perCpu 1 ({} : Frames) k → k.Runs 1 o.cpu o.slot → o.Sees k) ∧
      (∀ v, v < Layout.stackTop → v % Layout.pageSize ≠ 0 → k.mapping o.slot v = none) ∧
      (k.runQueue o.cpu).contains t = true ∧ (k.env t).status = .free ∧
      o.exec (User.fork Program.syscalls Program.space 0x800000).run { kernel := k } =
        (.ok (some id), r) ∧
      r.Supplied ∧ k.mapping o.slot 0xeebfd000 = some (⟨0x2000⟩, Perm.userWrite) ∧
      o.Forked k.mapping 0x800000 id r := by
  have hm : Valid ({} : Frames) := ⟨.nil, nofun⟩
  have ha : Accounted ({} : Frames) := ⟨nofun, nofun⟩
  have ht : Tidy ({} : Frames) := fun _ _ _ => rfl
  let o : Alone Frames := onFrames 0 0 fun _ => TrapFrame.user
  have hview : ∀ k, Reached .perCpu 1 ({} : Frames) k → k.Runs 1 o.cpu o.slot → o.Sees k :=
    fun k _ _ => sees_onFrames 0 0 _ k
  obtain ⟨k, hk, hseen⟩ := exists_of_map_toOption
    (f := fun k => (k.memory.mappings.entries.map (·.1.2), k.mapping 0 0xeebfd000, k.current 0,
      (k.env 0).status, (k.runQueue 0).contains 1 && (k.env 1).status == .free &&
        (o.exec (User.fork Program.syscalls Program.space 0x800000).run
          { kernel := k }).2.refusals.isEmpty))
    (b := ([0xeebfd000], some (⟨0x2000⟩, Perm.userWrite), some 0, .running, true))
    (x := State.ran .perCpu 1 ({} : Frames) [.create [0x7f] 0, .schedule 0]) (by decide +kernel)
  simp only [Prod.mk.injEq, Bool.and_eq_true, List.isEmpty_iff, beq_iff_eq] at hseen
  obtain ⟨haddresses, hstack, hcur, hrunning, ⟨hslot, hfree⟩, hrefusals⟩ := hseen
  have hreached := reached_of_ran hk
  have hruns : k.Runs 1 o.cpu o.slot := ⟨by decide, hcur, hrunning⟩
  have haligned : ∀ v, v < Layout.stackTop → v % Layout.pageSize ≠ 0 →
      k.mapping o.slot v = none := by
    intro v _ hv
    by_contra hsome
    obtain ⟨e, he⟩ := Option.ne_none_iff_exists'.1 hsome
    have hmem := List.mem_map_of_mem (f := (·.1.2))
      (Assoc.mem_entries_of_get? ((mapping_eq_lookup hruns.there).symm.trans he))
    rw [haddresses, List.mem_singleton] at hmem
    change v = 0xeebfd000 at hmem
    exact hv (hmem ▸ rfl)
  have hsup : (o.exec (User.fork Program.syscalls Program.space 0x800000).run
      { kernel := k }).2.Supplied := by
    intro short hmem
    rw [hrefusals] at hmem
    cases hmem
  obtain ⟨_, hresult, id, rfl, -, hforked⟩ := fork_shares_every_page hm ha ht hreached hruns hview
    haligned hslot hfree 0x800000 hsup
  exact ⟨o, k, 1, id, _, hm, ha, ht, hreached, hruns, hview, haligned, hslot, hfree,
    Prod.ext hresult rfl, hsup, hstack, hforked⟩

end Alone

end Exokernel
