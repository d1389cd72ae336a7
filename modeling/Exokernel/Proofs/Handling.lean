import Exokernel.Proofs.Exchanges
import Exokernel.Proofs.Fairness
import Exokernel.Proofs.Mailboxes
import Exokernel.Proofs.Plays
import Exokernel.Proofs.Turning
/-!
# A fault is handled as a whole, or not at all

A fault handler copies a page in three calls, by way of the scratch address. The kernel serves them,
or they fail without any effect (`Host.Serves`), and which of them is refused decides what is left
(`Handled`). Either the copy has taken the place of the page, or every mapping is what it was,
unless it is the mapping or the unmapping of the copy that is refused: then the copy stays at the
scratch address.
-/

namespace Exokernel

open MemoryView PageView Memory User

/-- The kernel, and what is in the pages. -/
structure Host (M : Type) where
  kernel : State M
  bytes : Contents

/-- The calls by which an environment maps and unmaps pages. -/
def Call.onPages : Call → Bool
  | .pageAlloc | .pageMap | .pageUnmap => true
  | _ => false

namespace Mappings

variable {maps : Mappings} {t : Slot} {va : Nat} {page : PhysPage} {e : Option (PhysPage × Perm)}

/-- The page is mapped somewhere. -/
def Uses (maps : Mappings) (page : PhysPage) : Prop := ∃ t va p, maps t va = some (page, p)

@[simp] theorem put_at (maps : Mappings) (t : Slot) (va : Nat) (e : Option (PhysPage × Perm)) :
    maps.put t va e t va = e := if_pos ⟨rfl, rfl⟩

theorem put_ne (maps : Mappings) {va va' : Nat} (h : va' ≠ va) (t : Slot)
    (e : Option (PhysPage × Perm)) : maps.put t va e t va' = maps t va' := if_neg fun heq => h heq.2

/-- What is mapped where nothing was leaves the pages in use. -/
theorem Uses.put (h : maps.Uses page) (hnone : maps t va = none) : (maps.put t va e).Uses page := by
  obtain ⟨u, v, p, hp⟩ := h
  refine ⟨u, v, p, ?_⟩
  rw [Mappings.put, if_neg]
  · exact hp
  · rintro ⟨rfl, rfl⟩
    cases hnone.symm.trans hp

/-- What is unmapped puts no page to use. -/
theorem Uses.of_put_none (h : (maps.put t va none).Uses page) : maps.Uses page := by
  obtain ⟨u, v, p, hp⟩ := h
  unfold Mappings.put at hp
  split at hp
  · cases hp
  · exact ⟨u, v, p, hp⟩

/-- What is mapped at two addresses, and unmapped where nothing was, stays at the other. -/
theorem put_put_none {va' : Nat} (hne : va' ≠ va) (hnone : maps t va = none) :
    ((maps.put t va e).put t va' e).put t va none = maps.put t va' e := by
  funext u v
  unfold Mappings.put
  by_cases hu : u = t ∧ v = va
  · obtain ⟨rfl, rfl⟩ := hu
    rw [if_pos ⟨rfl, rfl⟩, if_neg fun heq => hne heq.2.symm, hnone]
  · rw [if_neg hu, if_neg hu]

end Mappings

namespace Host

variable {M : Type} [Memory M]

/-- Pages that are in use before and afterwards keep their bytes. -/
def Spares (h h' : Host M) : Prop :=
  ∀ page, h.kernel.mapping.Uses page → h'.kernel.mapping.Uses page → h'.bytes page = h.bytes page

theorem Spares.refl (h : Host M) : h.Spares h := fun _ _ _ => rfl

/-- A page that is in use at both ends is in use in between. -/
theorem Spares.trans {h h' h'' : Host M} (hfirst : h.Spares h') (hsecond : h'.Spares h'')
    (huses : ∀ page, h.kernel.mapping.Uses page → h''.kernel.mapping.Uses page →
      h'.kernel.mapping.Uses page) : h.Spares h'' := fun page hpage hpage'' =>
  have hpage' := huses page hpage hpage''
  (hsecond page hpage' hpage'').trans (hfirst page hpage hpage')

/-- **A call ends**: the kernel answers it, or it fails and nothing has happened. -/
inductive Serves (cpu : Nat) (s : Slot) (c : Call) (a : Args) (h : Host M) : UInt32 → Host M → Prop
  | failed {w : UInt32} {e : CallError} : decodeResult w = .error e → Serves cpu s c a h w h
  | answered {tf : TrapFrame} {h' : Host M} : tf.eax = c.number → tf.args = a →
      h'.kernel = (h.kernel.syscall cpu tf).2 → h.Spares h' →
      Serves cpu s c a h (h'.kernel.env s).frame.eax h'

/-- **What a call on pages leaves**: it was refused and all mappings stay, or it was performed. -/
inductive Left (cpu : Nat) (s : Slot) (c : Call) (a : Args) (h : Host M) (w : UInt32) (h' : Host M) :
    Prop
  | refused {e : CallError} : decodeResult w = .error e → h'.kernel.mapping = h.kernel.mapping →
      Left cpu s c a h w h'
  | performed : w = 0 → State.Remaps h.kernel cpu s a c h'.kernel → Left cpu s c a h w h'

section Laws

variable [MemoryView M] [PageView M]

/-- The environment runs, in a state that came about on a memory in good order. -/
structure Going (policy : Policy) (ncpu : Nat) (m₀ : M) (cpu : Nat) (s : Slot) (h : Host M) :
    Prop where
  valid : Valid m₀
  accounted : Accounted m₀
  tidy : Tidy m₀
  reached : State.Reached policy ncpu m₀ h.kernel
  runs : h.kernel.Runs ncpu cpu s

variable {policy : Policy} {ncpu cpu : Nat} {m₀ : M} {s : Slot} {c : Call} {a : Args} {w : UInt32}
  {h h' : Host M}

/-- Whoever keeps its state across a call keeps its CPU. -/
theorem Going.answered (hgoing : h.Going policy ncpu m₀ cpu s) {tf : TrapFrame}
    (hanswers : State.Answers h.kernel (h.kernel.syscall cpu tf).2 s w fun _ => False)
    (hk : h'.kernel = (h.kernel.syscall cpu tf).2) : h'.Going policy ncpu m₀ cpu s := by
  obtain ⟨hcpu, hcur, hrunning⟩ := hgoing.runs
  have hstatus : ((h.kernel.syscall cpu tf).2.env s).status = .running :=
    (hanswers.same s id).status.trans hrunning
  have hcurrent : (h.kernel.syscall cpu tf).2.current cpu = some s := by
    rcases hgoing.reached.sound.current_syscall_cases hcpu cpu tf with hkept | ⟨-, t, ht, hfree⟩
    · exact hkept.trans hcur
    · obtain rfl : s = t := Option.some.inj (hcur.symm.trans ht)
      cases hstatus.symm.trans hfree
  have hreached := hgoing.reached.step (a := .syscall cpu tf) hcpu rfl
  rw [← hk] at hstatus hcurrent hreached
  exact ⟨hgoing.valid, hgoing.accounted, hgoing.tidy, hreached, hcpu, hcurrent, hstatus⟩

variable [LawfulMemory M] [LawfulPages M] [FiniteMap M] [FreshPages M]

/-- **A call on pages that ends** leaves its caller running, and spares what is in the pages. -/
theorem Serves.leaves (hserves : h.Serves cpu s c a w h') (hc : c.onPages = true)
    (hgoing : h.Going policy ncpu m₀ cpu s) :
    h'.Going policy ncpu m₀ cpu s ∧ h.Spares h' ∧ h.Left cpu s c a w h' := by
  cases hserves with
  | failed hw => exact ⟨hgoing, .refl h, .refused hw rfl⟩
  | @answered tf _ hnumber hargs hk hspares =>
    obtain ⟨hcpu, hcur, -⟩ := hgoing.runs
    have hcopies : c.copies = true := by
      cases c <;> first | rfl | cases hc
    rcases hgoing.reached.remaps hgoing.valid hgoing.accounted hgoing.tidy hcpu hcur hcopies hnumber
      with ⟨e, _, -, hmaps, hanswers⟩ | hremaps
    · refine ⟨hgoing.answered hanswers hk, hspares, .refused (e := e.toCallError) ?_ (hk ▸ hmaps)⟩
      rw [hk, hanswers.eax, decodeResult_encodeResult_toCallError]
    · have hanswers := hremaps.answers (by rintro rfl; cases hc) (by rintro rfl; cases hc)
      refine ⟨hgoing.answered hanswers hk, hspares, .performed ?_ (hk ▸ hargs ▸ hremaps)⟩
      rw [hk, hanswers.eax]

end Laws

end Host

/-! ## The three calls -/

/-- A page is asked for at the scratch address. -/
def supplying : Args :=
  { second := Syscalls.addressWord Layout.scratchPage, third := Perm.userWrite.bits }

/-- The page at the scratch address is mapped at another one. -/
def moving (va : Nat) : Args :=
  { second := Syscalls.addressWord Layout.scratchPage, fourth := Syscalls.addressWord va,
    fifth := Perm.userWrite.bits }

/-- The scratch address is unmapped. -/
def clearing : Args := { second := Syscalls.addressWord Layout.scratchPage }

/-- A page is mapped at the scratch address, for reading and writing. -/
def Mappings.supply (maps : Mappings) (s : Slot) (new : PhysPage) : Mappings :=
  maps.put s Layout.scratchPage (some (new, Perm.userWrite))

/-- A page takes a place, for reading and writing. -/
def Mappings.place (maps : Mappings) (s : Slot) (va : Nat) (new : PhysPage) : Mappings :=
  maps.put s va (some (new, Perm.userWrite))

namespace State

variable {M : Type} [Memory M] {k k' : State M} {cpu : Nat} {s : Slot}

/-- **A page that was not in use** is mapped at the scratch address. -/
theorem Remaps.supplying (h : Remaps k cpu s supplying .pageAlloc k')
    (hcur : k.current cpu = some s) :
    ∃ new, ¬ k.mapping.Uses new ∧ k'.mapping = k.mapping.supply s new := by
  cases h with
  | @supplied _ t perm new hs hperm hfresh hmaps _ =>
    obtain rfl : s = t := Except.ok.inj ((resolve_zero hcur true).symm.trans hs)
    obtain rfl : Perm.userWrite = perm := Option.some.inj (ofUser?_userWrite.symm.trans hperm)
    exact ⟨new, fun ⟨t, va, p, hp⟩ => hfresh t va p hp, hmaps⟩

/-- **The page at the scratch address** takes a place at an address of the machine. -/
theorem Remaps.moving {va : Nat} {new : PhysPage} {p : Perm}
    (h : Remaps k cpu s (moving va) .pageMap k') (hcur : k.current cpu = some s) (hva : va < 2 ^ 32)
    (hnew : k.mapping s Layout.scratchPage = some (new, p)) :
    k'.mapping = k.mapping.place s va new := by
  cases h with
  | @shared _ src dst perm mapped page hsrc hdst hperm hpage hmaps _ =>
    obtain rfl : s = src := Except.ok.inj ((resolve_zero hcur true).symm.trans hsrc)
    obtain rfl : s = dst := Except.ok.inj ((resolve_zero hcur true).symm.trans hdst)
    obtain rfl : Perm.userWrite = perm := Option.some.inj (ofUser?_userWrite.symm.trans hperm)
    cases hnew.symm.trans hpage
    have hword : (Syscalls.addressWord va).toNat = va := UInt32.toNat_ofNat_of_lt' hva
    rw [hmaps]
    exact congrArg (k.mapping.put s · _) hword

/-- **The scratch address is unmapped.** -/
theorem Remaps.clearing (h : Remaps k cpu s clearing .pageUnmap k')
    (hcur : k.current cpu = some s) : k'.mapping = k.mapping.put s Layout.scratchPage none := by
  cases h with
  | @removed _ t ht hmaps _ =>
    obtain rfl : s = t := Except.ok.inj ((resolve_zero hcur true).symm.trans ht)
    exact hmaps

end State

/-! ## The handler -/

section Handler

variable {σ M : Type} [Memory M]

/-- **A program on a host**: its calls on pages are served or fail, it sees the permissions of its own
pages, and what it copies is copied. -/
structure Hosts (look : σ → Host M) (cpu : Nat) (s : Slot) (sys : Syscalls (StateM σ))
    (space : AddressSpace (StateM σ)) : Prop where
  call : ∀ c a x, c.onPages = true → (look x).Serves cpu s c a (StateT.run (sys.call c a) x).1
    (look (StateT.run (sys.call c a) x).2)
  pagePerm : ∀ va x,
    (StateT.run (space.pagePerm va) x).1 = ((look x).kernel.mapping s va).map (·.2) ∧
      look (StateT.run (space.pagePerm va) x).2 = look x
  copyPage : ∀ {src dst page page' p p'} x, (look x).kernel.mapping s src = some (page, p) →
    (look x).kernel.mapping s dst = some (page', p') →
    look (StateT.run (space.copyPage src dst) x).2 =
      { look x with bytes := (look x).bytes.copy page page' }

/-- **The page gave way to a copy**: a page that was not in use has taken its place, may be written,
and has its bytes. -/
def Host.Replaced (s : Slot) (va : Nat) (h h' : Host M) : Prop :=
  ∃ old p new, h.kernel.mapping s va = some (old, p) ∧ p.contains Perm.copyOnWrite = true ∧
    ¬ h.kernel.mapping.Uses new ∧ h'.kernel.mapping = h.kernel.mapping.place s va new ∧
    h'.bytes new = h.bytes old

/-- **How the handling of a fault ends**, with the calls that were made and what they leave. -/
inductive Handled (s : Slot) (va : Nat) (h : Host M) :
    List Asked → Except PageFaultError Unit → Host M → Prop
  /-- The fault is none that is handled. -/
  | declined {e : PageFaultError} : Handled s va h [] (.error e) h
  | unsupplied {w : UInt32} {e : CallError} {h' : Host M} : decodeResult w = .error e →
      h'.kernel.mapping = h.kernel.mapping →
      Handled s va h [⟨.pageAlloc, supplying, w⟩] (.error (.call e)) h'
  /-- There is a copy, but it does not get its place. -/
  | unmoved {w : UInt32} {e : CallError} {new : PhysPage} {h' : Host M} :
      decodeResult w = .error e → ¬ h.kernel.mapping.Uses new →
      h'.kernel.mapping = h.kernel.mapping.supply s new →
      Handled s va h [⟨.pageAlloc, supplying, 0⟩, ⟨.pageMap, moving va, w⟩] (.error (.call e)) h'
  /-- The copy has got its place, and stays where it was as well. -/
  | uncleared {w : UInt32} {e : CallError} {new : PhysPage} {h' : Host M} :
      decodeResult w = .error e → ¬ h.kernel.mapping.Uses new →
      h'.kernel.mapping = (h.kernel.mapping.supply s new).place s va new →
      Handled s va h
        [⟨.pageAlloc, supplying, 0⟩, ⟨.pageMap, moving va, 0⟩, ⟨.pageUnmap, clearing, w⟩]
        (.error (.call e)) h'
  | replaced {h' : Host M} : h.Replaced s va h' →
      Handled s va h
        [⟨.pageAlloc, supplying, 0⟩, ⟨.pageMap, moving va, 0⟩, ⟨.pageUnmap, clearing, 0⟩]
        (.ok ()) h'

/-- A call of the handler and its answer. -/
theorem watchesFrom_inHandler (sys : Syscalls (StateM σ)) (c : Call) (a : Args) (x : σ) :
    WatchesFrom x (inHandler (do let _ ← sys.watched.perform c a)).run
      (inHandler (do let _ ← sys.perform c a)).run fun l r x' =>
      ∃ w, l = [.asked ⟨c, a, w⟩] ∧ (w, x') = StateT.run (sys.call c a) x ∧
        (∀ v, decodeResult w = .ok v → r = .ok ()) ∧
          ∀ e, decodeResult w = .error e → r = .error (.call e) := by
  have hask : WatchesFrom x
      (do let _ ← sys.watched.perform c a : ExceptT CallError (Watched σ) Unit).run
      (do let _ ← sys.perform c a : ExceptT CallError (StateM σ) Unit).run fun l r x' =>
      ∃ w, l = [.asked ⟨c, a, w⟩] ∧ (w, x') = StateT.run (sys.call c a) x ∧
        r = (decodeResult w).map fun _ => () := by
    refine (watchesFrom_perform sys c a x).bindE ?_ ?_
    · rintro _ v x' ⟨w, rfl, hw, hrun⟩
      exact .pure ⟨w, rfl, hrun, by rw [← hw]; rfl⟩
    · rintro _ e x' ⟨w, rfl, hw, hrun⟩
      exact ⟨w, rfl, hrun, by rw [← hw]; rfl⟩
  refine (hask.map (Except.mapError PageFaultError.call)).imp ?_
  rintro l r x' ⟨_, rfl, w, hl, hrun, rfl⟩
  refine ⟨w, hl, hrun, fun v hv => ?_, fun e he => ?_⟩
  · rw [hv]
    rfl
  · rw [he]
    rfl

variable {look : σ → Host M} {cpu : Nat} {s : Slot} {sys : Syscalls (StateM σ)}
  {space : AddressSpace (StateM σ)} {x : σ} {c : Call} {a : Args}

/-- What is seen of a page. -/
theorem Hosts.watches_pagePerm (h : Hosts look cpu s sys space) (va : Nat) (x : σ) :
    WatchesFrom x (space.watched.pagePerm va) (space.pagePerm va) fun l m x' =>
      l = [.page va m] ∧ m = ((look x).kernel.mapping s va).map (·.2) ∧ look x' = look x := by
  refine (WatchesFrom.note (space.pagePerm va) fun m => [.page va m]).imp ?_
  rintro l m x' ⟨hl, hrun⟩
  have hrun : (m, x') = StateT.run (space.pagePerm va) x := hrun
  have hseen := h.pagePerm va x
  rw [← hrun] at hseen
  exact ⟨hl, hseen⟩

/-- What is left of a page that is copied to another one. -/
theorem Hosts.watches_copyPage (h : Hosts look cpu s sys space) {src dst : Nat}
    {page page' : PhysPage} {p p' : Perm} (hsrc : (look x).kernel.mapping s src = some (page, p))
    (hdst : (look x).kernel.mapping s dst = some (page', p')) :
    WatchesFrom x (space.watched.copyPage src dst) (space.copyPage src dst) fun l _ x' =>
      l = [.copied src dst] ∧
        look x' = { look x with bytes := (look x).bytes.copy page page' } := by
  refine (WatchesFrom.note (space.copyPage src dst) fun _ => [.copied src dst]).imp ?_
  rintro l u x' ⟨hl, hrun⟩
  have hrun : (u, x') = StateT.run (space.copyPage src dst) x := hrun
  have hcopied := h.copyPage x hsrc hdst
  rw [← hrun] at hcopied
  exact ⟨hl, hcopied⟩

/-- **The copy is made**: the new page has the bytes of the old one, and `maps` says where it is. -/
structure Host.Copied (old new : PhysPage) (maps : Mappings) (h h' : Host M) : Prop where
  fresh : ¬ h.kernel.mapping.Uses new
  maps : h'.kernel.mapping = maps
  copy : h'.bytes new = h.bytes old
  spares : h.Spares h'

section Copy

variable [MemoryView M] [PageView M] [LawfulMemory M] [LawfulPages M] [FiniteMap M] [FreshPages M]
  {policy : Policy} {ncpu : Nat} {m₀ : M} {host : Host M} {old new : PhysPage} {va : Nat} {p : Perm}
  (h : Hosts look cpu s sys space) (hgoing : (look x).Going policy ncpu m₀ cpu s)

include h hgoing

/-- **A call of the handler** on a host. -/
theorem Hosts.watches_call (hc : c.onPages = true) :
    WatchesFrom x (inHandler (do let _ ← sys.watched.perform c a)).run
      (inHandler (do let _ ← sys.perform c a)).run fun l r x' =>
      (look x').Going policy ncpu m₀ cpu s ∧ (look x).Spares (look x') ∧
        ((∃ w e, l = [.asked ⟨c, a, w⟩] ∧ decodeResult w = .error e ∧ r = .error (.call e) ∧
            (look x').kernel.mapping = (look x).kernel.mapping) ∨
          l = [.asked ⟨c, a, 0⟩] ∧ r = .ok () ∧
            State.Remaps (look x).kernel cpu s a c (look x').kernel) := by
  refine (watchesFrom_inHandler sys c a x).imp ?_
  rintro l r x' ⟨w, hl, hrun, hok, herror⟩
  have hserves := h.call c a x hc
  rw [← hrun] at hserves
  obtain ⟨hgoing', hspares, hleft⟩ := hserves.leaves hc hgoing
  refine ⟨hgoing', hspares, ?_⟩
  cases hleft with
  | refused hw hmaps => exact .inl ⟨w, _, hl, hw, herror _ hw, hmaps⟩
  | performed hw hremaps =>
    subst hw
    exact .inr ⟨hl, hok 0 rfl, hremaps⟩

variable (hne : va ≠ Layout.scratchPage)
  (hscratch : host.kernel.mapping s Layout.scratchPage = none)
  (hold : host.kernel.mapping s va = some (old, p)) (hcow : p.contains Perm.copyOnWrite = true)

include hne hscratch hold hcow

/-- **The scratch address is cleared**, and the copy stays in its place. -/
theorem Hosts.watches_clear (hcopied : host.Copied old new
      ((host.kernel.mapping.supply s new).place s va new) (look x)) :
    WatchesFrom x (inHandler (sys.watched.pageUnmap none Layout.scratchPage)).run
      (inHandler (sys.pageUnmap none Layout.scratchPage)).run fun l r x' =>
        Handled s va host
          (⟨.pageAlloc, supplying, 0⟩ :: ⟨.pageMap, moving va, 0⟩ :: calls l) r (look x') ∧
          host.Spares (look x') := by
  refine (h.watches_call (c := .pageUnmap) (a := clearing) hgoing rfl).imp ?_
  rintro l r x' ⟨-, hspares, ⟨w, e, rfl, hw, rfl, hmaps⟩ | ⟨rfl, rfl, hremaps⟩⟩
  · refine ⟨.uncleared hw hcopied.fresh (hmaps.trans hcopied.maps),
      hcopied.spares.trans hspares fun page _ hpage => ?_⟩
    rwa [hmaps] at hpage
  · have hmaps := hremaps.clearing hgoing.runs.2.1
    have hplaced : (look x').kernel.mapping = host.kernel.mapping.place s va new := by
      rw [hmaps, hcopied.maps]
      exact Mappings.put_put_none hne hscratch
    have hbefore : (look x).kernel.mapping.Uses new :=
      ⟨s, va, _, by rw [hcopied.maps]; exact Mappings.put_at _ _ _ _⟩
    have hafter : (look x').kernel.mapping.Uses new :=
      ⟨s, va, _, by rw [hplaced]; exact Mappings.put_at _ _ _ _⟩
    have hbytes : (look x').bytes new = host.bytes old :=
      (hspares new hbefore hafter).trans hcopied.copy
    refine ⟨.replaced ⟨old, p, new, hold, hcow, hcopied.fresh, hplaced, hbytes⟩,
      hcopied.spares.trans hspares fun page _ hpage => ?_⟩
    rw [hmaps] at hpage
    exact hpage.of_put_none

/-- **The copy gets its place.** -/
theorem Hosts.watches_move (hva : va < 2 ^ 32)
    (hcopied : host.Copied old new (host.kernel.mapping.supply s new) (look x)) :
    WatchesFrom x
      (do inHandler (sys.watched.pageMap none Layout.scratchPage none va Perm.userWrite)
          inHandler (sys.watched.pageUnmap none Layout.scratchPage) :
            ExceptT PageFaultError (Watched σ) Unit).run
      (do inHandler (sys.pageMap none Layout.scratchPage none va Perm.userWrite)
          inHandler (sys.pageUnmap none Layout.scratchPage) :
            ExceptT PageFaultError (StateM σ) Unit).run
      fun l r x' => Handled s va host (⟨.pageAlloc, supplying, 0⟩ :: calls l) r (look x') ∧
        host.Spares (look x') := by
  have hnew : (look x).kernel.mapping s Layout.scratchPage = some (new, Perm.userWrite) := by
    rw [hcopied.maps]
    exact Mappings.put_at _ _ _ _
  have huses : ∀ page, host.kernel.mapping.Uses page → (look x).kernel.mapping.Uses page := by
    intro page hpage
    rw [hcopied.maps]
    exact hpage.put hscratch
  refine (h.watches_call (c := .pageMap) (a := moving va) hgoing rfl).bindE ?_ ?_
  · rintro _ _ x' ⟨hgoing', hspares, ⟨_, _, -, -, ⟨⟩, -⟩ | ⟨rfl, -, hremaps⟩⟩
    have hmaps := hremaps.moving hgoing.runs.2.1 hva hnew
    have hplaced : (look x').kernel.mapping s va = some (new, Perm.userWrite) := by
      rw [hmaps]
      exact Mappings.put_at _ _ _ _
    refine h.watches_clear hgoing' hne hscratch hold hcow ⟨hcopied.fresh, ?_, ?_, ?_⟩
    · rw [hmaps, hcopied.maps]
    · exact (hspares new ⟨s, _, _, hnew⟩ ⟨s, _, _, hplaced⟩).trans hcopied.copy
    · exact hcopied.spares.trans hspares fun page hpage _ => huses page hpage
  · rintro _ e x' ⟨-, hspares, ⟨w, _, rfl, hw, ⟨⟩, hmaps⟩ | ⟨-, ⟨⟩, -⟩⟩
    exact ⟨.unmoved hw hcopied.fresh (hmaps.trans hcopied.maps),
      hcopied.spares.trans hspares fun page hpage _ => huses page hpage⟩

end Copy

section Whole

variable [MemoryView M] [PageView M] [LawfulMemory M] [LawfulPages M] [FiniteMap M] [FreshPages M]
  {policy : Policy} {ncpu : Nat} {m₀ : M} (h : Hosts look cpu s sys space)
  (hgoing : (look x).Going policy ncpu m₀ cpu s)
  (hscratch : (look x).kernel.mapping s Layout.scratchPage = none)

include h hgoing hscratch

/-- **A copy is made** and takes the place of the page, as far as the calls are performed. -/
theorem Hosts.watches_giveCopy {va : Nat} (hne : va ≠ Layout.scratchPage) {old : PhysPage} {p : Perm}
    (hold : (look x).kernel.mapping s va = some (old, p))
    (hcow : p.contains Perm.copyOnWrite = true) (hva : va < 2 ^ 32) :
    WatchesFrom x
      (do inHandler (sys.watched.pageAlloc none Layout.scratchPage Perm.userWrite)
          liftM (space.watched.copyPage va Layout.scratchPage)
          inHandler (sys.watched.pageMap none Layout.scratchPage none va Perm.userWrite)
          inHandler (sys.watched.pageUnmap none Layout.scratchPage) :
            ExceptT PageFaultError (Watched σ) Unit).run
      (do inHandler (sys.pageAlloc none Layout.scratchPage Perm.userWrite)
          liftM (space.copyPage va Layout.scratchPage)
          inHandler (sys.pageMap none Layout.scratchPage none va Perm.userWrite)
          inHandler (sys.pageUnmap none Layout.scratchPage) :
            ExceptT PageFaultError (StateM σ) Unit).run
      fun l r x' => Handled s va (look x) (calls l) r (look x') ∧ (look x).Spares (look x') := by
  refine (h.watches_call (c := .pageAlloc) (a := supplying) hgoing rfl).bindE ?_ ?_
  · rintro _ _ x₁ ⟨hgoing₁, hspares, ⟨_, _, -, -, ⟨⟩, -⟩ | ⟨rfl, -, hremaps⟩⟩
    obtain ⟨new, hfresh, hmaps₁⟩ := hremaps.supplying hgoing.runs.2.1
    have hold₁ : (look x₁).kernel.mapping s va = some (old, p) := by
      rw [hmaps₁, ← hold]
      exact Mappings.put_ne _ hne _ _
    have hnew₁ : (look x₁).kernel.mapping s Layout.scratchPage = some (new, Perm.userWrite) := by
      rw [hmaps₁]
      exact Mappings.put_at _ _ _ _
    refine (h.watches_copyPage hold₁ hnew₁).lift.bindE ?_ ?_
    · rintro _ _ x₂ ⟨_, -, rfl, hlook⟩
      have hgoing₂ : (look x₂).Going policy ncpu m₀ cpu s := by
        rw [hlook]
        exact ⟨hgoing₁.valid, hgoing₁.accounted, hgoing₁.tidy, hgoing₁.reached, hgoing₁.runs⟩
      have hcopied : (look x).Copied old new ((look x).kernel.mapping.supply s new) (look x₂) := by
        rw [hlook]
        refine ⟨hfresh, hmaps₁, ?_, fun page hpage hpage₁ => ?_⟩
        · exact (if_pos rfl).trans (hspares old ⟨s, va, p, hold⟩ ⟨s, va, p, hold₁⟩)
        · have hother : page ≠ new := fun heq => hfresh (heq ▸ hpage)
          exact (if_neg hother).trans (hspares page hpage hpage₁)
      exact h.watches_move hgoing₂ hne hscratch hold hcow hva hcopied
    · rintro _ _ _ ⟨_, ⟨⟩, -⟩
  · rintro _ e x' ⟨-, hspares, ⟨w, _, rfl, hw, ⟨⟩, hmaps⟩ | ⟨-, ⟨⟩, -⟩⟩
    exact ⟨.unsupplied hw hmaps, hspares⟩

/-- **The handling of a fault ends** as it can. -/
theorem Hosts.watches_handleCowFault
    (hwords : ∀ va e, (look x).kernel.mapping s va = some e → va < 2 ^ 32) {faultVa : Nat}
    (hne : pageOf faultVa ≠ Layout.scratchPage) (err : UInt32) :
    WatchesFrom x (handleCowFault sys.watched space.watched faultVa err).run
      (handleCowFault sys space faultVa err).run fun l r x' =>
        Handled s (pageOf faultVa) (look x) (calls l) r (look x') ∧
          (look x).Spares (look x') := by
  unfold handleCowFault
  by_cases herr : err &&& faultOnWrite = 0
  · rw [if_pos herr, if_pos herr]
    exact .pure ⟨.declined, .refl _⟩
  · rw [if_neg herr, if_neg herr]
    refine (h.watches_pagePerm (pageOf faultVa) x).lift.bindE ?_ ?_
    · rintro _ m x₁ ⟨_, ⟨⟩, rfl, hseen, hsame⟩
      change WatchesFrom x₁
        (ExceptT.run (if m.any (·.contains Perm.copyOnWrite) = true then _ else _))
        (ExceptT.run (if m.any (·.contains Perm.copyOnWrite) = true then _ else _)) _
      rw [← hsame] at hgoing hscratch hwords hseen ⊢
      split
      · next hcow =>
        obtain ⟨p, hp, hcow⟩ := (Option.any_eq_true _ _).1 hcow
        obtain ⟨⟨old, _⟩, hold, rfl⟩ := Option.map_eq_some_iff.1 (hseen.symm.trans hp)
        exact h.watches_giveCopy hgoing hscratch hne hold hcow (hwords _ _ hold)
      · exact .pure ⟨.declined, .refl _⟩
    · rintro _ _ _ ⟨_, ⟨⟩, -⟩

end Whole

/-! ## What is left -/

namespace Handled

variable {host host' : Host M} {va : Nat} {l : List Asked} {r : Except PageFaultError Unit}
  {e : PageFaultError}

theorem of_ok (h : Handled s va host l (.ok ()) host') : host.Replaced s va host' := by
  cases h with
  | replaced h => exact h

/-- **A call that was refused** decides what is left: nothing if it was the first one, otherwise the
new page at the scratch address, or there and in its place. -/
theorem of_refused (h : Handled s va host l r host') {a : Asked} (ha : a ∈ l)
    (hrefused : a.refused = true) :
    a.call = .pageAlloc ∧ host'.kernel.mapping = host.kernel.mapping ∨
      ∃ new, ¬ host.kernel.mapping.Uses new ∧
        (a.call = .pageMap ∧ host'.kernel.mapping = host.kernel.mapping.supply s new ∨
          a.call = .pageUnmap ∧
            host'.kernel.mapping = (host.kernel.mapping.supply s new).place s va new) := by
  cases h with
  | declined => cases ha
  | unsupplied _ hmaps =>
    rw [List.mem_singleton.1 ha]
    exact .inl ⟨rfl, hmaps⟩
  | unmoved _ hfresh hmaps =>
    simp only [List.mem_cons, List.not_mem_nil, or_false] at ha
    rcases ha with rfl | rfl
    · cases hrefused
    · exact .inr ⟨_, hfresh, .inl ⟨rfl, hmaps⟩⟩
  | uncleared _ hfresh hmaps =>
    simp only [List.mem_cons, List.not_mem_nil, or_false] at ha
    rcases ha with rfl | rfl | rfl
    · cases hrefused
    · cases hrefused
    · exact .inr ⟨_, hfresh, .inr ⟨rfl, hmaps⟩⟩
  | replaced =>
    simp only [List.mem_cons, List.not_mem_nil, or_false] at ha
    rcases ha with rfl | rfl | rfl <;> cases hrefused

/-- A fault is not handled since a call was refused, or since it is none that is handled. -/
theorem exists_refused (h : Handled s va host l (.error e) host') :
    host' = host ∨ ∃ a ∈ l, a.refused = true := by
  have hrefused : ∀ {c : Call} {args : Args} {w : UInt32} {e : CallError},
      decodeResult w = .error e → (⟨c, args, w⟩ : Asked).refused = true := by
    intro c args w e hw
    rw [Asked.refused, hw]
  cases h with
  | declined => exact .inl rfl
  | unsupplied hw => exact .inr ⟨_, .head _, hrefused hw⟩
  | unmoved hw => exact .inr ⟨_, .tail _ (.head _), hrefused hw⟩
  | uncleared hw => exact .inr ⟨_, .tail _ (.tail _ (.head _)), hrefused hw⟩

/-- **Unless the mapping or the unmapping was refused** a fault that is not handled leaves all
mappings. -/
theorem mapping_eq (h : Handled s va host l (.error e) host')
    (hrefused : ∀ a ∈ l, a.refused = true → a.call = .pageAlloc) :
    host'.kernel.mapping = host.kernel.mapping := by
  rcases h.exists_refused with rfl | ⟨a, ha, hno⟩
  · rfl
  · have hcall := hrefused a ha hno
    rcases h.of_refused ha hno with ⟨-, hmaps⟩ | ⟨_, -, ⟨hmap, -⟩ | ⟨hunmap, -⟩⟩
    · exact hmaps
    · cases hcall.symm.trans hmap
    · cases hcall.symm.trans hunmap

end Handled

section Ends

variable (sys : Syscalls (StateM σ)) (space : AddressSpace (StateM σ)) (faultVa : Nat) (err : UInt32)
  (x : σ)

/-- What comes of a fault, and the state its handling leaves. -/
def faultEnd : Except PageFaultError Unit × σ :=
  StateT.run (handleCowFault sys space faultVa err).run x

/-- The calls that are made to handle a fault. -/
def faultCalls : List Asked :=
  calls ((handleCowFault sys.watched space.watched faultVa err).run.run x).1.2

variable {sys space faultVa x}

variable [MemoryView M] [PageView M] [LawfulMemory M] [LawfulPages M] [FiniteMap M] [FreshPages M]
  {policy : Policy} {ncpu : Nat} {m₀ : M}

/-- **A fault is handled as a whole, or not at all**, unless the mapping or the unmapping of the copy
is refused. Let a program run on a host whose kernel serves its calls on pages, any of which may fail
instead without an effect, with nothing at the scratch address, and with pages at addresses of the
machine only. Whatever the fault: if it is handled, a page that was mapped nowhere has taken the place
of one that is copied when written, may be written and has its bytes, the scratch address is free and
no other mapping has changed. If it is not handled, and no call but the one for the new page was
refused, every mapping is what it was. Where the mapping was refused the new page is left at the
scratch address, and where the unmapping was refused it is left there and in its place. In any case
pages that stay mapped keep their bytes. -/
theorem Hosts.handleCowFault_all_or_nothing (h : Hosts look cpu s sys space)
    (hgoing : (look x).Going policy ncpu m₀ cpu s)
    (hscratch : (look x).kernel.mapping s Layout.scratchPage = none)
    (hwords : ∀ va e, (look x).kernel.mapping s va = some e → va < 2 ^ 32)
    (hne : pageOf faultVa ≠ Layout.scratchPage) :
    let host := look x
    let result := (faultEnd sys space faultVa err x).1
    let host' := look (faultEnd sys space faultVa err x).2
    let made := faultCalls sys space faultVa err x
    (∃ l, (handleCowFault sys.watched space.watched faultVa err).run.run x =
      ((result, l), (faultEnd sys space faultVa err x).2) ∧ made = calls l) ∧
    (result = .ok () → host.Replaced s (pageOf faultVa) host' ∧
      host'.kernel.mapping s Layout.scratchPage = none) ∧
    (∀ e, result = .error e → (∀ a ∈ made, a.refused = true → a.call = .pageAlloc) →
      host'.kernel.mapping = host.kernel.mapping) ∧
    (∀ a ∈ made, a.refused = true → a.call = .pageAlloc ∨
      ∃ new, ¬ host.kernel.mapping.Uses new ∧
        (a.call = .pageMap ∧ host'.kernel.mapping = host.kernel.mapping.supply s new ∨
          a.call = .pageUnmap ∧ host'.kernel.mapping =
            (host.kernel.mapping.supply s new).place s (pageOf faultVa) new)) ∧
    host.Spares host' := by
  intro host result host' made
  obtain ⟨l, hrun, hhandled, hspares⟩ := h.watches_handleCowFault hgoing hscratch hwords hne err
  have hmade : made = calls l := by
    change calls ((handleCowFault sys.watched space.watched faultVa err).run.run x).1.2 = calls l
    rw [hrun]
  have hhandled : Handled s (pageOf faultVa) host made result host' := hmade ▸ hhandled
  refine ⟨⟨l, hrun, hmade⟩, fun hok => ?_, fun e he hrefused => ?_, fun a ha hrefused => ?_, hspares⟩
  · rw [hok] at hhandled
    have hreplaced := hhandled.of_ok
    obtain ⟨_, _, _, -, -, -, hmaps, -⟩ := id hreplaced
    refine ⟨hreplaced, ?_⟩
    rw [hmaps, ← hscratch]
    exact Mappings.put_ne _ hne.symm _ _
  · rw [he] at hhandled
    exact hhandled.mapping_eq hrefused
  · exact (hhandled.of_refused ha hrefused).imp_left And.left

end Ends

end Handler

/-! ### A host of counted page frames -/

section Frames

/-- The kernel of a host, some of whose calls fail. -/
def Host.syscalls (refuses : Call → Option KernelError) (cpu : Nat) (s : Slot) :
    Syscalls (StateM (Host Frames)) where
  call c a h :=
    match refuses c with
    | some e => (encodeResult (.error e.toCallError), h)
    | none =>
      let k := (h.kernel.syscall cpu (TrapFrame.user.calling c.number a)).2
      ((k.env s).frame.eax, { h with kernel := k })
  inbox h := ((h.kernel.env s).inbox.words, h)

/-- The pages of an environment. -/
def Host.space (s : Slot) : AddressSpace (StateM (Host Frames)) where
  tablePresent va h := (Frames.tablePresent h.kernel.memory (h.kernel.env s).pgdir va, h)
  pagePerm va h := ((h.kernel.mapping s va).map (·.2), h)
  copyPage src dst h :=
    match h.kernel.mapping s src, h.kernel.mapping s dst with
    | some (page, _), some (page', _) => (⟨⟩, { h with bytes := h.bytes.copy page page' })
    | _, _ => (⟨⟩, h)

/-- Whichever calls fail, the others are served. -/
theorem Host.hosts (refuses : Call → Option KernelError) (cpu : Nat) (s : Slot) :
    Hosts id cpu s (Host.syscalls refuses cpu s) (Host.space s) where
  call c a h _ := by
    change Serves cpu s c a h (Host.syscalls refuses cpu s |>.call c a h).1
      (Host.syscalls refuses cpu s |>.call c a h).2
    unfold Host.syscalls
    dsimp only
    split
    · next e _ => exact .failed (decodeResult_encodeResult_toCallError e)
    · have hnumber := TrapFrame.eax_calling TrapFrame.user c.number a
      have hargs := TrapFrame.args_calling TrapFrame.user c.number a
      generalize TrapFrame.user.calling c.number a = tf at hnumber hargs ⊢
      let h' : Host Frames := { h with kernel := (h.kernel.syscall cpu tf).2 }
      have hserves : h.Serves cpu s c a (h'.kernel.env s).frame.eax h' :=
        .answered hnumber hargs rfl fun _ _ _ => rfl
      exact hserves
  pagePerm va h := ⟨rfl, rfl⟩
  copyPage {src dst page page' p p'} h hsrc hdst := by
    change ((Host.space s).copyPage src dst h).2 = _
    unfold Host.space
    dsimp only
    rw [show h.kernel.mapping s src = _ from hsrc, show h.kernel.mapping s dst = _ from hdst]
    rfl

/-- An environment with one page of its own, which is copied when it is written. -/
def withShared : List Action :=
  [.create [0x7f] 0, .schedule 0,
    State.callOf .pageAlloc { second := 0x801000, third := 0x805 }]

/-- Page frames that map nothing beyond the addresses of the machine. -/
theorem lt_of_entries {k : State Frames} {s : Slot} (hs : (k.env s).status ≠ .free)
    (hall : ∀ e ∈ k.memory.mappings.entries, e.1.2 < 2 ^ 32) :
    ∀ va e, k.mapping s va = some e → va < 2 ^ 32 := by
  intro va e he
  exact hall _ (Assoc.mem_entries_of_get? ((State.mapping_eq_lookup hs).symm.trans he))

/-- In the state these operations lead to the environment goes on. -/
theorem Host.going_of_ran {l : List Action} {k : State Frames} {bytes : Contents}
    (hk : State.ran .perCpu 1 ({} : Frames) l = .ok k) (hrunning : k.running? 0 = some 0) :
    (⟨k, bytes⟩ : Host Frames).Going .perCpu 1 ({} : Frames) 0 0 where
  valid := ⟨.nil, nofun⟩
  accounted := ⟨nofun, nofun⟩
  tidy _ _ _ := rfl
  reached := State.reached_of_ran hk
  runs := State.runs_of_running? (by decide) hrunning

/-- A page is copied when it is written. -/
theorem Hosts.handleCowFault_all_or_nothing_copied :
    ∃ k : State Frames, let x : Host Frames := ⟨k, fun _ i => UInt8.ofNat i⟩
      let sys := Host.syscalls (fun _ => none) 0 0
      x.Going .perCpu 1 ({} : Frames) 0 0 ∧ k.mapping 0 0x801000 = some (⟨0x3000⟩, ⟨0x805⟩) ∧
        k.mapping 0 Layout.scratchPage = none ∧
        (faultEnd sys (Host.space 0) 0x801024 2 x).1 = .ok () ∧
        x.Replaced 0 0x801000 (faultEnd sys (Host.space 0) 0x801024 2 x).2 := by
  let host (k : State Frames) : Host Frames := ⟨k, fun _ i => UInt8.ofNat i⟩
  let sys := Host.syscalls (fun _ => none) 0 0
  obtain ⟨k, hk, hseen⟩ := exists_of_map_toOption
    (f := fun k => (k.running? 0, [k.mapping 0 0x801000, k.mapping 0 Layout.scratchPage],
      [k.memory.mappings.entries.all fun e => e.1.2 < 2 ^ 32,
        (faultEnd sys (Host.space 0) 0x801024 2 (host k)).1.isOk]))
    (b := (some 0, [some (⟨0x3000⟩, ⟨0x805⟩), none], [true, true]))
    (x := State.ran .perCpu 1 ({} : Frames) withShared) (by decide +kernel)
  simp only [Prod.mk.injEq, List.cons.injEq, and_true] at hseen
  obtain ⟨hrunning, ⟨hpage, hscratch⟩, hentries, hend⟩ := hseen
  have hgoing : (host k).Going .perCpu 1 ({} : Frames) 0 0 := Host.going_of_ran hk hrunning
  have hwords := lt_of_entries hgoing.runs.there fun e he =>
    of_decide_eq_true (List.all_eq_true.1 hentries e he)
  have hok : (faultEnd sys (Host.space 0) 0x801024 2 (host k)).1 = .ok () := by
    cases hresult : (faultEnd sys (Host.space 0) 0x801024 2 (host k)).1 with
    | ok => rfl
    | error e => rw [hresult] at hend; cases hend
  have hhosts := Host.hosts (fun _ => none) 0 0
  obtain ⟨-, hreplaced, -⟩ := hhosts.handleCowFault_all_or_nothing 2 hgoing hscratch hwords
    (by decide : pageOf 0x801024 ≠ Layout.scratchPage)
  exact ⟨k, hgoing, hpage, hscratch, hok, (hreplaced hok).1⟩

/-- Where the copy cannot be mapped in its place it stays at the scratch address. -/
theorem Hosts.handleCowFault_leaves_scratch :
    ¬ ∀ (sys : Syscalls (StateM (Host Frames))) (space : AddressSpace (StateM (Host Frames)))
      (x : Host Frames) (faultVa : Nat) (err : UInt32), Hosts id 0 0 sys space →
      x.Going .perCpu 1 ({} : Frames) 0 0 → x.kernel.mapping 0 Layout.scratchPage = none →
      (∀ va e, x.kernel.mapping 0 va = some e → va < 2 ^ 32) →
      pageOf faultVa ≠ Layout.scratchPage → ∀ e, (faultEnd sys space faultVa err x).1 = .error e →
        (faultEnd sys space faultVa err x).2.kernel.mapping 0 = x.kernel.mapping 0 := by
  intro hclaim
  let refuses (c : Call) : Option KernelError :=
    if c = .pageMap then some (.memory .outOfMemory) else none
  let host (k : State Frames) : Host Frames := ⟨k, fun _ i => UInt8.ofNat i⟩
  let sys := Host.syscalls refuses 0 0
  obtain ⟨k, hk, hseen⟩ := exists_of_map_toOption
    (f := fun k => (k.running? 0, [k.mapping 0 Layout.scratchPage,
        (faultEnd sys (Host.space 0) 0x801024 2 (host k)).2.kernel.mapping 0 Layout.scratchPage],
      [k.memory.mappings.entries.all fun e => e.1.2 < 2 ^ 32,
        (faultEnd sys (Host.space 0) 0x801024 2 (host k)).1.isOk]))
    (b := (some 0, [none, some (⟨0x4000⟩, Perm.userWrite)], [true, false]))
    (x := State.ran .perCpu 1 ({} : Frames) withShared) (by decide +kernel)
  simp only [Prod.mk.injEq, List.cons.injEq, and_true] at hseen
  obtain ⟨hrunning, ⟨hscratch, hleft⟩, hentries, hend⟩ := hseen
  have hgoing : (host k).Going .perCpu 1 ({} : Frames) 0 0 := Host.going_of_ran hk hrunning
  have hwords := lt_of_entries hgoing.runs.there fun e he =>
    of_decide_eq_true (List.all_eq_true.1 hentries e he)
  cases hresult : (faultEnd sys (Host.space 0) 0x801024 2 (host k)).1 with
  | ok => rw [hresult] at hend; cases hend
  | error e =>
    have hsame := hclaim sys (Host.space 0) (host k) 0x801024 2 (Host.hosts refuses 0 0) hgoing
      hscratch hwords (by decide) e hresult
    have hboth := (congrFun hsame Layout.scratchPage).symm.trans hleft
    cases hscratch.symm.trans hboth

end Frames

end Exokernel
