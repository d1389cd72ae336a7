import Exokernel.Proofs.Rights
import Exokernel.Proofs.Worlds
/-!
# What a call does to the mappings of all environments

The mappings of an environment are those of its address space, and no two environments have one
address space, so a call that maps or unmaps a page changes one place of the table `State.mapping`. A
page that is taken stands nowhere in it, and a child starts with nothing mapped. `Remaps` says so for
each call that `User.fork` and `User.handleCowFault` make, and what a refused call leaves is what was
there (`Reached.remaps`).
-/

namespace Exokernel

open MemoryView PageView Memory

/-- One mapping is replaced. -/
def Mappings.put (x : Mappings) (t : Slot) (va : Nat) (e : Option (PhysPage × Perm)) : Mappings :=
  fun u v => if u = t ∧ v = va then e else x u v

/-- An environment has nothing mapped any more. -/
def Mappings.drop (x : Mappings) (t : Slot) : Mappings := fun u v => if u = t then none else x u v

namespace Memory

variable {M : Type} [Memory M] [MemoryView M] {m m' : M}

/-- Directories that are not there map nothing. -/
def Tidy (m : M) : Prop := ∀ d va, ¬ Live m d → Memory.lookup m d va = none

theorem Tidy.congr (h : Tidy m) (hlive : ∀ d, Live m d → Live m' d)
    (hsame : ∀ d va, ¬ Live m' d → Memory.lookup m' d va = Memory.lookup m d va) : Tidy m' :=
  fun d va hd => (hsame d va hd).trans (h d va (mt (hlive d) hd))

end Memory

/-- **New pages are mapped nowhere**, and a program is loaded in no directory but its own. -/
class FreshPages (M : Type) [Memory M] [MemoryView M] [PageView M] : Prop where
  allocPage_ok : ∀ {m m' : M} {page : PhysPage}, Accounted m → Memory.allocPage m = .ok page m' →
    ∀ d va perm, Memory.lookup m d va ≠ some (page, perm)
  loadImage : ∀ {m : M} {dir : PageDir} {image : Image}, Valid m → Live m dir →
    Ends (Memory.loadImage dir image) m fun _ m' =>
      ∀ d va, d ≠ dir → Memory.lookup m' d va = Memory.lookup m d va

namespace Frames

/-- **Counted page frames give out new pages.** -/
instance : FreshPages Frames where
  allocPage_ok {f f' page} ha hop d va perm hlookup := by
    obtain ⟨-, -, hpage, -⟩ := (tallied_allocPage ha).of_ok hop
    -- what is mapped was given out, and the page that is given out now lies beyond
    have hle := ha.mapped d va page perm hlookup
    have hlt : f.lastAddress < f'.lastAddress := by
      rcases fresh_cases f with hnone | ⟨a, f₁, hfresh, hlt, hlast, -⟩
      · have hop' : allocPage f = .ok page f' := hop
        rw [allocPage, hnone] at hop'
        cases hop'
      · have hop' : allocPage f = .ok page f' := hop
        rw [allocPage, hfresh] at hop'
        cases hop'
        change f.lastAddress < f₁.lastAddress
        omega
    omega
  loadImage {f dir image} _ _ :=
    (ends_loadImage dir image f).imp fun _ _ hlike d va hd => hlike.mappings d va hd

end Frames

/-- The occupant of a slot is the same, in the same state and with the same address space. -/
structure Env.Same (e e' : Env) : Prop where
  status : e'.status = e.status
  lastId : e'.lastId = e.lastId
  parent : e'.parent = e.parent
  pgdir : e'.pgdir = e.pgdir

theorem Env.Same.trans {e e' e'' : Env} (h : Env.Same e e') (h' : Env.Same e' e'') :
    Env.Same e e'' :=
  ⟨h'.status.trans h.status, h'.lastId.trans h.lastId, h'.parent.trans h.parent,
    h'.pgdir.trans h.pgdir⟩

/-- The calls by which user code copies environments, but for the one that destroys them. -/
def Call.copies : Call → Bool
  | .pageAlloc | .pageMap | .pageUnmap | .exofork | .envSetStatus | .envSetUpcall => true
  | _ => false

namespace State

variable {M : Type} [Memory M] [MemoryView M] [PageView M] [LawfulMemory M] [LawfulPages M]
  [FiniteMap M] [FreshPages M] {k k' : State M} {policy : Policy} {ncpu cpu : Nat} {m₀ mem : M}
  {s t : Slot} {va : Nat} {a : Args} {tf : TrapFrame}

/-! ## Directories that are not there -/

section Tidy

omit [LawfulPages M] [FreshPages M]

theorem Housed.tidy_touches (h : Housed m₀ k) (hsound : Sound policy ncpu k) (hcpu : cpu < ncpu)
    (ht : Tidy k.memory) (hm : Touches k cpu mem) : Tidy mem := by
  have hkeeps := h.keeps_of_touches hsound hcpu hm
  refine ht.congr (fun d hd => (hkeeps.live d).2 hd) fun d va hd => ?_
  have hdead : ¬ Live k.memory d := mt (hkeeps.live d).2 hd
  have hne : ∀ {s}, k.Governs cpu s → d ≠ (k.env s).pgdir := by
    rintro s hs rfl
    exact hdead (h.live_pgdir (hsound.governs_ne_free hcpu hs))
  cases hm with
  | noSpace hop => exact ((FiniteMap.createSpace h.valid).of_error hop).1 d va
  | noPage hop => exact (FiniteMap.allocPage h.valid).of_error hop d va
  | @supplied s _ _ _ _ mem₁ _ hs _ _ halloc hinsert =>
    have hpage := LawfulMemory.allocPage_ok h.valid halloc
    have hlive := (hpage.live _).2 (h.live_pgdir (hsound.governs_ne_free hcpu hs))
    rw [FiniteMap.insert_ok hpage.valid hlive hinsert, if_neg fun heq => hne hs heq.1]
    exact (FiniteMap.allocPage h.valid).of_ok halloc d va
  | @unsupplied s _ _ _ _ _ mem₁ mem₂ hs _ _ halloc hop =>
    have hpage := LawfulMemory.allocPage_ok h.valid halloc
    have hlive := (hpage.live _).2 (h.live_pgdir (hsound.governs_ne_free hcpu hs))
    have hfailed := LawfulMemory.insert_error hpage.valid hlive hop
    calc Memory.lookup (Memory.freePage _ mem₂) d va
        = Memory.lookup mem₂ d va := FiniteMap.freePage hfailed.valid d va
      _ = Memory.lookup mem₁ d va := FiniteMap.insert_error hpage.valid hlive hop d va
      _ = Memory.lookup k.memory d va := (FiniteMap.allocPage h.valid).of_ok halloc d va
  | @shared _ dst _ _ _ _ _ _ _ hdst _ _ _ _ hinsert =>
    have hlive := h.live_pgdir (hsound.governs_ne_free hcpu hdst)
    rw [FiniteMap.insert_ok h.valid hlive hinsert, if_neg fun heq => hne hdst heq.1]
  | unshared hdst _ hop =>
    have hlive := h.live_pgdir (hsound.governs_ne_free hcpu hdst)
    exact FiniteMap.insert_error h.valid hlive hop d va
  | removed hs _ =>
    have hlive := h.live_pgdir (hsound.governs_ne_free hcpu hs)
    rw [FiniteMap.remove h.valid hlive, if_neg fun heq => hne hs heq.1]
  | undelivered hr _ hop =>
    have hlive := h.live_pgdir (hsound.resolve_ne_free hcpu hr)
    exact FiniteMap.insert_error h.valid hlive hop d va

theorem Housed.tidy_free (h : Housed m₀ k) (ht : Tidy k.memory) (hs : (k.env s).status ≠ .free) :
    Tidy (k.free s).memory := by
  have hlive := h.live_pgdir hs
  have hgone := LawfulMemory.destroySpace h.valid hlive
  intro d va hd
  rw [memory_free, FiniteMap.destroySpace h.valid hlive]
  split
  · rfl
  · next hne => exact ht d va fun hd' => hd ((hgone.live d).2 ⟨hne, hd'⟩)

theorem Housed.tidy_destroy (h : Housed m₀ k) (ht : Tidy k.memory) (hs : (k.env s).status ≠ .free)
    (cpu : Nat) : Tidy (k.destroy cpu s).2.memory := by
  rcases destroy_cases k cpu s with ⟨-, hk⟩ | ⟨-, hk⟩
  · rw [hk]
    exact ht
  · rw [hk]
    exact h.tidy_free ht hs

theorem Housed.tidy_createSpace (h : Housed m₀ k) (ht : Tidy k.memory) {dir : PageDir}
    (hdir : Memory.createSpace k.memory = .ok dir mem) : Tidy mem := by
  have hmade := LawfulMemory.createSpace_ok h.valid hdir
  exact ht.congr (fun d hd => (hmade.live d).2 (.inr hd)) fun d va _ =>
    ((FiniteMap.createSpace h.valid).of_ok hdir).1 d va

end Tidy

omit [LawfulPages M] in
/-- **Every effect leaves directories that are not there without mappings.** -/
theorem Housed.tidy_effect (h : Housed m₀ k) (hsound : Sound policy ncpu k)
    (ht : Tidy k.memory) (hk : Effect ncpu k k') : Tidy k'.memory := by
  -- what is done to one directory that is there leaves the others alone
  have hsingle : ∀ {dir : PageDir} {mem : M} {P : PageDir → Nat → Prop}, Live k.memory dir →
      Keeps P k.memory mem →
      (∀ d va, d ≠ dir → Memory.lookup mem d va = Memory.lookup k.memory d va) → Tidy mem := by
    intro dir mem P hlive hkeeps hsame
    refine ht.congr (fun d hd => (hkeeps.live d).2 hd) fun d va hd => hsame d va ?_
    rintro rfl
    exact hd ((hkeeps.live _).2 hlive)
  cases hk with
  | alloc _ _ hdir => exact h.tidy_createSpace ht hdir
  | free hs => exact h.tidy_free ht hs
  | destroy hs => exact h.tidy_destroy ht hs _
  | deliver hcpu hk =>
    cases hk with
    | word => exact ht
    | page hp hr _ hoffer _ hinsert =>
      have hlive := h.live_pgdir (hsound.resolve_ne_free hcpu hr)
      exact hsingle hlive (LawfulMemory.insert_ok h.valid hlive hinsert) fun d va hd =>
        (FiniteMap.insert_ok h.valid hlive hinsert d va).trans (if_neg fun heq => hd heq.1)
  | move hcpu hk =>
    cases hk with
    | change hk =>
      cases hk with
      | speak => exact ht
      | touch hm => exact h.tidy_touches hsound hcpu ht hm
      | amend => exact ht
      | fork _ _ hdir => exact h.tidy_createSpace ht hdir
    | destroy hs => exact h.tidy_destroy ht (hsound.governs_ne_free hcpu hs) _
    | hush => exact ht
    | refuse hdir =>
      have hkeeps := LawfulMemory.createSpace_error h.valid hdir
      exact ht.congr (fun d hd => (hkeeps.live d).2 hd) fun d va _ =>
        ((FiniteMap.createSpace h.valid).of_error hdir).1 d va
    | occupy _ hdir => exact h.tidy_createSpace ht hdir
    | load _ hs hload =>
      have hlive := h.live_pgdir hs
      exact hsingle hlive (LawfulMemory.loadImage_ok h.valid hlive hload)
        ((FreshPages.loadImage h.valid hlive).of_ok hload)
    | spoil _ hs hload =>
      have hlive := h.live_pgdir hs
      exact hsingle hlive (LawfulMemory.loadImage_error h.valid hlive hload)
        ((FreshPages.loadImage h.valid hlive).of_error hload)
    | launch => exact ht
    | drop _ hs => exact h.tidy_free ht hs
    | run =>
      rw [memory_running]
      exact ht

omit [LawfulPages M] in
/-- **In every reached state directories that are not there map nothing.** -/
theorem Reached.tidy (h : Reached policy ncpu m₀ k) (hm : Valid m₀) (ht : Tidy m₀) :
    Tidy k.memory := by
  have hboth : Housed m₀ k ∧ Tidy k.memory := by
    refine h.invariant (P := fun k => Housed m₀ k ∧ Tidy k.memory) (fun k hinit => ?_)
      fun k k' hsound hk heffect => ?_
    · refine ⟨(Reached.init hinit).housed hm, ?_⟩
      obtain ⟨-, text, rfl⟩ := init_eq_ok hinit
      exact ht
    · obtain ⟨hhoused, htidy⟩ := hk
      exact ⟨hhoused.effect hsound heffect, hhoused.tidy_effect hsound htidy heffect⟩
  exact hboth.2

/-! ## The table of mappings -/

section Table

omit [PageView M] [LawfulMemory M] [LawfulPages M] [FiniteMap M] [FreshPages M]

omit [MemoryView M] in
theorem mapping_of_free (hs : (k.env s).status = .free) : k.mapping s va = none := if_pos hs

omit [MemoryView M] in
theorem mapping_eq_lookup (hs : (k.env s).status ≠ .free) :
    k.mapping s va = Memory.lookup k.memory (k.env s).pgdir va := if_neg hs

omit [MemoryView M] in
/-- Nobody comes or goes, and the same pages are mapped. -/
theorem mapping_congr (hfree : ∀ u, (k'.env u).status = .free ↔ (k.env u).status = .free)
    (hdir : ∀ u, (k'.env u).pgdir = (k.env u).pgdir)
    (hmem : ∀ u va, (k.env u).status ≠ .free → Memory.lookup k'.memory (k.env u).pgdir va =
      Memory.lookup k.memory (k.env u).pgdir va) : k'.mapping = k.mapping := by
  funext u v
  by_cases hu : (k.env u).status = .free
  · rw [mapping_of_free hu, mapping_of_free ((hfree u).2 hu)]
  · rw [mapping_eq_lookup hu, mapping_eq_lookup (mt (hfree u).1 hu), hdir u, hmem u v hu]

/-- **One directory changes at one address**, and so does the table of mappings. -/
theorem Housed.mapping_put (h : Housed m₀ k) (ht : (k.env t).status ≠ .free)
    {e : Option (PhysPage × Perm)} (hmem : ∀ d v, Memory.lookup mem d v =
      if d = (k.env t).pgdir ∧ v = va then e else Memory.lookup k.memory d v) :
    ({ k with memory := mem } : State M).mapping = k.mapping.put t va e := by
  funext u v
  by_cases hu : (k.env u).status = .free
  · have hne : u ≠ t := fun heq => ht (heq ▸ hu)
    rw [mapping_of_free (k := { k with memory := mem }) hu, Mappings.put, if_neg fun heq => hne heq.1,
      mapping_of_free hu]
  · have hsame : (k.env u).pgdir = (k.env t).pgdir ↔ u = t :=
      ⟨fun heq => h.apart u t _ ⟨hu, heq⟩ ⟨ht, rfl⟩, fun heq => heq ▸ rfl⟩
    rw [mapping_eq_lookup (k := { k with memory := mem }) hu]
    change Memory.lookup mem (k.env u).pgdir v = _
    rw [hmem, Mappings.put, mapping_eq_lookup hu]
    simp only [hsame]

/-- **Giving a slot back** unmaps everything its environment had mapped. -/
theorem Housed.mapping_free [PageView M] [FiniteMap M] (h : Housed m₀ k)
    (hs : (k.env s).status ≠ .free) : (k.free s).mapping = k.mapping.drop s := by
  funext u v
  unfold Mappings.drop
  by_cases hu : u = s
  · rw [if_pos hu]
    exact mapping_of_free (by rw [env_free, if_pos hu])
  · have henv : (k.free s).env u = k.env u := by rw [env_free, if_neg hu]
    rw [if_neg hu]
    by_cases hfree : (k.env u).status = .free
    · rw [mapping_of_free hfree, mapping_of_free (henv ▸ hfree)]
    · have hne : (k.env u).pgdir ≠ (k.env s).pgdir := fun heq =>
        hu (h.apart u s _ ⟨hfree, heq⟩ ⟨hs, rfl⟩)
      rw [mapping_eq_lookup hfree, mapping_eq_lookup (henv ▸ hfree), henv, memory_free,
        FiniteMap.destroySpace h.valid (h.live_pgdir hs), if_neg hne]

/-- **A child starts with nothing mapped.** -/
theorem Housed.mapping_forked [PageView M] [LawfulMemory M] [FiniteMap M] (h : Housed m₀ k)
    (htidy : Tidy k.memory) (ht : (k.env t).status = .free) {dir : PageDir}
    (hdir : Memory.createSpace k.memory = .ok dir mem) :
    (k.forked cpu s t dir mem).mapping = k.mapping := by
  have hsame := ((FiniteMap.createSpace h.valid).of_ok hdir).1
  have hnew := (LawfulMemory.createSpace_ok h.valid hdir).fresh
  have hmemory : (k.forked cpu s t dir mem).memory = mem := rfl
  funext u v
  by_cases hu : u = t
  · subst hu
    have henv : (k.forked cpu s u dir mem).env u = _ := env_forked s u u dir mem
    rw [if_pos rfl] at henv
    rw [mapping_of_free ht, mapping_eq_lookup (by rw [henv]; exact nofun), henv, hmemory, hsame]
    exact htidy dir v hnew
  · have henv : (k.forked cpu s t dir mem).env u = k.env u := by rw [env_forked, if_neg hu]
    by_cases hfree : (k.env u).status = .free
    · rw [mapping_of_free hfree, mapping_of_free (henv ▸ hfree)]
    · rw [mapping_eq_lookup hfree, mapping_eq_lookup (henv ▸ hfree), henv, hmemory, hsame]

end Table

/-! ## What a call leaves -/

section Answers

omit [Memory M] [MemoryView M] [PageView M] [LawfulMemory M] [LawfulPages M] [FiniteMap M]
  [FreshPages M]

/-- **A call leaves its answer with the caller.** Otherwise every slot keeps its occupant, its state
and its registers, but for slots of which `P` holds. -/
structure Answers (k k' : State M) (s : Slot) (w : UInt32) (P : Slot → Prop) : Prop where
  eax : (k'.env s).frame.eax = w
  same : ∀ u, ¬ P u → Env.Same (k.env u) (k'.env u)
  frame : ∀ u, u ≠ s → ¬ P u → (k'.env u).frame = (k.env u).frame

theorem same_setResult (k : State M) (s u : Slot) (w : UInt32) :
    Env.Same (k.env u) ((k.setResult s w).env u) := by
  rw [env_setResult]
  split
  · next hu => rw [hu]; exact ⟨rfl, rfl, rfl, rfl⟩
  · exact ⟨rfl, rfl, rfl, rfl⟩

theorem same_save (k : State M) (s u : Slot) (tf : TrapFrame) :
    Env.Same (k.env u) ((k.save s tf).env u) := by
  rw [env_save]
  split
  · next hu => rw [hu]; exact ⟨rfl, rfl, rfl, rfl⟩
  · exact ⟨rfl, rfl, rfl, rfl⟩

/-- What the slots keep until the answer is written, they keep. -/
theorem answers_setResult {P : Slot → Prop} (tf : TrapFrame) (w : UInt32)
    (hsame : ∀ u, ¬ P u → Env.Same ((k.save s tf).env u) (k'.env u))
    (hframe : ∀ u, ¬ P u → (k'.env u).frame = ((k.save s tf).env u).frame) :
    Answers k (k'.setResult s w) s w P where
  eax := by rw [env_setResult, if_pos rfl]
  same u hu :=
    ((same_save k s u tf).trans (hsame u hu)).trans (same_setResult k' s u w)
  frame u hne hu := by
    rw [env_setResult, if_neg hne, hframe u hu, env_save, if_neg hne]

variable [Memory M]

theorem mapping_of_same (hsame : ∀ u, Env.Same (k.env u) (k'.env u)) (hmem : k'.memory = k.memory) :
    k'.mapping = k.mapping :=
  mapping_congr (fun u => by rw [(hsame u).status]) (fun u => (hsame u).pgdir)
    fun u va _ => by rw [hmem]

theorem mapping_setResult (k : State M) (s : Slot) (w : UInt32) :
    (k.setResult s w).mapping = k.mapping :=
  mapping_of_same (same_setResult k s · w) rfl

theorem mapping_save (k : State M) (s : Slot) (tf : TrapFrame) :
    (k.save s tf).mapping = k.mapping :=
  mapping_of_same (same_save k s · tf) rfl

end Answers

/-- **What a call leaves of the mappings** that is not refused, for the calls by which environments
are copied. -/
inductive Remaps (k : State M) (cpu : Nat) (s : Slot) (a : Args) : Call → State M → Prop
  /-- A page that was mapped nowhere is mapped. -/
  | supplied {k' : State M} {t : Slot} {perm : Perm} {page : PhysPage} :
      k.resolve cpu a.first true = .ok t → Perm.ofUser? a.third = some perm →
      (∀ u v p, k.mapping u v ≠ some (page, p)) →
      k'.mapping = k.mapping.put t a.second.toNat (some (page, perm)) →
      Answers k k' s 0 (fun _ => False) → Remaps k cpu s a .pageAlloc k'
  | shared {k' : State M} {src dst : Slot} {perm mapped : Perm} {page : PhysPage} :
      k.resolve cpu a.first true = .ok src → k.resolve cpu a.third true = .ok dst →
      Perm.ofUser? a.fifth = some perm → k.mapping src a.second.toNat = some (page, mapped) →
      k'.mapping = k.mapping.put dst a.fourth.toNat (some (page, perm)) →
      Answers k k' s 0 (fun _ => False) → Remaps k cpu s a .pageMap k'
  | removed {k' : State M} {t : Slot} : k.resolve cpu a.first true = .ok t →
      k'.mapping = k.mapping.put t a.second.toNat none →
      Answers k k' s 0 (fun _ => False) → Remaps k cpu s a .pageUnmap k'
  /-- There is a child in a slot that was free. It has the registers of the caller but for the
  answer. -/
  | made {k' : State M} {id : EnvId} : (k.env id.slot).status = .free →
      id.raw.toNat < 0x80000000 → k'.mapping = k.mapping →
      Answers k k' s id.raw (· = id.slot) → (k'.env id.slot).status = .notRunnable →
      (k'.env id.slot).id = some id → (k'.env id.slot).parent = (k.env s).id →
      (k'.env id.slot).frame.eax = 0 → Remaps k cpu s a .exofork k'
  | set {k' : State M} {t : Slot} {st : Status} : settable? a.second = some st →
      k.resolve cpu a.first true = .ok t → (k'.env t).status = st →
      (t ≠ s → (k'.env t).frame = (k.env t).frame) → k'.mapping = k.mapping →
      Answers k k' s 0 (· = t) → Remaps k cpu s a .envSetStatus k'
  | upcall {k' : State M} : k'.mapping = k.mapping → Answers k k' s 0 (fun _ => False) →
      Remaps k cpu s a .envSetUpcall k'

omit [LawfulPages M] [FreshPages M] in
/-- **A refused call** leaves all mappings. -/
theorem Housed.denied (h : Housed m₀ k) (hsound : Sound policy ncpu k) (hcpu : cpu < ncpu)
    {e : KernelError} (hr : Refuses (k.save s tf) cpu e k') :
    (k'.setResult s (encodeResult (.error e.toCallError))).mapping = k.mapping ∧
      Answers k (k'.setResult s (encodeResult (.error e.toCallError))) s
        (encodeResult (.error e.toCallError)) (fun _ => False) := by
  have hhoused : Housed m₀ (k.save s tf) := h.setEnv (Env.Alike.of_registers _ _ _).toStays
  have hsaved : Sound policy ncpu (k.save s tf) := hsound.setEnv (.of_registers _ _ _)
  have hsame := hhoused.sameMappings_of_refuses hsaved hcpu hr
  have henv : ∀ u, k'.env u = (k.save s tf).env u := hr.env_eq
  constructor
  · rw [mapping_setResult, ← mapping_save k s tf]
    exact mapping_congr (fun u => by rw [henv]) (fun u => by rw [henv]) fun u va _ => hsame _ va
  · exact answers_setResult tf _ (fun u _ => by rw [henv]; exact ⟨rfl, rfl, rfl, rfl⟩)
      fun u _ => by rw [henv]

/-! ## Calls that are performed

The caller's registers are saved before a call is performed, and its answer is written afterwards;
neither touches a mapping. -/

section Performed

omit [Memory M] [MemoryView M] [PageView M] [LawfulMemory M] [LawfulPages M] [FiniteMap M]
  [FreshPages M] in
theorem resolve_save (k : State M) (s : Slot) (tf : TrapFrame) (raw : UInt32) :
    (k.save s tf).resolve cpu raw true = k.resolve cpu raw true :=
  (sameNames_frame k s tf).resolve cpu raw true

omit [Memory M] [MemoryView M] [PageView M] [LawfulMemory M] [LawfulPages M] [FiniteMap M]
  [FreshPages M] in
/-- Where only memory changes, the caller finds 0 and the slots keep everything. -/
theorem answers_memory (k : State M) (s : Slot) (tf : TrapFrame) (mem : M) :
    Answers k (({ k.save s tf with memory := mem } : State M).setResult s 0) s 0 (fun _ => False) :=
  answers_setResult tf 0 (fun _ _ => ⟨rfl, rfl, rfl, rfl⟩) fun _ _ => rfl

variable (h : Housed m₀ (k.save s tf)) (hsound : Sound policy ncpu (k.save s tf)) (hcpu : cpu < ncpu)
include h

omit [PageView M] [LawfulMemory M] [LawfulPages M] [FiniteMap M] [FreshPages M] in
/-- A call replaces one mapping. -/
theorem Housed.mapping_memory (hfree : ((k.save s tf).env t).status ≠ .free)
    {e : Option (PhysPage × Perm)} (hmem : ∀ d v, Memory.lookup mem d v =
      if d = ((k.save s tf).env t).pgdir ∧ v = va then e else Memory.lookup k.memory d v) :
    (({ k.save s tf with memory := mem } : State M).setResult s 0).mapping = k.mapping.put t va e := by
  rw [mapping_setResult, ← mapping_save k s tf]
  exact h.mapping_put hfree hmem

include hsound hcpu

omit [LawfulPages M] in
theorem Housed.remaps_pageAlloc (ha : Accounted k.memory) {perm : Perm} {page : PhysPage} {mem' : M}
    (ht : (k.save s tf).resolve cpu a.first true = .ok t) (hperm : Perm.ofUser? a.third = some perm)
    (halloc : Memory.allocPage k.memory = .ok page mem)
    (hinsert : Memory.insert ((k.save s tf).env t).pgdir page a.second.toNat perm mem = .ok () mem') :
    Remaps k cpu s a .pageAlloc (({ k.save s tf with memory := mem' } : State M).setResult s 0) := by
  have hpage := LawfulMemory.allocPage_ok h.valid halloc
  have hfree := hsound.resolve_ne_free hcpu ht
  have hlive := (hpage.live _).2 (h.live_pgdir hfree)
  have hpresent := (Perm.ofUser?_eq_some hperm).2.2
  have hfresh : ∀ u v p, k.mapping u v ≠ some (page, p) := by
    intro u v p hmapped
    by_cases hu : (k.env u).status = .free
    · cases (mapping_of_free hu).symm.trans hmapped
    · rw [mapping_eq_lookup hu] at hmapped
      exact FreshPages.allocPage_ok ha halloc _ v p hmapped
  have hafter := h.mapping_memory hfree fun d v => by
    rw [FiniteMap.insert_ok hpage.valid hlive hinsert, hpresent,
      (FiniteMap.allocPage h.valid).of_ok halloc d v]
    rfl
  exact .supplied (resolve_save k s tf _ ▸ ht) hperm hfresh hafter (answers_memory k s tf mem')

omit [LawfulMemory M] [LawfulPages M] [FreshPages M] in
theorem Housed.remaps_pageMap {src dst : Slot} {perm : Perm} {page : PhysPage}
    (hsrc : (k.save s tf).resolve cpu a.first true = .ok src)
    (hdst : (k.save s tf).resolve cpu a.third true = .ok dst)
    (hperm : Perm.ofUser? a.fifth = some perm)
    (hpage : (k.save s tf).shareable ((k.save s tf).env src).pgdir a.second.toNat perm = some page)
    (hinsert : Memory.insert ((k.save s tf).env dst).pgdir page a.fourth.toNat perm k.memory =
      .ok () mem) :
    Remaps k cpu s a .pageMap (({ k.save s tf with memory := mem } : State M).setResult s 0) := by
  have hfree := hsound.resolve_ne_free hcpu hdst
  have hpresent := (Perm.ofUser?_eq_some hperm).2.2
  obtain ⟨mapped, hlookup, -⟩ := lookup_of_shareable hpage
  have hbefore : k.mapping src a.second.toNat = some (page, mapped) := by
    rw [← mapping_save k s tf, mapping_eq_lookup (hsound.resolve_ne_free hcpu hsrc)]
    exact hlookup
  have hafter := h.mapping_memory hfree fun d v => by
    rw [FiniteMap.insert_ok h.valid (h.live_pgdir hfree) hinsert, hpresent]
    rfl
  exact .shared (resolve_save k s tf _ ▸ hsrc) (resolve_save k s tf _ ▸ hdst) hperm hbefore hafter
    (answers_memory k s tf mem)

omit [LawfulMemory M] [LawfulPages M] [FreshPages M] in
theorem Housed.remaps_pageUnmap (ht : (k.save s tf).resolve cpu a.first true = .ok t) :
    Remaps k cpu s a .pageUnmap (({ k.save s tf with
      memory := Memory.remove ((k.save s tf).env t).pgdir a.second.toNat k.memory } :
        State M).setResult s 0) := by
  have hfree := hsound.resolve_ne_free hcpu ht
  exact .removed (resolve_save k s tf _ ▸ ht) (h.mapping_memory hfree fun d v =>
    FiniteMap.remove h.valid (h.live_pgdir hfree) d v) (answers_memory k s tf _)

omit [LawfulPages M] [FreshPages M] in
/-- The child is a copy of its parent's registers, in a space of its own. -/
theorem Housed.remaps_exofork (htidy : Tidy k.memory) {dir : PageDir}
    (hcur : k.current cpu = some s) (hhead : ((k.save s tf).runQueue cpu).freeHead = some t)
    (hdir : Memory.createSpace k.memory = .ok dir mem) :
    Remaps k cpu s a .exofork (((k.save s tf).forked cpu s t dir mem).setResult s
      (EnvId.next ((k.save s tf).env t).lastId t).raw) := by
  have hfree := (hsound.head (hsound.queueOf_lt hcpu) hhead).2
  have hslot : (EnvId.next ((k.save s tf).env t).lastId t).slot = t := EnvId.slot_next _ t
  generalize hid : EnvId.next ((k.save s tf).env t).lastId t = id at hslot ⊢
  have hlt : id.raw.toNat < 0x80000000 := hid ▸ EnvId.raw_next_lt _ t
  subst hslot
  have hne : id.slot ≠ s := by
    intro heq
    rw [heq] at hfree
    exact hsound.current_ne_free hcpu hcur hfree
  have hforked : ∀ u, ((k.save s tf).forked cpu s id.slot dir mem).env u = _ := fun u =>
    env_forked s id.slot u dir mem
  have hself := env_setResult ((k.save s tf).forked cpu s id.slot dir mem) s id.slot id.raw
  rw [if_neg hne, hforked, if_pos rfl] at hself
  refine .made ((same_save k s _ tf).status ▸ hfree) hlt ?_ ?_ ?_ ?_ ?_ ?_
  · refine (mapping_setResult _ s _).trans ?_
    rw [h.mapping_forked htidy hfree hdir, mapping_save]
  · refine answers_setResult tf _ (fun u hu => ?_) fun u hu => ?_
    · rw [hforked, if_neg hu]
      exact ⟨rfl, rfl, rfl, rfl⟩
    · rw [hforked, if_neg hu]
  · exact congrArg Env.status hself
  · exact (congrArg Env.id hself).trans (congrArg some hid)
  · exact (congrArg Env.parent hself).trans ((sameNames_frame k s tf).id s)
  · exact congrArg (·.frame.eax) hself

omit [MemoryView M] [PageView M] [LawfulMemory M] [LawfulPages M] [FiniteMap M] [FreshPages M] h in
/-- An environment that is there and stays keeps its mappings. -/
theorem Sound.remaps_envSetStatus {st : Status} (hst : settable? a.second = some st)
    (ht : (k.save s tf).resolve cpu a.first true = .ok t) :
    Remaps k cpu s a .envSetStatus (((k.save s tf).setEnv t
      { (k.save s tf).env t with status := st }).setResult s 0) := by
  have hfree := hsound.resolve_ne_free hcpu ht
  have hkept := env_setEnv (k.save s tf) t (e := { (k.save s tf).env t with status := st })
  have hst' : st ≠ .free := by
    rcases runnable_or_of_settable hst with rfl | rfl <;> exact nofun
  refine .set hst (resolve_save k s tf _ ▸ ht) ?_ (fun hne => ?_) ?_ ?_
  · refine (same_setResult _ s t 0).status.trans ?_
    rw [hkept, if_pos rfl]
  · refine (congrArg Env.frame ((env_setResult _ s t 0).trans (if_neg hne))).trans ?_
    rw [hkept, if_pos rfl]
    change ((k.save s tf).env t).frame = _
    rw [env_save, if_neg hne]
  · rw [mapping_setResult, ← mapping_save k s tf]
    refine mapping_congr (fun u => ?_) (fun u => ?_) fun _ _ _ => rfl
    · rw [hkept]
      split
      · next hu => simp [hu, hst', hfree]
      · rfl
    · rw [hkept]
      split
      · next hu => rw [hu]
      · rfl
  · refine answers_setResult tf 0 (fun u hu => ?_) fun u hu => ?_
    · rw [hkept, if_neg hu]
      exact ⟨rfl, rfl, rfl, rfl⟩
    · rw [hkept, if_neg hu]

end Performed

omit [MemoryView M] [PageView M] [LawfulMemory M] [LawfulPages M] [FiniteMap M] [FreshPages M] in
theorem remaps_envSetUpcall (k : State M) (cpu : Nat) (s t : Slot) (tf : TrapFrame) (a : Args) :
    Remaps k cpu s a .envSetUpcall (((k.save s tf).setEnv t
      { (k.save s tf).env t with upcall := a.second.toNat }).setResult s 0) := by
  have hkept : ∀ u, Env.Same ((k.save s tf).env u) (((k.save s tf).setEnv t
      { (k.save s tf).env t with upcall := a.second.toNat }).env u) ∧
      (((k.save s tf).setEnv t { (k.save s tf).env t with upcall := a.second.toNat }).env u).frame =
        ((k.save s tf).env u).frame := fun u => by
    rw [env_setEnv]
    split
    · next hu => rw [hu]; exact ⟨⟨rfl, rfl, rfl, rfl⟩, rfl⟩
    · exact ⟨⟨rfl, rfl, rfl, rfl⟩, rfl⟩
  refine .upcall ?_ (answers_setResult tf 0 (fun u _ => (hkept u).1) fun u _ => (hkept u).2)
  rw [mapping_setResult, ← mapping_save k s tf]
  exact mapping_of_same (fun u => (hkept u).1) rfl

omit [LawfulPages M] in
/-- **A call that is performed**, by the environment of slot `s`. -/
theorem Housed.remaps_of_performs (h : Housed m₀ k) (hsound : Sound policy ncpu k)
    (ha : Accounted k.memory) (ht : Tidy k.memory) (hcpu : cpu < ncpu)
    (hcur : k.current cpu = some s) {call : Call} {c : Completion} (hcall : call.copies = true)
    (hp : Performs (k.save s tf) cpu a call c k') :
    Remaps k cpu s a call (k'.conclude s c) := by
  have hhoused : Housed m₀ (k.save s tf) := h.setEnv (Env.Alike.of_registers _ _ _).toStays
  have hsaved : Sound policy ncpu (k.save s tf) := hsound.setEnv (.of_registers _ _ _)
  cases hp with
  | getEnvId | envDestroy | yieldCpu | ipcTrySend | ipcRecv | getCpuId => cases hcall
  | pageAlloc ht _ hperm halloc hinsert =>
    exact hhoused.remaps_pageAlloc hsaved hcpu ha ht hperm halloc hinsert
  | pageMap hsrc hdst _ _ hperm hpage hinsert =>
    exact hhoused.remaps_pageMap hsaved hcpu hsrc hdst hperm hpage hinsert
  | pageUnmap ht _ => exact hhoused.remaps_pageUnmap hsaved hcpu ht
  | exofork hparent hhead hdir =>
    obtain rfl : s = _ := Option.some.inj (hcur.symm.trans hparent)
    exact hhoused.remaps_exofork hsaved hcpu ht hcur hhead hdir
  | envSetStatus hst ht => exact hsaved.remaps_envSetStatus hcpu hst ht
  | envSetUpcall _ => exact remaps_envSetUpcall k cpu s _ tf a

/-- **A call by which environments are copied** is refused and leaves all mappings, or it is performed
and leaves what `Remaps` says. -/
theorem Reached.remaps (h : Reached policy ncpu m₀ k) (hm : Valid m₀) (ha : Accounted m₀)
    (ht : Tidy m₀) (hcpu : cpu < ncpu) (hcur : k.current cpu = some s) {call : Call}
    (hcall : call.copies = true) (htf : tf.eax = call.number) :
    (∃ e k', performNumber cpu tf.eax tf.args (k.save s tf) = .error e k' ∧
      (k.syscall cpu tf).2.mapping = k.mapping ∧
      Answers k (k.syscall cpu tf).2 s (encodeResult (.error e.toCallError)) (fun _ => False)) ∨
    Remaps k cpu s tf.args call (k.syscall cpu tf).2 := by
  have hends := @answered_performNumber M (k.save s tf) cpu tf.args _ tf.eax
  cases hop : performNumber cpu tf.eax tf.args (k.save s tf) with
  | error e k' =>
    obtain ⟨hmapping, hanswers⟩ := (h.housed hm).denied h.sound hcpu (hends.of_error hop)
    rw [syscall_of_error hcur hop]
    exact .inl ⟨e, k', rfl, hmapping, hanswers⟩
  | ok c k' =>
    obtain ⟨call', hnumber, hp⟩ := hends.of_ok hop
    obtain rfl := Call.number_injective (htf.symm.trans hnumber)
    rw [syscall_of_ok hcur hop]
    exact .inr ((h.housed hm).remaps_of_performs h.sound (h.accounted hm ha) (h.tidy hm ht) hcpu
      hcur hcall hp)

omit [MemoryView M] [PageView M] [LawfulMemory M] [LawfulPages M] [FiniteMap M] [FreshPages M] in
/-- An environment that does not run is destroyed at once. -/
theorem destroy_of_waiting (hcur : k.current cpu = some s) (hne : t ≠ s)
    (hruns : (k.env t).status ≠ .running) : k.destroy cpu t = (.freed, k.free t) := by
  unfold destroy
  dsimp only
  rw [if_neg fun h => hruns h.1, if_neg]
  rw [hcur]
  exact fun h => hne (Option.some.inj h).symm

omit [LawfulPages M] [FreshPages M] in
/-- **Destroying an environment that waits** frees its slot, and unmaps what it had mapped. -/
theorem Reached.destroys (h : Reached policy ncpu m₀ k) (hm : Valid m₀) (hcpu : cpu < ncpu)
    (hcur : k.current cpu = some s) (htf : tf.eax = Call.envDestroy.number)
    (hraw : k.resolve cpu tf.args.first true = .ok t) (hne : t ≠ s)
    (hruns : (k.env t).status ≠ .running) :
    (k.syscall cpu tf).2.mapping = k.mapping.drop t ∧
      Answers k (k.syscall cpu tf).2 s 0 (· = t) ∧
      ((k.syscall cpu tf).2.env t).status = .free := by
  have hhoused : Housed m₀ (k.save s tf) :=
    (h.housed hm).setEnv (Env.Alike.of_registers _ _ _).toStays
  have hstatus := (same_save k s t tf).status
  have hfree : ((k.save s tf).env t).status ≠ .free := by
    rw [hstatus]
    exact h.sound.resolve_ne_free hcpu hraw
  have hsaved : (k.save s tf).resolve cpu tf.args.first true = .ok t :=
    (resolve_save k s tf _).trans hraw
  have hcall : performNumber cpu tf.eax tf.args (k.save s tf) =
      perform cpu .envDestroy tf.args (k.save s tf) := by
    rw [htf, performNumber, Call.ofNumber?_number]
  have hends := ends_envDestroy hsaved
  cases hop : perform cpu .envDestroy tf.args (k.save s tf) with
  | error e k' =>
    obtain ⟨_, hr, -⟩ := hends.of_error hop
    cases hr
  | ok c k' =>
    obtain ⟨text, hc, hk'⟩ := hends.of_ok hop
    have hsaid : Housed m₀ ((k.save s tf).say .debug Log.Target.calls text) :=
      hhoused.same (fun _ => .refl _) rfl
    rw [destroy_of_waiting (k := (k.save s tf).say .debug Log.Target.calls text) hcur hne
      (by rw [env_say, hstatus]; exact hruns)] at hc hk'
    cases hc
    subst hk'
    rw [syscall_of_ok hcur (hcall.trans hop)]
    have hgone := env_free ((k.save s tf).say .debug Log.Target.calls text) t
    refine ⟨?_, ?_, ?_⟩
    · refine (mapping_setResult _ s 0).trans ((hsaid.mapping_free hfree).trans ?_)
      rw [← mapping_save k s tf]
      rfl
    · refine answers_setResult tf 0 (fun u hu => ?_) fun u hu => ?_
      · rw [hgone, if_neg hu]
        exact ⟨rfl, rfl, rfl, rfl⟩
      · rw [hgone, if_neg hu]
        rfl
    · refine (same_setResult _ s t 0).status.trans ?_
      rw [hgone, if_pos rfl]

section Supplied

omit [MemoryView M] [PageView M] [LawfulMemory M] [LawfulPages M] [FiniteMap M] [FreshPages M]

/-- The page is refused by memory, if at all. -/
theorem short_of_pageAlloc (hraw : k.resolve cpu a.first true = .ok t)
    (hva : isUserPage a.second.toNat) {perm : Perm} (hperm : Perm.ofUser? a.third = some perm) :
    Ends (perform cpu .pageAlloc a) k fun r _ => ∀ e, r = .error e → ∃ short, e = .memory short := by
  simp only [perform, perform.done, pageAlloc, target, userPage, userPerm, Ends.bind_iff, Ends.get_iff,
    Op.ends_ofExcept, Op.ends_ofOption, hraw, hva, if_pos, hperm, Ends.pure_iff, Op.ends_onMemory,
    Op.ends_attempt, Ends.modify_iff, Ends.throw_iff]
  have hshort : ∀ short e, (.error (.memory short) : Except KernelError Completion) = .error e →
      ∃ short, e = .memory short := by
    rintro short e ⟨rfl⟩
    exact ⟨short, rfl⟩
  refine ⟨fun _ _ => ⟨fun _ _ _ => ⟨?_, fun short _ _ => hshort short⟩,
    fun short _ _ => hshort short⟩, ?_⟩
  · rintro _ _ _ _ ⟨⟩
  · rintro ⟨⟩

theorem short_of_pageMap {src dst : Slot} (hsrc : k.resolve cpu a.first true = .ok src)
    (hdst : k.resolve cpu a.third true = .ok dst) (hsrcva : isUserPage a.second.toNat)
    (hdstva : isUserPage a.fourth.toNat) {perm : Perm} (hperm : Perm.ofUser? a.fifth = some perm)
    {page : PhysPage} (hpage : k.shareable (k.env src).pgdir a.second.toNat perm = some page) :
    Ends (perform cpu .pageMap a) k fun r _ => ∀ e, r = .error e → ∃ short, e = .memory short := by
  simp only [perform, perform.done, pageMap, target, userPage, userPerm, Ends.bind_iff, Ends.get_iff,
    Op.ends_ofExcept, Op.ends_ofOption, hsrc, hdst, hsrcva, hdstva, if_pos, hperm, Ends.pure_iff, Op.ends_onMemory]
  refine ⟨fun p hp => ⟨fun _ _ => ⟨?_, ?_⟩, fun hnone => ?_⟩, ?_⟩
  · rintro _ _ _ _ ⟨⟩
  · rintro short _ _ e ⟨rfl⟩
    exact ⟨short, rfl⟩
  · cases hp
    cases hpage.symm.trans hnone
  · rintro ⟨⟩

theorem short_of_pageUnmap (hraw : k.resolve cpu a.first true = .ok t)
    (hva : isUserPage a.second.toNat) :
    Ends (perform cpu .pageUnmap a) k fun r _ => ∀ e, r = .error e → ∃ short, e = .memory short := by
  simp only [perform, perform.done, pageUnmap, target, userPage, Ends.bind_iff, Ends.get_iff,
    Op.ends_ofExcept, hraw, hva, if_pos, Ends.pure_iff, Ends.modify_iff]
  rintro _ ⟨⟩

end Supplied

end State

end Exokernel
