import Exokernel.Proofs.Spaces
/-!
# Which pages are in use

A page is in use from the moment it is taken until it is given back or its last mapping goes. No page
is taken that is in use, so a page that was taken and cannot be mapped can be given back, and
everything is as before. `LawfulPages` says so of a memory, beside the laws about its directories, and
counted page frames keep it. Every effect keeps the pages of the kernel's memory accounted for.
-/

namespace Exokernel

/-- What can be told of the pages of a memory. -/
class PageView (M : Type) where
  /-- No page is taken that is in use. -/
  Accounted : M → Prop
  /-- The page was taken, and has not been given back since. -/
  Taken : M → PhysPage → Prop

open MemoryView PageView

namespace Memory

variable {M : Type}

/-- The same pages are in use. -/
def SamePages [PageView M] (m m' : M) : Prop :=
  Accounted m' ∧ ∀ page, Taken m' page ↔ Taken m page

end Memory

open Memory

/-- **The laws of pages.** A page is mapped only if it is in use or mapped already. -/
class LawfulPages (M : Type) [Memory M] [MemoryView M] [PageView M] : Prop where
  createSpace_ok : ∀ {m m' : M} {dir : PageDir}, Accounted m →
    Memory.createSpace m = .ok dir m' → Accounted m'
  createSpace_error : ∀ {m m' : M} {e : MemoryError}, Accounted m →
    Memory.createSpace m = .error e m' → SamePages m m'
  destroySpace : ∀ {m : M} {dir : PageDir}, Accounted m → Live m dir →
    Accounted (Memory.destroySpace dir m)
  allocPage_ok : ∀ {m m' : M} {page : PhysPage}, Accounted m →
    Memory.allocPage m = .ok page m' →
    Accounted m' ∧ ¬ Taken m page ∧ ∀ p, Taken m' p ↔ p = page ∨ Taken m p
  allocPage_error : ∀ {m m' : M} {e : MemoryError}, Accounted m →
    Memory.allocPage m = .error e m' → SamePages m m'
  freePage : ∀ {m : M} {page : PhysPage}, Accounted m →
    Accounted (Memory.freePage page m) ∧
      ∀ p, Taken (Memory.freePage page m) p ↔ p ≠ page ∧ Taken m p
  insert_ok : ∀ {m m' : M} {dir : PageDir} {page : PhysPage} {va : Nat} {perm : Perm},
    Accounted m → Live m dir → Taken m page ∨ Mapped m page →
    Memory.insert dir page va perm m = .ok () m' →
    Accounted m' ∧ Memory.lookup m' dir va = some (page, perm ||| Perm.present)
  insert_error : ∀ {m m' : M} {dir : PageDir} {page : PhysPage} {va : Nat} {perm : Perm}
    {e : MemoryError}, Accounted m → Live m dir →
    Memory.insert dir page va perm m = .error e m' → SamePages m m'
  remove : ∀ {m : M} {dir : PageDir} {va : Nat}, Accounted m → Live m dir →
    Accounted (Memory.remove dir va m)
  loadImage : ∀ {m : M} {dir : PageDir} {image : Image}, Accounted m → Live m dir →
    Ends (Memory.loadImage dir image) m fun _ m' => Accounted m'

/-! ## Counted page frames -/

namespace Frames

/-- Pages that are counted or mapped have addresses that were given out. -/
structure Tallied (f : Frames) : Prop where
  counted : ∀ page, (f.counts.get? page).isSome → page.paddr ≤ f.lastAddress
  mapped : ∀ dir va page perm, f.mappings.get? (dir, va) = some (page, perm) →
    page.paddr ≤ f.lastAddress

instance : PageView Frames where
  Accounted := Tallied
  Taken f page := (f.counts.get? page).isSome

variable {f f' : Frames} {dir : PageDir} {page : PhysPage} {va : Nat} {perm : Perm}

namespace Tallied

/-- Neither counts nor mappings change, and addresses go on. -/
theorem same (h : Tallied f) (hcounts : f'.counts = f.counts) (hmappings : f'.mappings = f.mappings)
    (hlast : f.lastAddress ≤ f'.lastAddress) : Tallied f' where
  counted page hp := Nat.le_trans (h.counted page (by rwa [hcounts] at hp)) hlast
  mapped dir va page perm hp :=
    Nat.le_trans (h.mapped dir va page perm (by rwa [hmappings] at hp)) hlast

theorem note (h : Tallied f) (e : MemoryEvent) : Tallied (Frames.note e f) :=
  h.same rfl rfl (Nat.le_refl _)

/-- Counting a page whose address was given out. -/
theorem count (h : Tallied f) (hpage : page.paddr ≤ f.lastAddress) (n : Nat) :
    Tallied { f with counts := f.counts.insert page n } := by
  refine ⟨fun p hp => ?_, h.mapped⟩
  by_cases heq : p = page
  · rw [heq]
    exact hpage
  · rw [Assoc.get?_insert_ne _ _ heq] at hp
    exact h.counted p hp

/-- Counting a page no more. -/
theorem forget (h : Tallied f) (page : PhysPage) (contents : Assoc PhysPage UInt8) :
    Tallied { f with counts := f.counts.erase page, contents := contents } := by
  refine ⟨fun p hp => ?_, h.mapped⟩
  by_cases heq : p = page
  · subst heq
    rw [Assoc.get?_erase_self] at hp
    cases hp
  · rw [Assoc.get?_erase_ne _ heq] at hp
    exact h.counted p hp

theorem release (h : Tallied f) (hpage : page.paddr ≤ f.lastAddress) :
    Tallied (Frames.release page f) := by
  unfold Frames.release
  split
  · exact h.count hpage _
  · exact h.forget page _

theorem unmap (h : Tallied f) (dir : PageDir) (va : Nat) : Tallied (Frames.unmap dir va f) := by
  unfold Frames.unmap
  split
  · next page perm hmapped =>
    have herased : Tallied { f with mappings := f.mappings.erase (dir, va) } := by
      refine ⟨h.counted, fun d v p q hp => ?_⟩
      by_cases heq : (d, v) = (dir, va)
      · rw [heq, Assoc.get?_erase_self] at hp
        cases hp
      · rw [Assoc.get?_erase_ne _ heq] at hp
        exact h.mapped d v p q hp
    exact herased.release (h.mapped dir va page perm hmapped)
  · exact h

theorem map (h : Tallied f) (hpage : page.paddr ≤ f.lastAddress) (dir : PageDir) (va : Nat)
    (perm : Perm) : Tallied (Frames.map dir page va perm f) := by
  have hput : Tallied
      { f with counts := f.counts.insert page ((f.counts.get? page).getD 0 + 1)
               mappings := f.mappings.insert (dir, va) (page, perm ||| Perm.present) } := by
    refine ⟨(h.count hpage _).counted, fun d v p q hp => ?_⟩
    by_cases heq : (d, v) = (dir, va)
    · rw [heq, Assoc.get?_insert_self] at hp
      cases hp
      exact hpage
    · rw [Assoc.get?_insert_ne _ _ heq] at hp
      exact h.mapped d v p q hp
  unfold Frames.map
  dsimp only
  split
  · next old perm' hold => exact hput.release (h.mapped dir va old perm' hold)
  · exact hput

end Tallied

/-- An address that is given out changes no count. -/
theorem tallied_fresh (h : Tallied f) :
    f.fresh = none ∨ ∃ a f', f.fresh = some (a, f') ∧ Tallied f' ∧ f'.lastAddress = a ∧
      f.lastAddress < a ∧ f'.counts = f.counts := by
  have hlt : f.lastAddress < f.lastAddress + Layout.pageSize := Nat.lt_add_of_pos_right (by decide)
  unfold fresh
  dsimp only
  split
  · exact .inr ⟨_, _, rfl, h.same rfl rfl (Nat.le_of_lt hlt), rfl, hlt, rfl⟩
  · exact .inl rfl
  · exact .inr ⟨_, _, rfl, h.same rfl rfl (Nat.le_of_lt hlt), rfl, hlt, rfl⟩

/-- Taking a page, or not. -/
theorem tallied_allocPage (h : Tallied f) :
    Ends allocPage f fun r f' => Tallied f' ∧
      match r with
      | .ok page => f.counts.get? page = none ∧ page.paddr = f'.lastAddress ∧
          f'.counts = f.counts.insert page 0
      | .error _ => f'.counts = f.counts := by
  unfold Ends allocPage
  rcases tallied_fresh h with hnone | ⟨a, f', hfresh, hf', hlast, hlt, hcounts⟩
  · rw [hnone]
    exact ⟨h.note _, rfl⟩
  · rw [hfresh]
    refine ⟨(hf'.count (Nat.le_of_eq hlast.symm) 0).note _, ?_, hlast.symm, by rw [← hcounts]; rfl⟩
    -- what is counted lies below the address that is given out
    cases hcount : f.counts.get? ⟨a⟩ with
    | none => rfl
    | some n =>
      have := h.counted ⟨a⟩ (by rw [hcount]; rfl)
      exact absurd hlt (Nat.not_lt.2 this)

/-- Making a directory, or not. -/
theorem tallied_createSpace (h : Tallied f) :
    Ends createSpace f fun _ f' => Tallied f' ∧ f'.counts = f.counts := by
  unfold Ends createSpace
  rcases tallied_fresh h with hnone | ⟨a, f', hfresh, hf', -, -, hcounts⟩
  · rw [hnone]
    exact ⟨h.note _, rfl⟩
  · rw [hfresh]
    exact ⟨hf'.same rfl rfl (Nat.le_refl _), hcounts⟩

theorem mappings_release (page : PhysPage) (f : Frames) : (release page f).mappings = f.mappings := by
  unfold release
  split <;> rfl

theorem get?_mappings_map : (map dir page va perm f).mappings.get? (dir, va) =
    some (page, perm ||| Perm.present) := by
  unfold map
  dsimp only
  split
  · rw [mappings_release]
    exact Assoc.get?_insert_self _ _ _
  · exact Assoc.get?_insert_self _ _ _

/-- Mapping a page, or not. -/
theorem tallied_insert (h : Tallied f) :
    Ends (insert dir page va perm) f fun r f' =>
      match r with
      | .ok () => (page.paddr ≤ f.lastAddress → Tallied f') ∧
          f'.mappings.get? (dir, va) = some (page, perm ||| Perm.present)
      | .error _ => Tallied f' ∧ f'.counts = f.counts := by
  unfold Ends insert
  cases f.insertFails with
  | true => exact ⟨h.note _, rfl⟩
  | false => exact ⟨fun hpage => (h.map hpage dir va perm).note _, get?_mappings_map⟩

theorem tallied_foldl_unmap (dir : PageDir) (l : List Nat) :
    ∀ {f : Frames}, Tallied f → Tallied (l.foldl (fun f va => unmap dir va f) f) := by
  induction l with
  | nil => exact id
  | cons va l ih => exact fun h => ih (h.unmap dir va)

/-- Loading a program, or not. -/
theorem tallied_loadImage (h : Tallied f) (dir : PageDir) (image : Image) :
    Ends (loadImage dir image) f fun _ f' => Tallied f' := by
  have hnote := h.note (.load dir image)
  simp only [loadImage, Ends.bind_iff, Ends.modify_iff, Ends.ite_iff, Ends.throw_iff]
  refine ⟨fun _ => hnote, fun _ => (tallied_allocPage hnote).imp fun r f₁ h₁ => ?_⟩
  cases r with
  | error e => exact h₁.1
  | ok page =>
    obtain ⟨h₁, -, hlast, -⟩ := h₁
    have hinsert := @tallied_insert f₁ dir page (Layout.stackTop - Layout.pageSize) Perm.userWrite h₁
    refine Ends.bind_iff.2 ?_
    unfold Ends loadImage.insertOrFree
    cases hop : insert dir page (Layout.stackTop - Layout.pageSize) Perm.userWrite f₁ with
    | ok _ f₂ => exact (hinsert.of_ok hop).1 (Nat.le_of_eq hlast)
    | error e f₂ => exact ((hinsert.of_error hop).1.forget page _).note _

/-- **Counted page frames keep the laws of pages.** -/
instance : LawfulPages Frames where
  createSpace_ok h hop := ((tallied_createSpace h).of_ok hop).1
  createSpace_error h hop :=
    have hend := (tallied_createSpace h).of_error hop
    ⟨hend.1, fun page => by simp only [Taken, hend.2]⟩
  destroySpace {f dir} h _ :=
    (tallied_foldl_unmap dir _ (h.note (.destroy dir))).same rfl rfl (Nat.le_refl _)
  allocPage_ok {f f' page} h hop := by
    obtain ⟨hf', hnew, -, hcounts⟩ := (tallied_allocPage h).of_ok hop
    refine ⟨hf', by simp [Taken, hnew], fun p => ?_⟩
    simp only [Taken, hcounts]
    by_cases hp : p = page
    · simp [hp]
    · rw [Assoc.get?_insert_ne _ _ hp]
      simp [hp]
  allocPage_error h hop :=
    have hend := (tallied_allocPage h).of_error hop
    ⟨hend.1, fun page => by simp only [Taken, hend.2]⟩
  freePage {f page} h := by
    refine ⟨(h.forget page _).note _, fun p => ?_⟩
    change ((f.counts.erase page).get? p).isSome ↔ _
    by_cases hp : p = page
    · simp [hp]
    · rw [Assoc.get?_erase_ne _ hp]
      simp [hp, Taken]
  insert_ok {f f' dir page va perm} h _ hpage hop := by
    obtain ⟨hf', hmapped⟩ := (tallied_insert h).of_ok hop
    refine ⟨hf' ?_, hmapped⟩
    rcases hpage with hcount | ⟨d, v, p, -, hlookup⟩
    · exact h.counted page hcount
    · exact h.mapped d v page p hlookup
  insert_error h _ hop :=
    have hend := (tallied_insert h).of_error hop
    ⟨hend.1, fun page => by simp only [Taken, hend.2]⟩
  remove {f dir va} h _ := (h.note (.remove dir va)).unmap dir va
  loadImage {f dir image} h _ := tallied_loadImage h dir image

end Frames

/-! ## The pages of the kernel's memory -/

namespace State

variable {M : Type} [Memory M] [MemoryView M] [PageView M] [LawfulMemory M] [LawfulPages M]
  {k k' : State M} {policy : Policy} {ncpu cpu : Nat} {m₀ mem : M} {s : Slot}

theorem Housed.accounted_touches (h : Housed m₀ k) (hsound : Sound policy ncpu k) (hcpu : cpu < ncpu)
    (ha : Accounted k.memory) (hm : Touches k cpu mem) : Accounted mem := by
  have hlive : ∀ {s}, k.Governs cpu s → Live k.memory (k.env s).pgdir :=
    fun hs => h.live_pgdir (hsound.governs_ne_free hcpu hs)
  cases hm with
  | noSpace hcreate => exact (LawfulPages.createSpace_error ha hcreate).1
  | noPage halloc => exact (LawfulPages.allocPage_error ha halloc).1
  | supplied hs _ _ halloc hinsert =>
    obtain ⟨ha', -, htaken⟩ := LawfulPages.allocPage_ok ha halloc
    have hpage := LawfulMemory.allocPage_ok h.valid halloc
    exact (LawfulPages.insert_ok ha' ((hpage.live _).2 (hlive hs)) (.inl ((htaken _).2 (.inl rfl)))
      hinsert).1
  | unsupplied hs _ _ halloc hinsert =>
    obtain ⟨ha', -, -⟩ := LawfulPages.allocPage_ok ha halloc
    have hpage := LawfulMemory.allocPage_ok h.valid halloc
    have hfailed := LawfulPages.insert_error ha' ((hpage.live _).2 (hlive hs)) hinsert
    exact (LawfulPages.freePage hfailed.1).1
  | shared hsrc hdst _ _ _ hpage hinsert =>
    have hmapped := h.mapped_of_atHand hsound hcpu (atHand_of_shareable hsrc hpage)
    exact (LawfulPages.insert_ok ha (hlive hdst) (.inr hmapped) hinsert).1
  | unshared hdst _ hinsert => exact (LawfulPages.insert_error ha (hlive hdst) hinsert).1
  | removed hs _ => exact LawfulPages.remove ha (hlive hs)
  | undelivered hr _ hinsert =>
    have hfree := hsound.resolve_ne_free hcpu hr
    exact (LawfulPages.insert_error ha (h.live_pgdir hfree) hinsert).1

omit [LawfulMemory M] in
theorem Housed.accounted_free (h : Housed m₀ k) (ha : Accounted k.memory)
    (hs : (k.env s).status ≠ .free) : Accounted (k.free s).memory := by
  rw [memory_free]
  exact LawfulPages.destroySpace ha (h.live_pgdir hs)

omit [LawfulMemory M] in
theorem Housed.accounted_destroy (h : Housed m₀ k) (ha : Accounted k.memory)
    (hs : (k.env s).status ≠ .free) (cpu : Nat) : Accounted (k.destroy cpu s).2.memory := by
  rcases destroy_cases k cpu s with ⟨-, hk⟩ | ⟨-, hk⟩
  · rw [hk]
    exact ha
  · rw [hk]
    exact h.accounted_free ha hs

/-- **Every effect leaves the pages accounted for.** -/
theorem Housed.accounted_effect (h : Housed m₀ k) (hsound : Sound policy ncpu k)
    (ha : Accounted k.memory) (hk : Effect ncpu k k') : Accounted k'.memory := by
  cases hk with
  | alloc _ _ hdir => exact LawfulPages.createSpace_ok ha hdir
  | free hs => exact h.accounted_free ha hs
  | destroy hs => exact h.accounted_destroy ha hs _
  | deliver hcpu hk =>
    cases hk with
    | word => exact ha
    | page hp hr _ hoffer _ hinsert =>
      have hmapped := h.mapped_of_atHand hsound hcpu (atHand_of_offered hp hoffer)
      have hlive := h.live_pgdir (hsound.resolve_ne_free hcpu hr)
      exact (LawfulPages.insert_ok ha hlive (.inr hmapped) hinsert).1
  | move hcpu hk =>
    cases hk with
    | change hk =>
      cases hk with
      | speak => exact ha
      | touch hm => exact h.accounted_touches hsound hcpu ha hm
      | amend => exact ha
      | fork _ _ hdir => exact LawfulPages.createSpace_ok ha hdir
    | destroy hs => exact h.accounted_destroy ha (hsound.governs_ne_free hcpu hs) _
    | hush => exact ha
    | refuse hdir => exact (LawfulPages.createSpace_error ha hdir).1
    | occupy _ hdir => exact LawfulPages.createSpace_ok ha hdir
    | load _ hs hload => exact (LawfulPages.loadImage ha (h.live_pgdir hs)).of_ok hload
    | spoil _ hs hload => exact (LawfulPages.loadImage ha (h.live_pgdir hs)).of_error hload
    | launch => exact ha
    | drop _ hs => exact h.accounted_free ha hs
    | run =>
      rw [memory_running]
      exact ha

/-- **In every reached state the pages are accounted for.** -/
theorem Reached.accounted (h : Reached policy ncpu m₀ k) (hm : Valid m₀) (ha : Accounted m₀) :
    Accounted k.memory := by
  have hboth : Housed m₀ k ∧ Accounted k.memory := by
    refine h.invariant (P := fun k => Housed m₀ k ∧ Accounted k.memory) (fun k hinit => ?_)
      fun k k' hsound hk heffect => ?_
    · refine ⟨(Reached.init hinit).housed hm, ?_⟩
      obtain ⟨-, text, rfl⟩ := init_eq_ok hinit
      exact ha
    · obtain ⟨hhoused, haccounted⟩ := hk
      exact ⟨hhoused.effect hsound heffect, hhoused.accounted_effect hsound haccounted heffect⟩
  exact hboth.2

end State

end Exokernel
