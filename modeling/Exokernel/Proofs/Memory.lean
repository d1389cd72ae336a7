import Exokernel.Memory.Frames
import Exokernel.Proofs.Outcome
/-!
# What the kernel relies on of memory

Of a memory the kernel can tell which directories are there and what they map. `LawfulMemory` says
how each operation moves that: a directory is made under an address no other one has and stays until
it is destroyed, a mapping changes only where a page is mapped or unmapped, and a failing call
changes nothing. Counted page frames are such a memory.
-/

namespace Exokernel

/-- What can be told of a memory. -/
class MemoryView (M : Type) where
  /-- The memory was put together by its own operations. -/
  Valid : M → Prop
  /-- The directory was made, and has not been destroyed since. -/
  Live : M → PageDir → Prop

namespace Memory

open MemoryView

variable {M : Type} [Memory M] [MemoryView M]

/-- A directory that is there maps the page. -/
def Mapped (m : M) (page : PhysPage) : Prop :=
  ∃ dir va perm, Live m dir ∧ Memory.lookup m dir va = some (page, perm)

/-- No directory comes or goes, and what directories map stays, except where `P` allows. -/
structure Keeps (P : PageDir → Nat → Prop) (m m' : M) : Prop where
  valid : Valid m'
  live : ∀ d, Live m' d ↔ Live m d
  lookup : ∀ d va, Live m d → ¬ P d va → Memory.lookup m' d va = Memory.lookup m d va

/-- Nothing that can be told changes. -/
abbrev Unchanged (m m' : M) : Prop := Keeps (fun _ _ => False) m m'

/-- The directory `dir` is made, and nothing else changes. -/
structure Made (dir : PageDir) (m m' : M) : Prop where
  valid : Valid m'
  ne_null : dir ≠ PageDir.null
  fresh : ¬ Live m dir
  live : ∀ d, Live m' d ↔ d = dir ∨ Live m d
  lookup : ∀ d va, Live m d → Memory.lookup m' d va = Memory.lookup m d va

/-- The directory `dir` goes, and nothing else changes. -/
structure Unmade (dir : PageDir) (m m' : M) : Prop where
  valid : Valid m'
  live : ∀ d, Live m' d ↔ d ≠ dir ∧ Live m d
  lookup : ∀ d va, Live m d → d ≠ dir → Memory.lookup m' d va = Memory.lookup m d va

variable {P Q : PageDir → Nat → Prop} {m m' m'' : M}

theorem Keeps.mono (h : Keeps P m m') (hPQ : ∀ d va, P d va → Q d va) : Keeps Q m m' :=
  ⟨h.valid, h.live, fun d va hd hQ => h.lookup d va hd fun hP => hQ (hPQ d va hP)⟩

theorem Keeps.trans (h : Keeps P m m') (h' : Keeps P m' m'') : Keeps P m m'' where
  valid := h'.valid
  live d := (h'.live d).trans (h.live d)
  lookup d va hd hP :=
    (h'.lookup d va ((h.live d).2 hd) hP).trans (h.lookup d va hd hP)

/-- What changes nothing may come before anything. -/
theorem Keeps.after (h' : Keeps P m' m'') (h : Unchanged m m') : Keeps P m m'' :=
  (h.mono fun _ _ => False.elim).trans h'

end Memory

open MemoryView Memory in
/-- **The laws of memory.** Pages are mapped, unmapped and loaded only in directories that are
there, and only such directories are destroyed. -/
class LawfulMemory (M : Type) [Memory M] [MemoryView M] : Prop where
  createSpace_ok : ∀ {m m' : M} {dir : PageDir}, Valid m →
    Memory.createSpace m = .ok dir m' → Made dir m m'
  createSpace_error : ∀ {m m' : M} {e : MemoryError}, Valid m →
    Memory.createSpace m = .error e m' → Unchanged m m'
  destroySpace : ∀ {m : M} {dir : PageDir}, Valid m → Live m dir →
    Unmade dir m (Memory.destroySpace dir m)
  allocPage_ok : ∀ {m m' : M} {page : PhysPage}, Valid m →
    Memory.allocPage m = .ok page m' → Unchanged m m'
  allocPage_error : ∀ {m m' : M} {e : MemoryError}, Valid m →
    Memory.allocPage m = .error e m' → Unchanged m m'
  freePage : ∀ {m : M} {page : PhysPage}, Valid m → Unchanged m (Memory.freePage page m)
  insert_ok : ∀ {m m' : M} {dir : PageDir} {page : PhysPage} {va : Nat} {perm : Perm}, Valid m →
    Live m dir → Memory.insert dir page va perm m = .ok () m' →
    Keeps (fun d v => d = dir ∧ v = va) m m'
  insert_error : ∀ {m m' : M} {dir : PageDir} {page : PhysPage} {va : Nat} {perm : Perm}
    {e : MemoryError}, Valid m → Live m dir →
    Memory.insert dir page va perm m = .error e m' → Unchanged m m'
  remove : ∀ {m : M} {dir : PageDir} {va : Nat}, Valid m → Live m dir →
    Keeps (fun d v => d = dir ∧ v = va) m (Memory.remove dir va m)
  loadImage_ok : ∀ {m m' : M} {dir : PageDir} {image : Image} {entry : Nat}, Valid m →
    Live m dir → Memory.loadImage dir image m = .ok entry m' → Keeps (fun d _ => d = dir) m m'
  loadImage_error : ∀ {m m' : M} {dir : PageDir} {image : Image} {e : MemoryError}, Valid m →
    Live m dir → Memory.loadImage dir image m = .error e m' → Keeps (fun d _ => d = dir) m m'

/-! ## Counted page frames -/

namespace Frames

/-- Every directory was given an address of its own. -/
structure Orderly (f : Frames) : Prop where
  nodup : f.spaces.Nodup
  le : ∀ d ∈ f.spaces, d.paddr ≤ f.lastAddress

instance : MemoryView Frames where
  Valid := Orderly
  Live f d := d ∈ f.spaces

variable {f f' : Frames} {dir : PageDir} {page : PhysPage} {va : Nat} {perm : Perm}

/-- No directory comes or goes, addresses go on, and mappings stay except where `P` allows. -/
structure Like (P : PageDir → Nat → Prop) (f f' : Frames) : Prop where
  spaces : f'.spaces = f.spaces
  lastAddress : f.lastAddress ≤ f'.lastAddress
  mappings : ∀ d va, ¬ P d va → f'.mappings.get? (d, va) = f.mappings.get? (d, va)

namespace Like

variable {P Q : PageDir → Nat → Prop} {f'' : Frames}

theorem refl (f : Frames) : Like P f f := ⟨rfl, Nat.le_refl _, fun _ _ _ => rfl⟩

theorem trans (h : Like P f f') (h' : Like P f' f'') : Like P f f'' where
  spaces := h'.spaces.trans h.spaces
  lastAddress := Nat.le_trans h.lastAddress h'.lastAddress
  mappings d va hP := (h'.mappings d va hP).trans (h.mappings d va hP)

theorem mono (h : Like P f f') (hPQ : ∀ d va, P d va → Q d va) : Like Q f f' :=
  ⟨h.spaces, h.lastAddress, fun d va hQ => h.mappings d va fun hP => hQ (hPQ d va hP)⟩

theorem orderly (h : Like P f f') (hf : Orderly f) : Orderly f' := by
  refine ⟨h.spaces ▸ hf.nodup, fun d hd => ?_⟩
  rw [h.spaces] at hd
  exact Nat.le_trans (hf.le d hd) h.lastAddress

theorem keeps (h : Like P f f') (hf : Orderly f) : Memory.Keeps P f f' where
  valid := h.orderly hf
  live d := by
    change d ∈ f'.spaces ↔ d ∈ f.spaces
    rw [h.spaces]
  lookup d va _ := h.mappings d va

end Like

/-! ### The parts of the operations -/

/-- An address that is given out lies beyond all others. -/
theorem fresh_cases (f : Frames) :
    f.fresh = none ∨ ∃ a f', f.fresh = some (a, f') ∧ f.lastAddress < a ∧
      f'.lastAddress = a ∧ f'.spaces = f.spaces ∧ f'.mappings = f.mappings := by
  have hlt : f.lastAddress < f.lastAddress + Layout.pageSize := Nat.lt_add_of_pos_right (by decide)
  unfold fresh
  dsimp only
  split
  · exact .inr ⟨_, _, rfl, hlt, rfl, rfl, rfl⟩
  · exact .inl rfl
  · exact .inr ⟨_, _, rfl, hlt, rfl, rfl, rfl⟩

theorem like_release (page : PhysPage) (f : Frames) : Like (fun _ _ => False) f (release page f) := by
  unfold release
  split <;> exact ⟨rfl, Nat.le_refl _, fun _ _ _ => rfl⟩

/-- Unmapping a page touches its own mapping only. -/
theorem like_unmap (dir : PageDir) (va : Nat) (f : Frames) :
    Like (fun d v => d = dir ∧ v = va) f (unmap dir va f) := by
  unfold unmap
  split
  · have herase : Like (fun d v => d = dir ∧ v = va) f
        { f with mappings := f.mappings.erase (dir, va) } := by
      refine ⟨rfl, Nat.le_refl _, fun d v hdv => ?_⟩
      have hne : (d, v) ≠ (dir, va) := fun heq => hdv (Prod.mk.injEq .. ▸ heq)
      exact Assoc.get?_erase_ne _ hne
    exact herase.trans ((like_release _ _).mono nofun)
  · exact .refl f

/-- Mapping a page touches its own mapping only. -/
theorem like_map (dir : PageDir) (page : PhysPage) (va : Nat) (perm : Perm) (f : Frames) :
    Like (fun d v => d = dir ∧ v = va) f (map dir page va perm f) := by
  have hset : Like (fun d v => d = dir ∧ v = va) f
      { f with counts := f.counts.insert page ((f.counts.get? page).getD 0 + 1)
               mappings := f.mappings.insert (dir, va) (page, perm ||| Perm.present) } := by
    refine ⟨rfl, Nat.le_refl _, fun d v hdv => ?_⟩
    have hne : (d, v) ≠ (dir, va) := fun heq => hdv (Prod.mk.injEq .. ▸ heq)
    exact Assoc.get?_insert_ne _ _ hne
  unfold map
  dsimp only
  split
  · exact hset.trans ((like_release _ _).mono nofun)
  · exact hset

/-- Unmapping pages of a directory, one after the other, leaves the other directories alone. -/
theorem like_foldl_unmap (dir : PageDir) (l : List Nat) :
    ∀ f : Frames, Like (fun d _ => d = dir) f (l.foldl (fun f va => unmap dir va f) f) := by
  induction l with
  | nil => exact fun f => .refl f
  | cons va l ih => exact fun f => ((like_unmap dir va f).mono fun _ _ h => h.1).trans (ih _)

theorem like_note (e : MemoryEvent) (f : Frames) : Like (fun _ _ => False) f (note e f) :=
  ⟨rfl, Nat.le_refl _, fun _ _ _ => rfl⟩

/-- Making a directory, or not. -/
theorem ends_createSpace (f : Frames) :
    Ends createSpace f fun r f' =>
      match r with
      | .ok dir => f.lastAddress < dir.paddr ∧ f'.lastAddress = dir.paddr ∧
          f'.spaces = f.spaces ++ [dir] ∧ f'.mappings = f.mappings
      | .error _ => Like (fun _ _ => False) f f' := by
  unfold Ends createSpace
  rcases fresh_cases f with h | ⟨a, f', h, ha, hlast, hspaces, hmappings⟩
  · rw [h]
    exact like_note _ f
  · rw [h]
    exact ⟨ha, hlast, congrArg (· ++ [(⟨a⟩ : PageDir)]) hspaces, hmappings⟩

/-- Taking a page, or not, keeps directories and mappings. -/
theorem ends_allocPage (f : Frames) :
    Ends allocPage f fun _ f' => Like (fun _ _ => False) f f' := by
  unfold Ends allocPage
  rcases fresh_cases f with h | ⟨a, f', h, ha, hlast, hspaces, hmappings⟩
  · rw [h]
    exact like_note _ f
  · rw [h]
    refine ⟨hspaces, ?_, fun d va _ => congrArg (·.get? (d, va)) hmappings⟩
    change f.lastAddress ≤ f'.lastAddress
    omega

theorem like_freePage (page : PhysPage) (f : Frames) :
    Like (fun _ _ => False) f (freePage page f) :=
  ⟨rfl, Nat.le_refl _, fun _ _ _ => rfl⟩

/-- A page is mapped, or nothing is. -/
theorem ends_insert (dir : PageDir) (page : PhysPage) (va : Nat) (perm : Perm) (f : Frames) :
    Ends (insert dir page va perm) f fun r f' =>
      match r with
      | .ok () => Like (fun d v => d = dir ∧ v = va) f f'
      | .error _ => Like (fun _ _ => False) f f' := by
  unfold Ends insert
  cases hfails : f.insertFails with
  | true => exact like_note _ f
  | false => exact (like_map dir page va perm f).trans ((like_note _ _).mono nofun)

/-- Mapping a stack touches the mappings of its own directory only. -/
theorem ends_insertOrFree (dir : PageDir) (page : PhysPage) (f : Frames) :
    Ends (loadImage.insertOrFree dir page) f fun _ f' => Like (fun d _ => d = dir) f f' := by
  have hinsert := ends_insert dir page (Layout.stackTop - Layout.pageSize) Perm.userWrite f
  unfold Ends loadImage.insertOrFree
  cases h : insert dir page (Layout.stackTop - Layout.pageSize) Perm.userWrite f with
  | ok _ f' => exact (hinsert.of_ok h).mono fun _ _ hd => hd.1
  | error e f' => exact ((hinsert.of_error h).trans (like_freePage page f')).mono nofun

/-- Loading a program touches the mappings of its own directory only. -/
theorem ends_loadImage (dir : PageDir) (image : Image) (f : Frames) :
    Ends (loadImage dir image) f fun _ f' => Like (fun d _ => d = dir) f f' := by
  have hnote : Like (fun d _ => d = dir) f (note (.load dir image) f) := (like_note _ f).mono nofun
  simp only [loadImage, Ends.bind_iff, Ends.modify_iff, Ends.ite_iff, Ends.throw_iff]
  refine ⟨fun _ => hnote, fun _ => ?_⟩
  refine (ends_allocPage _).imp fun r f' halloc => ?_
  have hpage := hnote.trans (halloc.mono nofun)
  cases r with
  | error e => exact hpage
  | ok page =>
    refine Ends.bind_iff.2 ((ends_insertOrFree dir page f').imp fun r f'' hinsert => ?_)
    cases r with
    | error e => exact hpage.trans hinsert
    | ok => exact hpage.trans hinsert

/-- A directory is destroyed by unmapping its pages. -/
theorem destroySpace_eq (dir : PageDir) (f : Frames) :
    ∃ f', Like (fun d _ => d = dir) f f' ∧
      destroySpace dir f = { f' with spaces := f'.spaces.erase dir } :=
  ⟨_, ((like_note (.destroy dir) f).mono nofun).trans (like_foldl_unmap dir _ _), rfl⟩

/-- **Counted page frames are a memory** in the sense of the laws. -/
instance : LawfulMemory Frames where
  createSpace_ok {f f' dir} hf h := by
    obtain ⟨ha, hlast, hspaces, hmappings⟩ := (ends_createSpace f).of_ok h
    -- addresses only go up, so a new one lies beyond those of all directories
    have hbeyond : ∀ d ∈ f.spaces, d.paddr < dir.paddr := by
      intro d hd
      exact Nat.lt_of_le_of_lt (hf.le d hd) ha
    have hnew : dir ∉ f.spaces := fun hd => Nat.lt_irrefl _ (hbeyond dir hd)
    refine ⟨⟨?_, fun d hd => ?_⟩, ?_, hnew, fun d => ?_, fun d va _ => ?_⟩
    · rw [hspaces, List.nodup_append]
      refine ⟨hf.nodup, by simp, fun d hd d' hd' heq => hnew ?_⟩
      rwa [← List.mem_singleton.1 hd', ← heq]
    · rw [hspaces, List.mem_append, List.mem_singleton] at hd
      rw [hlast]
      rcases hd with hd | rfl
      · exact Nat.le_of_lt (hbeyond d hd)
      · exact Nat.le_refl _
    · rintro rfl
      exact Nat.not_lt_zero _ ha
    · change d ∈ f'.spaces ↔ d = dir ∨ d ∈ f.spaces
      rw [hspaces, List.mem_append, List.mem_singleton, or_comm]
    · exact congrArg (·.get? (d, va)) hmappings
  createSpace_error {f f' e} hf h := ((ends_createSpace f).of_error h).keeps hf
  destroySpace {f dir} hf hdir := by
    obtain ⟨f', hlike, heq⟩ := destroySpace_eq dir f
    have hf' := hlike.orderly hf
    change Memory.Unmade dir f (destroySpace dir f)
    rw [heq]
    refine ⟨⟨hf'.nodup.erase dir, fun d hd => hf'.le d (List.mem_of_mem_erase hd)⟩, fun d => ?_,
      fun d va _ hd => hlike.mappings d va hd⟩
    change d ∈ f'.spaces.erase dir ↔ d ≠ dir ∧ d ∈ f.spaces
    rw [hf'.nodup.mem_erase_iff, hlike.spaces]
  allocPage_ok {f f' page} hf h := ((ends_allocPage f).of_ok h).keeps hf
  allocPage_error {f f' e} hf h := ((ends_allocPage f).of_error h).keeps hf
  freePage {f page} hf := (like_freePage page f).keeps hf
  insert_ok {f f' dir page va perm} hf _ h := ((ends_insert dir page va perm f).of_ok h).keeps hf
  insert_error {f f' dir page va perm e} hf _ h :=
    ((ends_insert dir page va perm f).of_error h).keeps hf
  remove {f dir va} hf _ :=
    (((like_note (.remove dir va) f).mono nofun).trans (like_unmap dir va _)).keeps hf
  loadImage_ok {f f' dir image entry} hf _ h := ((ends_loadImage dir image f).of_ok h).keeps hf
  loadImage_error {f f' dir image e} hf _ h := ((ends_loadImage dir image f).of_error h).keeps hf

end Frames

end Exokernel
