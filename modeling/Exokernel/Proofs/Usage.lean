import Exokernel.Proofs.Memory
/-!
# Memory used as it asks

Memory asks something of those who use it. A directory that is named has to be there, a page that is
mapped has to be in use, and a page that is given back must never have been mapped. What is not used
so may do anything, and need never be valid again. `MemoryContract` promises what `LawfulMemory` does,
but only to those who keep to that. What is proved of the kernel from the contract alone shows that
the kernel keeps to it: its memory would not be valid otherwise. Page frames that remember for good
whether they were misused are such a memory.
-/

namespace Exokernel

variable {M : Type}

open MemoryView Memory in
/-- **The contract of memory.** -/
class MemoryContract (M : Type) [Memory M] [MemoryView M] where
  /-- The page was taken, and has not been mapped since. -/
  Spare : M → PhysPage → Prop
  createSpace_ok : ∀ {m m' : M} {dir : PageDir}, Valid m →
    Memory.createSpace m = .ok dir m' → Made dir m m'
  createSpace_error : ∀ {m m' : M} {e : MemoryError}, Valid m →
    Memory.createSpace m = .error e m' → Unchanged m m'
  destroySpace : ∀ {m : M} {dir : PageDir}, Valid m → Live m dir →
    Unmade dir m (Memory.destroySpace dir m)
  allocPage_ok : ∀ {m m' : M} {page : PhysPage}, Valid m →
    Memory.allocPage m = .ok page m' → Unchanged m m' ∧ Spare m' page
  allocPage_error : ∀ {m m' : M} {e : MemoryError}, Valid m →
    Memory.allocPage m = .error e m' → Unchanged m m'
  freePage : ∀ {m : M} {page : PhysPage}, Valid m → Spare m page →
    Unchanged m (Memory.freePage page m)
  insert_ok : ∀ {m m' : M} {dir : PageDir} {page : PhysPage} {va : Nat} {perm : Perm}, Valid m →
    Live m dir → Spare m page ∨ Mapped m page → Memory.insert dir page va perm m = .ok () m' →
    Keeps (fun d v => d = dir ∧ v = va) m m'
  insert_error : ∀ {m m' : M} {dir : PageDir} {page : PhysPage} {va : Nat} {perm : Perm}
    {e : MemoryError}, Valid m → Live m dir → Spare m page ∨ Mapped m page →
    Memory.insert dir page va perm m = .error e m' →
    Unchanged m m' ∧ (Spare m page → Spare m' page)
  remove : ∀ {m : M} {dir : PageDir} {va : Nat}, Valid m → Live m dir →
    Keeps (fun d v => d = dir ∧ v = va) m (Memory.remove dir va m)
  loadImage_ok : ∀ {m m' : M} {dir : PageDir} {image : Image} {entry : Nat}, Valid m →
    Live m dir → Memory.loadImage dir image m = .ok entry m' → Keeps (fun d _ => d = dir) m m'
  loadImage_error : ∀ {m m' : M} {dir : PageDir} {image : Image} {e : MemoryError}, Valid m →
    Live m dir → Memory.loadImage dir image m = .error e m' → Keeps (fun d _ => d = dir) m m'

/-- A memory that keeps its laws however it is used keeps the contract. -/
instance (priority := low) [Memory M] [MemoryView M] [LawfulMemory M] : MemoryContract M where
  Spare _ _ := True
  createSpace_ok := LawfulMemory.createSpace_ok
  createSpace_error := LawfulMemory.createSpace_error
  destroySpace := LawfulMemory.destroySpace
  allocPage_ok hm h := ⟨LawfulMemory.allocPage_ok hm h, trivial⟩
  allocPage_error := LawfulMemory.allocPage_error
  freePage hm _ := LawfulMemory.freePage hm
  insert_ok hm hdir _ := LawfulMemory.insert_ok hm hdir
  insert_error hm hdir _ h := ⟨LawfulMemory.insert_error hm hdir h, fun _ => trivial⟩
  remove := LawfulMemory.remove
  loadImage_ok := LawfulMemory.loadImage_ok
  loadImage_error := LawfulMemory.loadImage_error

/-! ## Watched page frames -/

/-- Page frames that remember for good whether they were misused. -/
structure WatchedFrames where
  frames : Frames := {}
  misused : Bool := false

namespace WatchedFrames

/-- The frames after an operation, for which they had to be such as `p` says. -/
def watch (p : Frames → Prop) [DecidablePred p] (f : Frames) (w : WatchedFrames) : WatchedFrames where
  frames := f
  misused := w.misused || !decide (p w.frames)

/-- An operation that may fail, for which the frames have to be such as `p` says. -/
def watched {α : Type} (p : Frames → Prop) [DecidablePred p] (x : EStateM MemoryError Frames α) :
    EStateM MemoryError WatchedFrames α :=
  focus frames (watch p) x

/-- The page was taken, and is mapped nowhere. -/
def IsSpare (page : PhysPage) (f : Frames) : Prop := f.counts.get? page = some 0

instance (page : PhysPage) : DecidablePred (IsSpare page) := fun f =>
  inferInstanceAs (Decidable (f.counts.get? page = some 0))

/-- A directory maps the page. -/
def IsMapped (page : PhysPage) (f : Frames) : Prop := ∃ e ∈ f.mappings.entries, e.2.1 = page

instance (page : PhysPage) : DecidablePred (IsMapped page) := fun f =>
  inferInstanceAs (Decidable (∃ e ∈ f.mappings.entries, e.2.1 = page))

instance : Memory WatchedFrames where
  createSpace := watched (fun _ => True) Frames.createSpace
  destroySpace dir w := watch (dir ∈ ·.spaces) (w.frames.destroySpace dir) w
  allocPage := watched (fun _ => True) Frames.allocPage
  freePage page w := watch (IsSpare page) (w.frames.freePage page) w
  insert dir page va perm :=
    watched (fun f => dir ∈ f.spaces ∧ (IsSpare page f ∨ IsMapped page f))
      (Frames.insert dir page va perm)
  lookup w dir va := w.frames.mappings.get? (dir, va)
  remove dir va w := watch (dir ∈ ·.spaces) (w.frames.remove dir va) w
  loadImage dir image := watched (dir ∈ ·.spaces) (Frames.loadImage dir image)

instance : MemoryView WatchedFrames where
  Valid w := w.frames.Orderly ∧ w.misused = false
  Live w d := d ∈ w.frames.spaces

open MemoryView Memory

variable {α : Type} {w w' : WatchedFrames} {f : Frames} {p : Frames → Prop} [DecidablePred p]
  {P : PageDir → Nat → Prop} {dir : PageDir} {page : PhysPage} {x : EStateM MemoryError Frames α}

theorem misused_watch (h : w.misused = false) (hp : p w.frames) : (watch p f w).misused = false := by
  simp only [watch, h, decide_eq_true hp, Bool.not_true, Bool.or_false]

theorem exists_of_watched_ok {a : α} (h : watched p x w = .ok a w') :
    ∃ f, x w.frames = .ok a f ∧ w' = watch p f w := by
  unfold watched focus at h
  cases hx : x w.frames with
  | ok b f =>
    rw [hx] at h
    cases h
    exact ⟨f, rfl, rfl⟩
  | error e f =>
    rw [hx] at h
    cases h

theorem exists_of_watched_error {e : MemoryError} (h : watched p x w = .error e w') :
    ∃ f, x w.frames = .error e f ∧ w' = watch p f w := by
  unfold watched focus at h
  cases hx : x w.frames with
  | ok b f =>
    rw [hx] at h
    cases h
  | error e f =>
    rw [hx] at h
    cases h
    exact ⟨f, rfl, rfl⟩

/-! What the frames do as they were used, the watched frames do. -/

theorem keeps_watch (hw : Valid w) (hp : p w.frames) (h : Keeps P w.frames f) :
    Keeps P w (watch p f w) :=
  ⟨⟨h.valid, misused_watch hw.2 hp⟩, h.live, h.lookup⟩

theorem made_watch (hw : Valid w) (hp : p w.frames) (h : Made dir w.frames f) :
    Made dir w (watch p f w) :=
  ⟨⟨h.valid, misused_watch hw.2 hp⟩, h.ne_null, h.fresh, h.live, h.lookup⟩

theorem unmade_watch (hw : Valid w) (hp : p w.frames) (h : Unmade dir w.frames f) :
    Unmade dir w (watch p f w) :=
  ⟨⟨h.valid, misused_watch hw.2 hp⟩, h.live, h.lookup⟩

/-- A page that was just taken is mapped nowhere. -/
theorem isSpare_of_allocPage {f' : Frames} (h : Frames.allocPage f = .ok page f') :
    IsSpare page f' := by
  unfold Frames.allocPage at h
  split at h
  · cases h
    exact Assoc.get?_insert_self _ _ _
  · cases h

/-- A page that could not be mapped is not mapped. -/
theorem isSpare_of_insert_error {f' : Frames} {other : PhysPage} {va : Nat} {perm : Perm}
    {e : MemoryError} (h : Frames.insert dir other va perm f = .error e f') (hp : IsSpare page f) :
    IsSpare page f' := by
  unfold Frames.insert at h
  split at h
  · cases h
    exact hp
  · cases h

theorem isMapped_of_mapped (h : Mapped w page) : IsMapped page w.frames := by
  obtain ⟨d, va, perm, -, hlookup⟩ := h
  exact ⟨((d, va), page, perm), Assoc.mem_entries_of_get? hlookup, rfl⟩

/-- **Watched page frames keep the contract.** -/
instance : MemoryContract WatchedFrames where
  Spare w page := IsSpare page w.frames
  createSpace_ok hw h := by
    obtain ⟨f, hf, rfl⟩ := exists_of_watched_ok h
    exact made_watch hw trivial (LawfulMemory.createSpace_ok hw.1 hf)
  createSpace_error hw h := by
    obtain ⟨f, hf, rfl⟩ := exists_of_watched_error h
    exact keeps_watch hw trivial (LawfulMemory.createSpace_error hw.1 hf)
  destroySpace hw hdir := unmade_watch hw hdir (LawfulMemory.destroySpace hw.1 hdir)
  allocPage_ok hw h := by
    obtain ⟨f, hf, rfl⟩ := exists_of_watched_ok h
    exact ⟨keeps_watch hw trivial (LawfulMemory.allocPage_ok hw.1 hf), isSpare_of_allocPage hf⟩
  allocPage_error hw h := by
    obtain ⟨f, hf, rfl⟩ := exists_of_watched_error h
    exact keeps_watch hw trivial (LawfulMemory.allocPage_error hw.1 hf)
  freePage hw hpage := keeps_watch hw hpage (LawfulMemory.freePage hw.1)
  insert_ok hw hdir hpage h := by
    obtain ⟨f, hf, rfl⟩ := exists_of_watched_ok h
    exact keeps_watch hw ⟨hdir, hpage.imp_right isMapped_of_mapped⟩
      (LawfulMemory.insert_ok hw.1 hdir hf)
  insert_error hw hdir hpage h := by
    obtain ⟨f, hf, rfl⟩ := exists_of_watched_error h
    have hused := hpage.imp_right isMapped_of_mapped
    exact ⟨keeps_watch hw ⟨hdir, hused⟩ (LawfulMemory.insert_error hw.1 hdir hf),
      isSpare_of_insert_error hf⟩
  remove hw hdir := keeps_watch hw hdir (LawfulMemory.remove hw.1 hdir)
  loadImage_ok hw hdir h := by
    obtain ⟨f, hf, rfl⟩ := exists_of_watched_ok h
    exact keeps_watch hw hdir (LawfulMemory.loadImage_ok hw.1 hdir hf)
  loadImage_error hw hdir h := by
    obtain ⟨f, hf, rfl⟩ := exists_of_watched_error h
    exact keeps_watch hw hdir (LawfulMemory.loadImage_error hw.1 hdir hf)

end WatchedFrames

end Exokernel
