import Exokernel.Proofs.Mailboxes
/-!
# The rights of pages

A page gets into an address space in three ways: it is taken for one, it is mapped from one that the
caller has authority over, or it is sent to an environment that waits for it. Each way checks the
permission for itself. `Maps` tells the three ways apart, and it is all a system call does to what
is mapped (`Housed.maps_of_syscall`), in a memory that is a finite map (`FiniteMap`). The address a
message goes to was checked when the receiver asked, in a call of its own, so what is known of it
comes from the history (`Past.awaits`).
-/

namespace Exokernel

open MemoryView PageView Memory

namespace Memory

variable {M : Type} [Memory M]

/-- The same pages are mapped everywhere, with the same permissions. -/
def SameMappings (m m' : M) : Prop := ∀ d va, Memory.lookup m' d va = Memory.lookup m d va

/-- The page is mapped for writing somewhere. -/
def Writable (m : M) (page : PhysPage) : Prop :=
  ∃ d va perm, Memory.lookup m d va = some (page, perm) ∧ perm.contains Perm.write = true

end Memory

/-- **Memory as a finite map** from directories and addresses to pages with permissions: each operation
changes the entries it says, and no other one. What loading a program maps was not in use before. -/
class FiniteMap (M : Type) [Memory M] [MemoryView M] [PageView M] : Prop where
  createSpace : ∀ {m : M}, Valid m → Ends Memory.createSpace m fun _ m' =>
    SameMappings m m' ∧ ∀ page, Taken m page → Taken m' page
  destroySpace : ∀ {m : M} {dir : PageDir}, Valid m → Live m dir → ∀ d va,
    Memory.lookup (Memory.destroySpace dir m) d va = if d = dir then none else Memory.lookup m d va
  allocPage : ∀ {m : M}, Valid m → Ends Memory.allocPage m fun _ m' => SameMappings m m'
  freePage : ∀ {m : M} {page : PhysPage}, Valid m → SameMappings m (Memory.freePage page m)
  insert_ok : ∀ {m m' : M} {dir : PageDir} {page : PhysPage} {va : Nat} {perm : Perm}, Valid m →
    Live m dir → Memory.insert dir page va perm m = .ok () m' → ∀ d v,
    Memory.lookup m' d v =
      if d = dir ∧ v = va then some (page, perm ||| Perm.present) else Memory.lookup m d v
  insert_error : ∀ {m m' : M} {dir : PageDir} {page : PhysPage} {va : Nat} {perm : Perm}
    {e : MemoryError}, Valid m → Live m dir → Memory.insert dir page va perm m = .error e m' →
    SameMappings m m'
  remove : ∀ {m : M} {dir : PageDir} {va : Nat}, Valid m → Live m dir → ∀ d v,
    Memory.lookup (Memory.remove dir va m) d v =
      if d = dir ∧ v = va then none else Memory.lookup m d v
  loadImage : ∀ {m : M} {dir : PageDir} {image : Image}, Valid m → Accounted m → Live m dir →
    Ends (Memory.loadImage dir image) m fun _ m' => ∀ d va page perm,
      Memory.lookup m' d va = some (page, perm) →
        Memory.lookup m d va = some (page, perm) ∨ ¬ Taken m page

/-! ## Counted page frames -/

namespace Frames

variable {f f' : Frames} {dir d : PageDir} {page : PhysPage} {va v : Nat} {perm : Perm}

theorem Like.same (h : Like (fun _ _ => False) f f') : SameMappings f f' :=
  fun d va => h.mappings d va id

theorem get?_map (dir : PageDir) (page : PhysPage) (va : Nat) (perm : Perm) (f : Frames) :
    (map dir page va perm f).mappings.get? (d, v) =
      if d = dir ∧ v = va then some (page, perm ||| Perm.present) else f.mappings.get? (d, v) := by
  split
  · next h =>
    rw [h.1, h.2]
    exact get?_mappings_map
  · next h => exact (like_map dir page va perm f).mappings d v h

theorem get?_unmap (dir : PageDir) (va : Nat) (f : Frames) :
    (unmap dir va f).mappings.get? (d, v) =
      if d = dir ∧ v = va then none else f.mappings.get? (d, v) := by
  split
  · next h =>
    rw [h.1, h.2]
    unfold unmap
    split
    · rw [mappings_release]
      exact Assoc.get?_erase_self _ _
    · next hnone => exact hnone
  · next h => exact (like_unmap dir va f).mappings d v h

theorem get?_foldl_unmap (dir : PageDir) (l : List Nat) : ∀ f : Frames,
    (l.foldl (fun f va => unmap dir va f) f).mappings.get? (d, v) =
      if d = dir ∧ v ∈ l then none else f.mappings.get? (d, v) := by
  induction l with
  | nil => simp
  | cons va l ih =>
    intro f
    rw [List.foldl_cons, ih, get?_unmap]
    by_cases hd : d = dir
    · by_cases hva : v = va
      · simp [hd, hva]
      · simp [hd, hva]
    · simp [hd]

/-- What a directory maps is among its addresses. -/
theorem mem_addresses {x : PhysPage × Perm} (h : f.mappings.get? (dir, va) = some x) :
    va ∈ f.addresses dir := by
  have hentry := Assoc.mem_entries_of_get? h
  refine List.mem_map.2 ⟨_, List.mem_filter.2 ⟨hentry, ?_⟩, rfl⟩
  exact decide_eq_true rfl

theorem get?_destroySpace (dir : PageDir) (f : Frames) :
    (destroySpace dir f).mappings.get? (d, v) =
      if d = dir then none else f.mappings.get? (d, v) := by
  change ((f.addresses dir).foldl (fun f va => unmap dir va f) (note (.destroy dir) f)).mappings.get?
    (d, v) = _
  rw [get?_foldl_unmap]
  by_cases hd : d = dir
  · subst hd
    rw [if_pos rfl]
    by_cases hv : v ∈ f.addresses d
    · rw [if_pos ⟨rfl, hv⟩]
    · rw [if_neg fun h => hv h.2]
      change f.mappings.get? (d, v) = none
      cases hget : f.mappings.get? (d, v) with
      | none => rfl
      | some x => exact absurd (mem_addresses hget) hv
  · rw [if_neg hd, if_neg fun h => hd h.1]
    rfl

/-- A page is mapped, or nothing is. -/
theorem ends_map_insert (dir : PageDir) (page : PhysPage) (va : Nat) (perm : Perm) (f : Frames) :
    Ends (insert dir page va perm) f fun r f' =>
      match r with
      | .ok () => ∀ d v, f'.mappings.get? (d, v) =
          if d = dir ∧ v = va then some (page, perm ||| Perm.present) else f.mappings.get? (d, v)
      | .error _ => SameMappings f f' := by
  unfold Ends insert
  cases f.insertFails with
  | true => exact (like_note _ f).same
  | false => exact fun d v => get?_map dir page va perm f

/-- Making a directory, or not, takes no page. -/
theorem counts_createSpace (f : Frames) :
    Ends createSpace f fun _ f' => f'.counts = f.counts := by
  unfold Ends createSpace fresh
  dsimp only
  cases f.budget with
  | none => rfl
  | some n => cases n <;> rfl

/-- A program is loaded on pages of its own. -/
theorem ends_loadImage_new (h : Tallied f) (dir : PageDir) (image : Image) :
    Ends (loadImage dir image) f fun _ f' => ∀ d va page perm,
      f'.mappings.get? (d, va) = some (page, perm) →
        f.mappings.get? (d, va) = some (page, perm) ∨ ¬ (f.counts.get? page).isSome := by
  simp only [loadImage, Ends.bind_iff, Ends.modify_iff, Ends.ite_iff, Ends.throw_iff]
  refine ⟨fun _ d va page perm hget => .inl hget, fun _ => ?_⟩
  have hnote := h.note (.load dir image)
  refine ((tallied_allocPage hnote).and (ends_allocPage (note (.load dir image) f))).imp
    fun r f₁ h₁ => ?_
  obtain ⟨h₁, hlike⟩ := h₁
  have hsame : ∀ d va, f₁.mappings.get? (d, va) = f.mappings.get? (d, va) := hlike.same
  cases r with
  | error e => exact fun d va page perm hget => .inl ((hsame d va).symm.trans hget)
  | ok stack =>
    obtain ⟨-, hnew, -, -⟩ := h₁
    -- the stack is mapped, or its page is given back
    have hstack : Ends (loadImage.insertOrFree dir stack) f₁ fun _ f₂ => ∀ d va page perm,
        f₂.mappings.get? (d, va) = some (page, perm) →
          f₁.mappings.get? (d, va) = some (page, perm) ∨ page = stack := by
      have hinsert := ends_map_insert dir stack (Layout.stackTop - Layout.pageSize) Perm.userWrite f₁
      unfold Ends loadImage.insertOrFree
      cases hop : insert dir stack (Layout.stackTop - Layout.pageSize) Perm.userWrite f₁ with
      | ok _ f₂ =>
        intro d va page perm hget
        rw [hinsert.of_ok hop] at hget
        split at hget
        · cases hget
          exact .inr rfl
        · exact .inl hget
      | error e f₂ =>
        intro d va page perm hget
        have hback := ((like_freePage stack f₂).same d va).symm.trans hget
        exact .inl ((hinsert.of_error hop d va).symm.trans hback)
    refine Ends.bind_iff.2 (hstack.imp fun r f₂ h₂ => ?_)
    have hwhole : ∀ d va page perm, f₂.mappings.get? (d, va) = some (page, perm) →
        f.mappings.get? (d, va) = some (page, perm) ∨ ¬ (f.counts.get? page).isSome := by
      intro d va page perm hget
      rcases h₂ d va page perm hget with hold | rfl
      · exact .inl ((hsame d va).symm.trans hold)
      · have hnone : f.counts.get? page = none := hnew
        exact .inr (by simp [hnone])
    cases r with
    | error e => exact hwhole
    | ok => exact hwhole

/-- **Counted page frames are a finite map.** -/
instance : FiniteMap Frames where
  createSpace {f} _ := by
    refine ((ends_createSpace f).and (counts_createSpace f)).imp fun r f' hr => ?_
    obtain ⟨hend, hcounts⟩ := hr
    refine ⟨fun d va => ?_, fun page hpage => ?_⟩
    · cases r with
      | ok dir => exact congrArg (·.get? (d, va)) hend.2.2.2
      | error e => exact Like.same hend d va
    · change (f'.counts.get? page).isSome
      rw [hcounts]
      exact hpage
  destroySpace {f dir} _ _ d va := get?_destroySpace dir f
  allocPage {f} _ := (ends_allocPage f).imp fun _ _ hlike => hlike.same
  freePage {f page} _ := (like_freePage page f).same
  insert_ok {f f' dir page va perm} _ _ hop := (ends_map_insert dir page va perm f).of_ok hop
  insert_error {f f' dir page va perm e} _ _ hop := (ends_map_insert dir page va perm f).of_error hop
  remove {f dir va} _ _ d v := get?_unmap dir va (note (.remove dir va) f)
  loadImage {f dir image} _ ha _ := ends_loadImage_new ha dir image

end Frames

/-- The permission a user asks for lets user code read a page that is present, and has no bit outside
the user's. -/
theorem Perm.rights_of_ofUser? {raw : UInt32} {perm : Perm} (h : Perm.ofUser? raw = some perm) :
    perm.contains Perm.userRead = true ∧ Perm.userBits.contains perm = true := by
  simp only [Perm.ofUser?, Option.ite_none_right_eq_some, Bool.and_eq_true] at h
  obtain ⟨hrights, h⟩ := h
  obtain rfl := Option.some.inj h
  exact hrights

namespace State

variable {M : Type} [Memory M] {k k' : State M} {policy : Policy} {ncpu cpu : Nat} {m₀ : M}
  {s : Slot} {tf : TrapFrame} {a : Args} {d : PageDir} {va : Nat} {page : PhysPage} {perm : Perm}

/-! ## What a call maps -/

/-- **How a call comes to map a page** at an address of a directory. -/
inductive Maps (k : State M) (cpu : Nat) (a : Args) (page : PhysPage) (perm : Perm) :
    Call → PageDir → Nat → Prop
  /-- The page is new. -/
  | supplied {s : Slot} {va : Nat} {mem : M} : k.Governs cpu s → isUserPage va →
      Memory.allocPage k.memory = .ok page mem →
      Maps k cpu a page perm .pageAlloc (k.env s).pgdir va
  /-- An environment under the authority of the caller has it, and so has another one then. -/
  | shared {src dst : Slot} {srcva dstva : Nat} {mapped : Perm} : k.Governs cpu src →
      k.Governs cpu dst → isUserPage dstva →
      Memory.lookup k.memory (k.env src).pgdir srcva = some (page, mapped) →
      (perm.contains Perm.write = true → mapped.contains Perm.write = true) →
      Maps k cpu a page perm .pageMap (k.env dst).pgdir dstva
  /-- The caller has it and sends it to an environment that waits for one. -/
  | delivered {sender receiver : Slot} {srcva : Nat} {mapped : Perm} : k.current cpu = some sender →
      k.resolve cpu a.first false = .ok receiver → (k.env receiver).inbox.receiving = true →
      (k.env receiver).inbox.dstva < Layout.userTop →
      Memory.lookup k.memory (k.env sender).pgdir srcva = some (page, mapped) →
      (perm.contains Perm.write = true → mapped.contains Perm.write = true) →
      Maps k cpu a page perm .ipcTrySend (k.env receiver).pgdir (k.env receiver).inbox.dstva

/-- The one mapping that is new after a page was mapped. -/
theorem eq_of_inserted {m m' : M} {dir : PageDir} {va' : Nat} {page' : PhysPage}
    {perm' : Perm} {raw : UInt32} (hperm : Perm.ofUser? raw = some perm')
    (hinsert : ∀ d v, Memory.lookup m' d v =
      if d = dir ∧ v = va' then some (page', perm' ||| Perm.present) else Memory.lookup m d v)
    (hnew : Memory.lookup m' d va = some (page, perm))
    (hdiff : Memory.lookup m d va ≠ some (page, perm)) :
    dir = d ∧ va' = va ∧ page' = page ∧ perm' = perm := by
  obtain ⟨-, -, hpresent⟩ := Perm.ofUser?_eq_some hperm
  rw [hinsert] at hnew
  split at hnew
  · next heq =>
    rw [hpresent] at hnew
    obtain ⟨hpage, hsame⟩ := Prod.mk.inj (Option.some.inj hnew)
    exact ⟨heq.1.symm, heq.2.symm, hpage, hsame⟩
  · exact absurd hnew hdiff

section Laws

variable [MemoryView M] [PageView M] [LawfulMemory M] [FiniteMap M]

/-- A call that is refused maps nothing. -/
theorem Housed.sameMappings_of_refuses (h : Housed m₀ k) (hsound : Sound policy ncpu k)
    (hcpu : cpu < ncpu) {e : KernelError} (hr : Refuses k cpu e k') :
    SameMappings k.memory k'.memory := by
  intro d va
  cases hr with
  | check | unknown => rfl
  | noSpace hop => exact ((FiniteMap.createSpace h.valid).of_error hop).1 d va
  | noPage hop => exact (FiniteMap.allocPage h.valid).of_error hop d va
  | unshared hs _ hop =>
    have hlive := h.live_pgdir (hsound.resolve_ne_free hcpu hs)
    exact FiniteMap.insert_error h.valid hlive hop d va
  | @unsupplied s _ _ _ _ _ mem mem' hs _ _ halloc hop =>
    have hpage := LawfulMemory.allocPage_ok h.valid halloc
    have hlive := (hpage.live _).2 (h.live_pgdir (hsound.governs_ne_free hcpu hs))
    have hfailed := LawfulMemory.insert_error hpage.valid hlive hop
    calc Memory.lookup (Memory.freePage _ mem') d va
        = Memory.lookup mem' d va := FiniteMap.freePage hfailed.valid d va
      _ = Memory.lookup mem d va := FiniteMap.insert_error hpage.valid hlive hop d va
      _ = Memory.lookup k.memory d va := (FiniteMap.allocPage h.valid).of_ok halloc d va

omit [LawfulMemory M] in
/-- Giving a slot back maps nothing. -/
theorem Housed.lookup_of_free (h : Housed m₀ k) (hs : (k.env s).status ≠ .free)
    (hnew : Memory.lookup (k.free s).memory d va = some (page, perm)) :
    Memory.lookup k.memory d va = some (page, perm) := by
  rw [memory_free, FiniteMap.destroySpace h.valid (h.live_pgdir hs)] at hnew
  split at hnew
  · cases hnew
  · exact hnew

omit [LawfulMemory M] in
theorem Housed.lookup_of_destroy (h : Housed m₀ k) (hs : (k.env s).status ≠ .free)
    (hnew : Memory.lookup (k.destroy cpu s).2.memory d va = some (page, perm)) :
    Memory.lookup k.memory d va = some (page, perm) := by
  rcases destroy_cases k cpu s with ⟨-, hk⟩ | ⟨-, hk⟩
  · rw [hk] at hnew
    exact hnew
  · rw [hk] at hnew
    exact h.lookup_of_free hs hnew

/-- **What a call maps** it maps in one of three ways, with a permission a user may ask for. -/
theorem Housed.maps_of_performs (h : Housed m₀ k) (hsound : Sound policy ncpu k)
    (hcpu : cpu < ncpu) {call : Call} {c : Completion} (hp : Performs k cpu a call c k')
    (hnew : Memory.lookup k'.memory d va = some (page, perm))
    (hdiff : Memory.lookup k.memory d va ≠ some (page, perm)) :
    (∃ raw, Perm.ofUser? raw = some perm) ∧ Maps k cpu a page perm call d va := by
  cases hp with
  | getEnvId | envSetStatus | envSetUpcall | yieldCpu | ipcRecv | getCpuId =>
    exact absurd hnew hdiff
  | @envDestroy s text hs =>
    have hfree := hsound.resolve_ne_free hcpu hs
    have hsaid : Housed m₀ (k.say .debug Log.Target.calls text) := h.same (fun _ => .refl _) rfl
    exact absurd (hsaid.lookup_of_destroy hfree hnew) hdiff
  | @pageAlloc _ _ _ mem _ hs hva hperm halloc hinsert =>
    have hpage := LawfulMemory.allocPage_ok h.valid halloc
    have hlive := (hpage.live _).2 (h.live_pgdir (hsound.resolve_ne_free hcpu hs))
    have hbefore : Memory.lookup mem d va ≠ some (page, perm) := by
      rw [(FiniteMap.allocPage h.valid).of_ok halloc d va]
      exact hdiff
    obtain ⟨rfl, rfl, rfl, rfl⟩ := eq_of_inserted hperm
      (FiniteMap.insert_ok hpage.valid hlive hinsert) hnew hbefore
    exact ⟨⟨_, hperm⟩, .supplied ⟨_, hs⟩ hva halloc⟩
  | pageMap hsrc hdst _ hdstva hperm hpage hinsert =>
    have hlive := h.live_pgdir (hsound.resolve_ne_free hcpu hdst)
    obtain ⟨rfl, rfl, rfl, rfl⟩ := eq_of_inserted hperm
      (FiniteMap.insert_ok h.valid hlive hinsert) hnew hdiff
    obtain ⟨mapped, hlookup, hrights⟩ := lookup_of_shareable hpage
    exact ⟨⟨_, hperm⟩, .shared ⟨_, hsrc⟩ ⟨_, hdst⟩ hdstva hlookup hrights⟩
  | pageUnmap hs =>
    have hlive := h.live_pgdir (hsound.resolve_ne_free hcpu hs)
    rw [FiniteMap.remove h.valid hlive] at hnew
    split at hnew
    · cases hnew
    · exact absurd hnew hdiff
  | exofork _ _ hdir =>
    have hsame := ((FiniteMap.createSpace h.valid).of_ok hdir).1 d va
    exact absurd (hsame.symm.trans hnew) hdiff
  | ipcTrySend hd =>
    cases hd with
    | word => exact absurd hnew hdiff
    | page hsender hr hrecv hoffer hdst hinsert =>
      have hlive := h.live_pgdir (hsound.resolve_ne_free hcpu hr)
      obtain ⟨-, hperm, mapped, hlookup, hrights⟩ := lookup_of_offered hoffer
      obtain ⟨rfl, rfl, rfl, rfl⟩ := eq_of_inserted hperm
        (FiniteMap.insert_ok h.valid hlive hinsert) hnew hdiff
      exact ⟨⟨_, hperm⟩, .delivered hsender hr hrecv hdst hlookup hrights⟩

omit [MemoryView M] [PageView M] [LawfulMemory M] [FiniteMap M] in
/-- Saved registers do not matter for what a call maps. -/
theorem maps_of_save {call : Call} (h : Maps (k.save s tf) cpu a page perm call d va) :
    Maps k cpu a page perm call d va := by
  have hnames := sameNames_frame k s tf
  cases h with
  | supplied ht hva halloc =>
    rw [pgdir_save]
    exact .supplied (hnames.governs.1 ht) hva halloc
  | shared hsrc hdst hdstva hlookup hrights =>
    rw [pgdir_save] at hlookup ⊢
    exact .shared (hnames.governs.1 hsrc) (hnames.governs.1 hdst) hdstva hlookup hrights
  | @delivered sender receiver srcva mapped hsender hr hrecv hdst hlookup hrights =>
    have hinbox := (steady_save k s receiver tf).inbox
    rw [hinbox] at hrecv hdst ⊢
    rw [pgdir_save] at hlookup ⊢
    have hr' := (hnames.resolve cpu a.first false).symm.trans hr
    exact .delivered hsender hr' hrecv hdst hlookup hrights

/-- **What a system call maps.** -/
theorem Housed.maps_of_syscall (h : Housed m₀ k) (hsound : Sound policy ncpu k) (hcpu : cpu < ncpu)
    (hnew : Memory.lookup (k.syscall cpu tf).2.memory d va = some (page, perm))
    (hdiff : Memory.lookup k.memory d va ≠ some (page, perm)) :
    (∃ raw, Perm.ofUser? raw = some perm) ∧
      ∃ call : Call, tf.eax = call.number ∧ Maps k cpu tf.args page perm call d va := by
  have hsaved : ∀ s, Sound policy ncpu (k.save s tf) := fun s => hsound.setEnv (.of_registers _ _ _)
  have hhoused : ∀ s, Housed m₀ (k.save s tf) := fun s =>
    h.setEnv (Env.Alike.of_registers _ _ _).toStays
  have hhandled := handled_syscall cpu tf k
  generalize k.syscall cpu tf = answer at hnew hhandled
  obtain ⟨next, k'⟩ := answer
  cases hhandled with
  | idle => exact absurd hnew hdiff
  | @refused s _ _ _ hr =>
    have hsame := (hhoused s).sameMappings_of_refuses (hsaved s) hcpu hr d va
    exact absurd (hsame.symm.trans hnew) hdiff
  | @performed s call c k₁ _ hnumber hp =>
    have hmemory : (k₁.conclude s c).memory = k₁.memory := by cases c <;> rfl
    change Memory.lookup (k₁.conclude s c).memory d va = _ at hnew
    rw [hmemory] at hnew
    obtain ⟨hperm, hmaps⟩ := (hhoused s).maps_of_performs (hsaved s) hcpu hp hnew hdiff
    exact ⟨hperm, call, hnumber, maps_of_save hmaps⟩

end Laws

/-! ## Announced addresses -/

/-- Who asked for a message asked for a page at a page's address, if for one at all. -/
theorem Sound.aligned_of_asksAt {d : Deed (State M) Action} (h : Sound policy ncpu d.before)
    (hcpu : cpu < ncpu) (hact : d.act = .syscall cpu tf) (hask : d.asksAt s = true)
    (hva : tf.args.first.toNat < Layout.userTop) : isUserPage tf.args.first.toNat = true := by
  obtain ⟨cpu', tf', hact', hnumber, hp⟩ := Deed.isCall_iff.1 hask
  obtain ⟨rfl, rfl⟩ := Action.syscall.inj (hact.symm.trans hact')
  simp only [Bool.and_eq_true, beq_iff_eq] at hp
  obtain ⟨hc, hanswer⟩ := hp
  have hhandled := handled_syscall cpu tf d.before
  generalize hk : d.before.syscall cpu tf = answer at hhandled
  obtain ⟨next, k'⟩ := answer
  cases hhandled with
  | idle hnone => cases hc.symm.trans hnone
  | refused hs hr =>
    rw [answer_of_refuses hs (h.current_ne_free hcpu hs) hr hk] at hanswer
    cases hanswer
  | performed _ hnumber' hp =>
    obtain rfl := Call.number_injective (hnumber.symm.trans hnumber')
    cases hp with
    | ipcRecv hchecked =>
      have haligned : tf.args.first.toNat % Layout.pageSize = 0 :=
        Decidable.byContradiction fun hne => hchecked ⟨hva, hne⟩
      simp [isUserPage, hva, haligned]

/-- **The environment in a slot waits for a page** at an address: that is where it asked for one when
it last asked for a message, and it has been sent none since. -/
structure Awaits (l : List (Deed (State M) Action)) (k : State M) (s : Slot) (va : Nat) : Prop where
  receiving : (k.env s).inbox.receiving = true
  asked : ∃ asked cpu tf, (lifetime s l).find? (·.asksAt s) = some asked ∧
    asked.act = .syscall cpu tf ∧ va = tf.args.first.toNat

theorem Past.awaits {l : List (Deed (State M) Action)} (h : Past policy ncpu m₀ l k)
    (hs : (k.env s).status ≠ .free) (hrecv : (k.env s).inbox.receiving = true) :
    Awaits l k s (k.env s).inbox.dstva ∧
      ((k.env s).inbox.dstva < Layout.userTop → isUserPage (k.env s).inbox.dstva = true) := by
  have hmail := h.mail s hs
  obtain ⟨asked, hfind, hask⟩ :=
    (Option.any_eq_true _ _).1 (hmail.receiving.symm.trans hrecv)
  have hasked := find?_of_find?_or hfind hask
  obtain ⟨cpu, tf, hact, -⟩ := Deed.isCall_iff.1 hask
  have hwanted := hmail.wanted asked cpu tf hasked hact
  refine ⟨⟨hrecv, asked, cpu, tf, hasked, hact, hwanted⟩, fun hva => ?_⟩
  obtain ⟨-, newer, older, hlife, -⟩ := List.find?_eq_some_iff_append.1 hasked
  obtain ⟨hreached, -, -, k', hproper, -⟩ := h.mail_before hlife
  rw [hact] at hproper
  rw [hwanted] at hva ⊢
  exact hreached.sound.aligned_of_asksAt hproper hact hask hva

/-! ## Writable pages -/

section Laws

variable [MemoryView M] [PageView M] [LawfulMemory M] [LawfulPages M] [FiniteMap M]

/-- A program that is loaded into a new address space maps no page that is in use. -/
theorem lookup_of_loadImage {m mem : M} {dir : PageDir} {image : Image} (hm : Valid m)
    (ha : Accounted m) (htaken : Taken m page) (hdir : Memory.createSpace m = .ok dir mem) :
    Ends (Memory.loadImage dir image) mem fun _ mem' =>
      Memory.lookup mem' d va = some (page, perm) → Memory.lookup m d va = some (page, perm) := by
  obtain ⟨hsame, hkept⟩ := (FiniteMap.createSpace hm).of_ok hdir
  have hmade := LawfulMemory.createSpace_ok hm hdir
  have haccounted := LawfulPages.createSpace_ok ha hdir
  have hlive := (hmade.live dir).2 (.inl rfl)
  refine (FiniteMap.loadImage hmade.valid haccounted hlive).imp fun _ mem' hload hnew => ?_
  rcases hload d va page perm hnew with hold | hnot
  · exact (hsame d va).symm.trans hold
  · exact absurd (hkept page htaken) hnot

omit [LawfulMemory M] [LawfulPages M] in
/-- Taking a slot maps nothing. -/
theorem Housed.sameMappings_of_alloc (h : Housed m₀ k) (parent : Option EnvId) (cpu : Nat) :
    SameMappings k.memory ((State.alloc parent cpu).run k).2.memory := by
  refine Op.of_ends (P := fun k' => SameMappings k.memory k'.memory) ?_
  have hcreate := FiniteMap.createSpace h.valid
  refine ends_alloc (fun _ _ _ => rfl) (fun e mem hop => ?_) fun s dir mem _ hop => ?_
  · exact (hcreate.of_error hop).1
  · exact (hcreate.of_ok hop).1

/-- **Making an environment** maps no page that is in use. -/
theorem Housed.lookup_of_create (h : Housed m₀ k) (ha : Accounted k.memory)
    (htaken : Taken k.memory page) (image : Image) (cpu : Nat) :
    Memory.lookup ((State.create image cpu).run k).2.memory d va = some (page, perm) →
      Memory.lookup k.memory d va = some (page, perm) := by
  refine Op.of_ends (P := fun k' => Memory.lookup k'.memory d va = some (page, perm) →
    Memory.lookup k.memory d va = some (page, perm)) ?_
  have hcreate := FiniteMap.createSpace h.valid
  refine ends_create (fun _ => id) (fun e mem hop => ?_) (fun s dir mem e mem' _ hdir hload => ?_)
    fun s dir mem entry mem' _ hdir hload => ?_
  · intro hnew
    exact ((hcreate.of_error hop).1 d va).symm.trans hnew
  · intro hnew
    have hmade := LawfulMemory.createSpace_ok h.valid hdir
    have hlive := (hmade.live dir).2 (.inl rfl)
    have hkeeps := LawfulMemory.loadImage_error hmade.valid hlive hload
    have hpgdir : ((k.occupy cpu s none dir mem).env s).pgdir = dir := by
      rw [env_occupy, if_pos rfl]
      rfl
    -- the new address space is destroyed with what was loaded into it
    change Memory.lookup (Memory.destroySpace ((k.occupy cpu s none dir mem).env s).pgdir mem') d va =
      some (page, perm) at hnew
    rw [hpgdir, FiniteMap.destroySpace hkeeps.valid ((hkeeps.live dir).2 hlive)] at hnew
    split at hnew
    · cases hnew
    · exact (lookup_of_loadImage h.valid ha htaken hdir).of_error hload hnew
  · exact (lookup_of_loadImage h.valid ha htaken hdir).of_ok hload

/-- **A page that is in use and mapped nowhere for writing** is not mapped for writing by a step. -/
theorem Past.writable_of_step {l : List (Deed (State M) Action)} (h : Past policy ncpu m₀ l k)
    (hm : Valid m₀) (ha : Accounted m₀) {act : Action} (hstep : Steps ncpu k act k')
    (htaken : Taken k.memory page) (hwritable : Writable k'.memory page) :
    Writable k.memory page := by
  have hsound := (Past.reached h).sound
  have hhoused := (Past.reached h).housed hm
  have haccounted := (Past.reached h).accounted hm ha
  obtain ⟨d, va, perm, hnew, hwrite⟩ := hwritable
  have hold : Memory.lookup k.memory d va = some (page, perm) → Writable k.memory page :=
    fun hlookup => ⟨d, va, perm, hlookup, hwrite⟩
  obtain ⟨hproper, hk'⟩ := hstep
  cases hsound.done hproper hk' with
  | syscall hcpu tf =>
    by_cases hdiff : Memory.lookup k.memory d va = some (page, perm)
    · exact hold hdiff
    · obtain ⟨-, call, -, hmaps⟩ := hhoused.maps_of_syscall hsound hcpu hnew hdiff
      cases hmaps with
      | supplied _ _ halloc =>
        obtain ⟨-, hfresh, -⟩ := LawfulPages.allocPage_ok haccounted halloc
        exact absurd htaken hfresh
      | shared _ _ _ hlookup hrights => exact ⟨_, _, _, hlookup, hrights hwrite⟩
      | delivered _ _ _ _ hlookup hrights => exact ⟨_, _, _, hlookup, hrights hwrite⟩
  | @alloc cpu _ parent => exact hold ((hhoused.sameMappings_of_alloc parent cpu d va).symm.trans hnew)
  | @create cpu _ image => exact hold (hhoused.lookup_of_create haccounted htaken image cpu hnew)
  | destroy _ hs => exact hold (hhoused.lookup_of_destroy hs hnew)
  | gone _ hs => exact hold (hhoused.lookup_of_free hs hnew)
  | ran =>
    rw [memory_running] at hnew
    exact hold hnew
  | still => exact hold hnew

/-- **No run makes a page writable** that is mapped nowhere for writing and stays in use. -/
theorem Past.not_writable {older : List (Deed (State M) Action)} {x : Deed (State M) Action}
    (hm : Valid m₀) (ha : Accounted m₀) (hnot : ¬ Writable x.before.memory page)
    (htaken : Taken x.before.memory page) {newer : List (Deed (State M) Action)} :
    ∀ {k : State M}, Past policy ncpu m₀ (newer ++ x :: older) k →
      (∀ y ∈ newer, Taken y.before.memory page) → ¬ Writable k.memory page := by
  -- the induction is on what was done since, from the first step on
  induction newer with
  | nil =>
    intro k h _ hwritable
    cases h with
    | step h hstep => exact hnot (Past.writable_of_step h hm ha hstep htaken hwritable)
  | cons y newer ih =>
    intro k h hkept hwritable
    cases h with
    | @step _ before _ act h hstep =>
      have hstill : Taken before.memory page := hkept _ (.head _)
      have hbefore : ¬ Writable before.memory page := ih h fun y hy => hkept y (.tail _ hy)
      exact hbefore (Past.writable_of_step h hm ha hstep hstill hwritable)

/-! ## Rights -/

/-- **A mapping a system call may make**: at a page's address, with a permission a user may ask for,
in an address space under the authority of the caller or that of an environment that waits for a page
there, and of a page that is new or that is mapped under the authority of the caller already, for
writing if the new mapping is. -/
structure Granted (l : List (Deed (State M) Action)) (k : State M) (cpu : Nat) (tf : TrapFrame)
    (d : PageDir) (va : Nat) (page : PhysPage) (perm : Perm) : Prop where
  aligned : va % Layout.pageSize = 0
  below : va < Layout.userTop
  user : perm.contains (Perm.user ||| Perm.present) = true
  bits : (Perm.present ||| Perm.write ||| Perm.user ||| Perm.available).contains perm = true
  reach : (∃ s, k.Governs cpu s ∧ (k.env s).pgdir = d) ∨
    tf.eax = Call.ipcTrySend.number ∧ ∃ s, k.resolve cpu tf.args.first false = .ok s ∧
      (k.env s).pgdir = d ∧ Awaits l k s va
  source : (tf.eax = Call.pageAlloc.number ∧ ∃ mem, Memory.allocPage k.memory = .ok page mem ∧
      ¬ Taken k.memory page) ∨
    ∃ s srcva mapped, k.Governs cpu s ∧
      Memory.lookup k.memory (k.env s).pgdir srcva = some (page, mapped) ∧
      (perm.contains Perm.write = true → mapped.contains Perm.write = true)

theorem Past.granted {l : List (Deed (State M) Action)} (h : Past policy ncpu m₀ l k)
    (hm : Valid m₀) (ha : Accounted m₀) (hcpu : cpu < ncpu)
    (hnew : Memory.lookup (k.syscall cpu tf).2.memory d va = some (page, perm))
    (hdiff : Memory.lookup k.memory d va ≠ some (page, perm)) :
    Granted l k cpu tf d va page perm := by
  have hsound := (Past.reached h).sound
  have hhoused := (Past.reached h).housed hm
  have haccounted := (Past.reached h).accounted hm ha
  obtain ⟨⟨raw, hperm⟩, call, hnumber, hmaps⟩ := hhoused.maps_of_syscall hsound hcpu hnew hdiff
  obtain ⟨huser, hbits⟩ := Perm.rights_of_ofUser? hperm
  have hpage : ∀ {va}, isUserPage va = true → va % Layout.pageSize = 0 ∧ va < Layout.userTop := by
    intro va hva
    simp only [isUserPage, Bool.and_eq_true, decide_eq_true_eq, beq_iff_eq] at hva
    exact hva.symm
  cases hmaps with
  | supplied hs hva halloc =>
    obtain ⟨-, hfresh, -⟩ := LawfulPages.allocPage_ok haccounted halloc
    obtain ⟨haligned, hbelow⟩ := hpage hva
    exact ⟨haligned, hbelow, huser, hbits, .inl ⟨_, hs, rfl⟩,
      .inl ⟨hnumber, _, halloc, hfresh⟩⟩
  | shared hsrc hdst hva hlookup hrights =>
    obtain ⟨haligned, hbelow⟩ := hpage hva
    exact ⟨haligned, hbelow, huser, hbits, .inl ⟨_, hdst, rfl⟩,
      .inr ⟨_, _, _, hsrc, hlookup, hrights⟩⟩
  | delivered hsender hr hrecv hdst hlookup hrights =>
    obtain ⟨hawaits, hannounced⟩ := h.awaits (hsound.resolve_ne_free hcpu hr) hrecv
    obtain ⟨haligned, hbelow⟩ := hpage (hannounced hdst)
    exact ⟨haligned, hbelow, huser, hbits, .inr ⟨hnumber, _, hr, rfl, hawaits⟩,
      .inr ⟨_, _, _, governs_current hsender, hlookup, hrights⟩⟩

/-- **The rights of pages never grow.** Whatever a system call newly maps is granted: a page's address
below the end of the user's, a permission with the bits a user may have, the address space of the
caller, of a descendant or of the receiver that waits for a page there, and a page that is new or
that the caller or a descendant had, writable only if it was. So along every history a page that is
mapped nowhere for writing is mapped nowhere for writing for as long as it stays in use. -/
theorem Past.rights_never_grow {l : List (Deed (State M) Action)} (h : Past policy ncpu m₀ l k)
    (hm : Valid m₀) (ha : Accounted m₀) :
    (∀ cpu < ncpu, ∀ tf d va page perm,
        Memory.lookup (k.syscall cpu tf).2.memory d va = some (page, perm) →
        Memory.lookup k.memory d va ≠ some (page, perm) → Granted l k cpu tf d va page perm) ∧
      ∀ newer x older page, l = newer ++ x :: older → ¬ Writable x.before.memory page →
        Taken x.before.memory page → (∀ y ∈ newer, Taken y.before.memory page) →
        ¬ Writable k.memory page := by
  refine ⟨fun cpu hcpu tf d va page perm hnew hdiff => ?_, ?_⟩
  · exact h.granted hm ha hcpu hnew hdiff
  · rintro newer x older page rfl hnot htaken hkept
    exact Past.not_writable hm ha hnot htaken h hkept

end Laws

/-- Some mapping that is kept lets the page be written. -/
def keepsWritable (f : Frames) (page : PhysPage) : Bool :=
  f.mappings.entries.any fun e => e.2.1 = page && e.2.2.contains Perm.write

theorem not_writable_of_keeps {f : Frames} (h : keepsWritable f page = false) :
    ¬ Writable f page := by
  rintro ⟨d, va, perm, hlookup, hwrite⟩
  have hentry : ((d, va), (page, perm)) ∈ f.mappings.entries := Assoc.mem_entries_of_get? hlookup
  have hkeeps : keepsWritable f page = true :=
    List.any_eq_true.2 ⟨_, hentry, by simp [hwrite]⟩
  cases h.symm.trans hkeeps

/-- A child waits for a page, and its parent takes one for reading and sends it. -/
theorem Past.rights_never_grow_sent :
    ∃ (l : List (Deed (State Frames) Action)) (k : State Frames) (x : Deed (State Frames) Action)
      (older : List (Deed (State Frames) Action)), Past .perCpu 1 ({} : Frames) l k ∧
      Valid ({} : Frames) ∧ Accounted ({} : Frames) ∧ l = x :: older ∧
      Taken x.before.memory ⟨0x4000⟩ ∧ ¬ Writable k.memory ⟨0x4000⟩ ∧
      Granted l k 0 (TrapFrame.user.calling Call.ipcTrySend.number
          { first := 0x1001, third := 0x400000, fourth := 5 })
        (k.env 1).pgdir 0xa00000 ⟨0x4000⟩ ⟨5⟩ := by
  have hm : Valid ({} : Frames) := ⟨.nil, nofun⟩
  have ha : Accounted ({} : Frames) := ⟨nofun, nofun⟩
  let tf := TrapFrame.user.calling Call.ipcTrySend.number
    { first := 0x1001, third := 0x400000, fourth := 5 }
  obtain ⟨l, k, h, hseen⟩ := exists_past .perCpu 1 ({} : Frames)
    (withChild ++ [callOf .ipcRecv { first := 0xa00000 }, .schedule 0,
      callOf .pageAlloc { second := 0x400000, third := 5 }, callOf .getEnvId {}])
    (fun l k => (l.map fun x => ((x.before.memory.counts.get? ⟨0x4000⟩).isSome,
        keepsWritable x.before.memory ⟨0x4000⟩),
      [k.memory, (k.syscall 0 tf).2.memory].map (Memory.lookup · (k.env 1).pgdir 0xa00000)))
    (b := ((true, false) :: List.replicate 9 (false, false), [none, some (⟨0x4000⟩, ⟨5⟩)]))
    (by decide +kernel)
  simp only [Prod.mk.injEq, List.map_cons, List.map_nil, List.cons.injEq, and_true] at hseen
  obtain ⟨hpages, hbefore, hafter⟩ := hseen
  obtain ⟨x, older, rfl, hx, -⟩ := List.map_eq_cons_iff.1 hpages
  obtain ⟨htaken, hkeeps⟩ := Prod.mk.inj hx
  obtain ⟨hgrants, hruns⟩ := h.rights_never_grow hm ha
  refine ⟨_, k, x, older, h, hm, ha, rfl, htaken, ?_, ?_⟩
  · exact hruns [] x older _ rfl (not_writable_of_keeps hkeeps) htaken nofun
  · refine hgrants 0 (by decide) tf _ _ _ _ hafter ?_
    rw [hbefore]
    exact nofun

end State

end Exokernel
