import Exokernel.Proofs.Ownership
import Exokernel.Proofs.Usage
/-!
# Whose address space is whose

Every occupied slot holds an address space of its own, and memory has no others but those it had
before the table was set up. `Housed` says so, and every effect keeps it as long as memory keeps its
contract: what an effect asks of memory is what `Housed` says is there. Together with the lists of
free slots this leaves nothing over: a slot is either on the list of its CPU or holds an address
space, never both.
-/

namespace Exokernel

open MemoryView Memory

namespace State

variable {M : Type}

/-- The occupant of a slot has the address space of a directory. -/
def Holds (k : State M) (s : Slot) (d : PageDir) : Prop :=
  (k.env s).status ≠ .free ∧ (k.env s).pgdir = d

variable {k k' : State M} {s t : Slot} {d : PageDir}

theorem holds_stays (he : ∀ s, Env.Stays (k.env s) (k'.env s)) : k'.Holds s d ↔ k.Holds s d := by
  simp only [Holds, ne_eq, (he s).pgdir, (he s).free]

/-- Who takes a free slot holds the new address space. -/
theorem holds_occupy (hs : (k.env s).status = .free) (cpu : Nat) (parent : Option EnvId)
    (dir : PageDir) (mem : M) :
    (k.occupy cpu s parent dir mem).Holds t d ↔ t = s ∧ d = dir ∨ k.Holds t d := by
  unfold Holds
  rw [env_occupy]
  by_cases ht : t = s
  · subst ht
    rw [if_pos rfl]
    simp [occupied, hs, eq_comm]
  · simp [ht]

/-- Who gives a slot back holds nothing. -/
theorem holds_free [Memory M] : (k.free s).Holds t d ↔ t ≠ s ∧ k.Holds t d := by
  unfold Holds
  rw [env_free]
  by_cases ht : t = s
  · simp [ht]
  · simp [ht]

/-- **Every occupied slot has an address space of its own**, and there are no others but those of
the memory `m₀`. -/
structure Housed [MemoryView M] (m₀ : M) (k : State M) : Prop where
  valid : Valid k.memory
  blank : ∀ s, (k.env s).status = .free → (k.env s).pgdir = PageDir.null
  ne_null : ∀ s d, k.Holds s d → d ≠ PageDir.null
  live : ∀ d, Live k.memory d ↔ Live m₀ d ∨ ∃ s, k.Holds s d
  foreign : ∀ s d, k.Holds s d → ¬ Live m₀ d
  apart : ∀ s t d, k.Holds s d → k.Holds t d → s = t

namespace Housed

variable [Memory M] [MemoryView M] {m₀ mem : M} {dir : PageDir} {P : PageDir → Nat → Prop}

omit [Memory M] in
/-- What is occupied has its address space. -/
theorem live_pgdir (h : Housed m₀ k) (hs : (k.env s).status ≠ .free) :
    Live k.memory (k.env s).pgdir :=
  (h.live _).2 (.inr ⟨s, hs, rfl⟩)

/-! ## Changes that keep it -/

/-- Occupants stay, and no address space comes or goes. -/
theorem stays (h : Housed m₀ k) (he : ∀ s, Env.Stays (k.env s) (k'.env s))
    (hm : Keeps P k.memory k'.memory) : Housed m₀ k' := by
  have hholds : ∀ s d, k'.Holds s d ↔ k.Holds s d := fun _ _ => holds_stays he
  refine ⟨hm.valid, fun s hs => ?_, fun s d hs => ?_, fun d => ?_, fun s d hs => ?_,
    fun s t d hs ht => ?_⟩
  · rw [(he s).pgdir]
    exact h.blank s ((he s).free.1 hs)
  · exact h.ne_null s d ((hholds s d).1 hs)
  · rw [hm.live, h.live]
    simp only [hholds]
  · exact h.foreign s d ((hholds s d).1 hs)
  · exact h.apart s t d ((hholds s d).1 hs) ((hholds t d).1 ht)

theorem same (h : Housed m₀ k) (he : ∀ s, Env.Stays (k.env s) (k'.env s))
    (hm : k'.memory = k.memory) : Housed m₀ k' := by
  have hkeeps : Unchanged k.memory k'.memory := by
    rw [hm]
    exact ⟨h.valid, fun _ => .rfl, fun _ _ _ _ => rfl⟩
  exact h.stays he hkeeps

theorem setMemory (h : Housed m₀ k) (hm : Keeps P k.memory mem) :
    Housed m₀ ({ k with memory := mem } : State M) :=
  h.stays (fun _ => .refl _) hm

theorem setEnv (h : Housed m₀ k) {e : Env} (he : Env.Stays (k.env s) e) :
    Housed m₀ (k.setEnv s e) :=
  h.same (stays_setEnv k he) rfl

/-- **Taking a slot**: the new address space is nobody else's. -/
theorem occupy (h : Housed m₀ k) (hs : (k.env s).status = .free) (hm : Made dir k.memory mem)
    (cpu : Nat) (parent : Option EnvId) : Housed m₀ (k.occupy cpu s parent dir mem) := by
  have hholds : ∀ t d, (k.occupy cpu s parent dir mem).Holds t d ↔
      t = s ∧ d = dir ∨ k.Holds t d := fun _ _ => holds_occupy hs cpu parent dir mem
  -- memory gives out a directory that is not there, so nobody can hold it yet
  have hnew : ∀ t, ¬ k.Holds t dir := fun t ht => hm.fresh ((h.live dir).2 (.inr ⟨t, ht⟩))
  refine ⟨hm.valid, fun t ht => ?_, fun t d ht => ?_, fun d => ?_, fun t d ht => ?_,
    fun t u d ht hu => ?_⟩
  · rw [env_occupy] at ht ⊢
    split
    · next hts => rw [if_pos hts] at ht; cases ht
    · next hts => rw [if_neg hts] at ht; exact h.blank t ht
  · rcases (hholds t d).1 ht with ⟨-, rfl⟩ | ht
    · exact hm.ne_null
    · exact h.ne_null t d ht
  · rw [memory_occupy, hm.live, h.live]
    simp only [hholds]
    constructor
    · rintro (rfl | hd | ⟨t, ht⟩)
      · exact .inr ⟨s, .inl ⟨rfl, rfl⟩⟩
      · exact .inl hd
      · exact .inr ⟨t, .inr ht⟩
    · rintro (hd | ⟨t, ⟨-, rfl⟩ | ht⟩)
      · exact .inr (.inl hd)
      · exact .inl rfl
      · exact .inr (.inr ⟨t, ht⟩)
  · rcases (hholds t d).1 ht with ⟨-, rfl⟩ | ht
    · exact fun hd => hm.fresh ((h.live _).2 (.inl hd))
    · exact h.foreign t d ht
  · rcases (hholds t d).1 ht with ⟨hts, rfl⟩ | ht'
    · rcases (hholds u d).1 hu with ⟨hus, -⟩ | hu'
      · rw [hts, hus]
      · exact absurd hu' (hnew u)
    · rcases (hholds u d).1 hu with ⟨-, rfl⟩ | hu'
      · exact absurd ht' (hnew t)
      · exact h.apart t u d ht' hu'

/-- **Giving a slot back**: its address space goes, and nobody else's. -/
theorem free (h : Housed m₀ k) (hs : (k.env s).status ≠ .free)
    (hm : Unmade (k.env s).pgdir k.memory (Memory.destroySpace (k.env s).pgdir k.memory)) :
    Housed m₀ (k.free s) := by
  have hholds : ∀ t d, (k.free s).Holds t d ↔ t ≠ s ∧ k.Holds t d := fun _ _ => holds_free
  -- the directory that goes was held by this slot and no other
  have hself : k.Holds s (k.env s).pgdir := ⟨hs, rfl⟩
  refine ⟨hm.valid, fun t ht => ?_, fun t d ht => ?_, fun d => ?_, fun t d ht => ?_,
    fun t u d ht hu => ?_⟩
  · rw [env_free] at ht ⊢
    split
    · rfl
    · next hts => rw [if_neg hts] at ht; exact h.blank t ht
  · exact h.ne_null t d ((hholds t d).1 ht).2
  · rw [memory_free, hm.live, h.live]
    simp only [hholds]
    constructor
    · rintro ⟨hd, hlive | ⟨t, ht⟩⟩
      · exact .inl hlive
      · refine .inr ⟨t, fun hts => hd ?_, ht⟩
        rw [← ht.2, hts]
    · rintro (hlive | ⟨t, hts, ht⟩)
      · refine ⟨?_, .inl hlive⟩
        rintro rfl
        exact h.foreign s _ hself hlive
      · refine ⟨?_, .inr ⟨t, ht⟩⟩
        rintro rfl
        exact hts (h.apart t s _ ht hself)
  · exact h.foreign t d ((hholds t d).1 ht).2
  · exact h.apart t u d ((hholds t d).1 ht).2 ((hholds u d).1 hu).2

/-! ## Every effect keeps it -/

variable {policy : Policy} {ncpu cpu : Nat} {page : PhysPage}

/-- What an occupied slot maps is mapped. -/
theorem mapped (h : Housed m₀ k) (hs : (k.env s).status ≠ .free) {va : Nat} {perm : Perm}
    (hlookup : Memory.lookup k.memory (k.env s).pgdir va = some (page, perm)) :
    Mapped k.memory page :=
  ⟨_, va, perm, h.live_pgdir hs, hlookup⟩

theorem mapped_of_atHand (h : Housed m₀ k) (hsound : Sound policy ncpu k) (hcpu : cpu < ncpu)
    (hpage : k.AtHand cpu page) : Mapped k.memory page := by
  obtain ⟨s, va, perm, hs, hlookup⟩ := hpage
  exact h.mapped (hsound.governs_ne_free hcpu hs) hlookup

variable [MemoryContract M]

/-- **What a CPU makes of memory** for the environment it runs changes at most what the environment
and its descendants have mapped. -/
theorem keeps_of_touches (h : Housed m₀ k) (hsound : Sound policy ncpu k) (hcpu : cpu < ncpu)
    (hm : Touches k cpu mem) :
    Keeps (fun d _ => ∃ s, k.Governs cpu s ∧ (k.env s).pgdir = d) k.memory mem := by
  have hlive : ∀ s, k.Governs cpu s → Live k.memory (k.env s).pgdir :=
    fun s hs => h.live_pgdir (hsound.governs_ne_free hcpu hs)
  have hmapped : ∀ {page}, k.AtHand cpu page → MemoryContract.Spare k.memory page ∨
      Mapped k.memory page := fun hpage => .inr (h.mapped_of_atHand hsound hcpu hpage)
  cases hm with
  | noSpace hcreate =>
    exact (MemoryContract.createSpace_error h.valid hcreate).mono fun _ _ => False.elim
  | noPage halloc =>
    exact (MemoryContract.allocPage_error h.valid halloc).mono fun _ _ => False.elim
  | @supplied s _ _ _ _ _ _ hs _ _ halloc hinsert =>
    obtain ⟨hpage, hspare⟩ := MemoryContract.allocPage_ok h.valid halloc
    have hdir := (hpage.live _).2 (hlive s hs)
    have hins := MemoryContract.insert_ok hpage.valid hdir (.inl hspare) hinsert
    exact (hins.after hpage).mono fun d _ hd => ⟨s, hs, hd.1.symm⟩
  | @unsupplied s _ _ _ _ _ _ _ hs _ _ halloc hinsert =>
    obtain ⟨hpage, hspare⟩ := MemoryContract.allocPage_ok h.valid halloc
    have hdir := (hpage.live _).2 (hlive s hs)
    obtain ⟨hins, hkept⟩ := MemoryContract.insert_error hpage.valid hdir (.inl hspare) hinsert
    -- the page that is given back was not mapped after all
    have hback := MemoryContract.freePage hins.valid (hkept hspare)
    exact (hback.after (hins.after hpage)).mono fun _ _ => False.elim
  | @shared src dst _ _ _ _ _ _ hsrc hdst _ _ _ hpage hinsert =>
    have hused := hmapped (atHand_of_shareable hsrc hpage)
    exact (MemoryContract.insert_ok h.valid (hlive dst hdst) hused hinsert).mono
      fun d _ hd => ⟨dst, hdst, hd.1.symm⟩
  | @unshared dst _ _ _ _ _ hdst hpage hinsert =>
    exact (MemoryContract.insert_error h.valid (hlive dst hdst) (hmapped hpage) hinsert).1.mono
      fun _ _ => False.elim
  | @removed s _ hs _ =>
    exact (MemoryContract.remove h.valid (hlive s hs)).mono fun d _ hd => ⟨s, hs, hd.1.symm⟩
  | @undelivered receiver _ _ _ _ _ _ hr hpage hinsert =>
    have hfree := hsound.resolve_ne_free hcpu hr
    exact (MemoryContract.insert_error h.valid (h.live_pgdir hfree) (hmapped hpage)
      hinsert).1.mono fun _ _ => False.elim

theorem freed (h : Housed m₀ k) (hs : (k.env s).status ≠ .free) : Housed m₀ (k.free s) :=
  h.free hs (MemoryContract.destroySpace h.valid (h.live_pgdir hs))

theorem change (h : Housed m₀ k) (hsound : Sound policy ncpu k) (hcpu : cpu < ncpu)
    (hk : Change cpu k k') : Housed m₀ k' := by
  cases hk with
  | speak => exact h.same (fun _ => .refl _) rfl
  | touch hm => exact h.setMemory (h.keeps_of_touches hsound hcpu hm)
  | amend he => exact h.setEnv (hsound.alike_of_amends hcpu he).toStays
  | fork hp hs hdir =>
    have hmade := MemoryContract.createSpace_ok h.valid hdir
    have hfree := (hsound.head (hsound.queueOf_lt hcpu) hs).2
    exact (h.occupy hfree hmade cpu _).setEnv (Env.Alike.of_registers _ _ _).toStays

theorem destroy (h : Housed m₀ k) (cpu : Nat) (hs : (k.env s).status ≠ .free) :
    Housed m₀ (k.destroy cpu s).2 := by
  rcases destroy_cases k cpu s with ⟨-, hk⟩ | ⟨-, hk⟩
  · rw [hk]
    exact h.setEnv (Env.Alike.of_occupied hs .dying nofun nofun _ _).toStays
  · rw [hk]
    exact h.freed hs

theorem delivery (h : Housed m₀ k) (hsound : Sound policy ncpu k) (hcpu : cpu < ncpu)
    {target value perm : UInt32} {srcva : Nat} {receiver : Slot}
    (hk : Delivery k cpu target value srcva perm receiver k') : Housed m₀ k' := by
  have hstays := fun s => (hsound.alike_of_delivery hcpu hk s).toStays
  cases hk with
  | word => exact h.same hstays rfl
  | page hp hr _ hoffer _ hinsert =>
    have hlive := h.live_pgdir (hsound.resolve_ne_free hcpu hr)
    have hmapped := h.mapped_of_atHand hsound hcpu (atHand_of_offered hp hoffer)
    exact h.stays hstays (MemoryContract.insert_ok h.valid hlive (.inr hmapped) hinsert)

theorem move (h : Housed m₀ k) (hsound : Sound policy ncpu k) (hcpu : cpu < ncpu)
    (hk : Move cpu k k') : Housed m₀ k' := by
  cases hk with
  | change hk => exact h.change hsound hcpu hk
  | destroy hs => exact h.destroy cpu (hsound.governs_ne_free hcpu hs)
  | hush => exact h.same (fun _ => .refl _) rfl
  | refuse hdir => exact h.setMemory (MemoryContract.createSpace_error h.valid hdir)
  | occupy hs hdir =>
    have hfree := (hsound.head (hsound.queueOf_lt hcpu) hs).2
    exact h.occupy hfree (MemoryContract.createSpace_ok h.valid hdir) cpu none
  | load _ hs hload => exact h.setMemory (MemoryContract.loadImage_ok h.valid (h.live_pgdir hs) hload)
  | spoil _ hs hload =>
    exact h.setMemory (MemoryContract.loadImage_error h.valid (h.live_pgdir hs) hload)
  | launch _ _ hs => exact h.setEnv (Env.Alike.of_occupied hs .runnable nofun nofun _ _).toStays
  | drop _ hs => exact h.freed hs
  | run _ hrun =>
    exact h.same (stays_running k cpu (Status.ne_free_of_canRun hrun)) (memory_running k cpu _)

/-- **Every effect leaves each occupied slot its address space.** -/
theorem effect (h : Housed m₀ k) (hsound : Sound policy ncpu k) (hk : Effect ncpu k k') :
    Housed m₀ k' := by
  cases hk with
  | move hcpu hk => exact h.move hsound hcpu hk
  | deliver hcpu hk => exact h.delivery hsound hcpu hk
  | @alloc cpu _ parent _ _ hcpu hs hdir =>
    have hfree := (hsound.head (hsound.queueOf_lt hcpu) hs).2
    exact h.occupy hfree (MemoryContract.createSpace_ok h.valid hdir) cpu parent
  | free hs => exact h.freed hs
  | destroy hs => exact h.destroy _ hs

theorem effects (h : Housed m₀ k) (hsound : Sound policy ncpu k) (hk : Effects ncpu k k') :
    Housed m₀ k' := by
  induction hk with
  | refl => exact h
  | tail hk hk' ih => exact ih.effect (hsound.effects hk) hk'

end Housed

/-! ## Reached states -/

/-- A table that is set up holds no address space. -/
theorem housed_divide [MemoryView M] {m₀ : M} (hm : Valid m₀) (policy : Policy) (ncpu : Nat) :
    Housed m₀ ((fresh m₀).divide policy ncpu) := by
  have hstatus := status_divide policy ncpu m₀
  have hnone : ∀ s d, ¬ ((fresh m₀).divide policy ncpu).Holds s d := fun s d hs => hs.1 (hstatus s)
  refine ⟨hm, fun s _ => ?_, fun s d hs => absurd hs (hnone s d), fun d => ?_,
    fun s d hs => absurd hs (hnone s d), fun s t d hs => absurd hs (hnone s d)⟩
  · rw [env_divide]
    split
    · rfl
    · rw [env_fresh]
  · simp only [hnone, exists_false, or_false]
    rfl

theorem Reached.housed [Memory M] [MemoryView M] [MemoryContract M] {m₀ : M} {policy : Policy}
    {ncpu : Nat} (h : Reached policy ncpu m₀ k) (hm : Valid m₀) : Housed m₀ k := by
  refine h.invariant (fun k hinit => ?_) fun k k' hsound hk heffect => hk.effect hsound heffect
  obtain ⟨-, text, rfl⟩ := init_eq_ok hinit
  exact (housed_divide hm policy ncpu).same (fun _ => .refl _) rfl

section Reached

variable [Memory M] [MemoryView M] [LawfulMemory M] {m₀ : M} {policy : Policy} {ncpu cpu : Nat}

/-- **Nothing is leaked, and nothing is given out twice.** In every reached state the list that
starts at the run queue of a CPU that takes part ends, and visits each free slot of the CPU's slice
once and no other slot. The directories of the occupied slots are pairwise distinct, and they are
exactly the address spaces that were made and not destroyed since the table was set up; a free slot
holds none. -/
theorem Reached.nothing_leaks (h : Reached policy ncpu m₀ k) (hm : Valid m₀) :
    (∀ cpu < ncpu, ∃ l, Linked (fun s => (k.env s).nextFree) (k.runQueue cpu).freeHead l ∧ l.Nodup ∧
        ∀ s, s ∈ l ↔ (k.runQueue cpu).contains s ∧ (k.env s).status = .free) ∧
      (∀ s t, (k.env s).status ≠ .free → (k.env t).status ≠ .free →
        (k.env s).pgdir = (k.env t).pgdir → s = t) ∧
      (∀ d, Live k.memory d ∧ ¬ Live m₀ d ↔ ∃ s, (k.env s).status ≠ .free ∧ (k.env s).pgdir = d) ∧
      (∀ d, Live m₀ d → Live k.memory d) ∧
      ∀ s, (k.env s).status = .free ↔ (k.env s).pgdir = PageDir.null := by
  have hsound := h.sound
  have hhoused := h.housed hm
  refine ⟨fun cpu hcpu => ?_, fun s t hs ht heq => ?_, fun d => ?_, fun d hd => ?_, fun s => ?_⟩
  · have hlt := hsound.queueOf_lt hcpu
    obtain ⟨l, hl, hnodup, hmem⟩ := hsound.chain _ hlt
    refine ⟨l, hl, hnodup, fun s => ?_⟩
    rw [hmem, ← hsound.contains_iff hlt]
    rfl
  · exact hhoused.apart s t _ ⟨hs, rfl⟩ ⟨ht, heq.symm⟩
  · constructor
    · rintro ⟨hd, hnot⟩
      exact ((hhoused.live d).1 hd).resolve_left hnot
    · rintro ⟨s, hs⟩
      exact ⟨(hhoused.live d).2 (.inr ⟨s, hs⟩), hhoused.foreign s d hs⟩
  · exact (hhoused.live d).2 (.inl hd)
  · exact ⟨hhoused.blank s, fun hnull => Decidable.byContradiction fun hs =>
      hhoused.ne_null s _ ⟨hs, rfl⟩ hnull⟩

/-- After an environment was made for the second of two CPUs and destroyed by the first, all is as
it was. -/
theorem Reached.nothing_leaks_destroyed :
    ∃ k : State Frames, Reached .perCpu 2 ({} : Frames) k ∧ Valid ({} : Frames) ∧
      (k.env 64).lastId.isSome ∧ (k.env 64).pgdir = PageDir.null ∧
      ∀ d, Live k.memory d → ∃ s, (k.env s).status ≠ .free ∧ (k.env s).pgdir = d := by
  have hm : Valid ({} : Frames) := ⟨.nil, nofun⟩
  obtain ⟨k, hk, hseen⟩ := exists_of_map_toOption
    (f := fun k => ((k.env 64).lastId.isSome, (k.env 64).status)) (b := (true, .free))
    (x := ran .perCpu 2 ({} : Frames) [.create [0x7f] 1, .destroy 0 64]) (by decide +kernel)
  have h := reached_of_ran hk
  have hnothing := h.nothing_leaks hm
  obtain ⟨hid, hfree⟩ := Prod.mk.injEq .. ▸ hseen
  refine ⟨k, h, hm, hid, (hnothing.2.2.2.2 64).1 hfree, fun d hd => ?_⟩
  exact (hnothing.2.2.1 d).1 ⟨hd, List.not_mem_nil⟩

end Reached

end State

end Exokernel
