import Exokernel.Proofs.Ownership
/-!
# Filling the table

The free slots of a table that was just set up are listed in ascending order, so the environments made
for a CPU, as long as none goes, are found in the first slots of its slice, in the order in which they
were made. `Filled` says so of a list of programs, and making one more environment appends to the list
(`Filled.ends_create`). The first environment made for a CPU is in the slot kept for the idle one.
-/

namespace Exokernel

/-! ## Places of a slice -/

namespace RunQueue

variable {q : RunQueue} {i j : Nat} {s : Slot}

/-- The slot at a place of the slice. -/
def slotAt (q : RunQueue) (i : Nat) : Option Slot :=
  if h : i < q.len then some ⟨q.start.val + i, Nat.lt_of_lt_of_le (Nat.add_lt_add_left h _) q.fits⟩
  else none

theorem slotAt_eq_some_iff : q.slotAt i = some s ↔ i < q.len ∧ s.val = q.start.val + i := by
  unfold slotAt
  by_cases hi : i < q.len
  · rw [dif_pos hi, Option.some.injEq, Fin.ext_iff, and_iff_right hi, eq_comm]
  · rw [dif_neg hi]
    exact iff_of_false nofun fun h => hi h.1

theorem slotAt_inj (h : q.slotAt i = some s) (h' : q.slotAt j = some s) : i = j := by
  have hi := (slotAt_eq_some_iff.1 h).2
  have hj := (slotAt_eq_some_iff.1 h').2
  omega

theorem contains_of_slotAt (h : q.slotAt i = some s) : q.contains s := by
  rw [slotAt_eq_some_iff] at h
  rw [contains_iff]
  omega

/-- The first place is the idle slot's. -/
theorem slotAt_zero (h : q.len ≠ 0) : q.slotAt 0 = some q.idle :=
  slotAt_eq_some_iff.2 ⟨Nat.pos_of_ne_zero h, rfl⟩

theorem len_forCpu_pos (policy : Policy) (c : CpuIndex) : 0 < (forCpu policy c).len := by
  cases policy with
  | global => exact (by decide : 0 < slotCount)
  | perCpu => exact (by decide : 0 < sliceSize)

/-- A queue that was just set up starts with its idle slot. -/
theorem freeHead_forCpu (policy : Policy) (c : CpuIndex) :
    (forCpu policy c).freeHead = (forCpu policy c).slotAt 0 := by
  rw [slotAt_zero (Nat.pos_iff_ne_zero.1 (len_forCpu_pos policy c))]
  cases policy <;> rfl

end RunQueue

/-! ## Programs in order -/

/-- A program in memory: its address space, and where it starts. -/
structure Loaded where
  dir : PageDir
  entry : Nat

/-- The registers an environment with the program begins with. -/
def Loaded.frame (p : Loaded) : TrapFrame :=
  { TrapFrame.user with eip := UInt32.ofNat p.entry }

/-- The environment is ready to start the program, and nobody made it. -/
structure Loaded.Ready (p : Loaded) (e : Env) : Prop where
  status : e.status = .runnable
  parent : e.parent = none
  frame : e.frame = p.frame
  pgdir : e.pgdir = p.dir

/-- The programs of a queue, in order. -/
def share {α : Type} (l : List (CpuIndex × α)) (c : CpuIndex) : List α :=
  (l.filter (·.1 = c)).map (·.2)

section Share

variable {α : Type}

theorem share_append (l l' : List (CpuIndex × α)) (c : CpuIndex) :
    share (l ++ l') c = share l c ++ share l' c := by
  simp [share]

theorem share_singleton_self (c : CpuIndex) (p : α) : share [(c, p)] c = [p] := by
  simp [share]

theorem share_singleton_ne {c d : CpuIndex} (h : d ≠ c) (p : α) : share [(c, p)] d = [] := by
  simp [share, h.symm]

end Share

namespace State

variable {M : Type} {policy : Policy} {ncpu : Nat} {k k' : State M} {m₀ : M} {cpu : Nat}
  {c : CpuIndex} {s : Slot} {l : List (CpuIndex × Loaded)} {p : Loaded}

/-- The slot is free, and its queue's list goes on at the place after it. -/
structure Blank (policy : Policy) (c : CpuIndex) (k : State M) (i : Nat) (s : Slot) : Prop where
  status : (k.env s).status = .free
  nextFree : (k.env s).nextFree = (RunQueue.forCpu policy c).slotAt (i + 1)

/-- **The table is filled in order**: each queue has its programs in the first slots of its slice and
the rest of the slots free, and no CPU runs anything yet. -/
structure Filled (policy : Policy) (ncpu : Nat) (l : List (CpuIndex × Loaded)) (k : State M) :
    Prop where
  sound : Sound policy ncpu k
  current : ∀ c, (k.queue c).current = none
  head : ∀ c : CpuIndex, c.val < ncpu →
    (k.queue c).freeHead = (RunQueue.forCpu policy c).slotAt (share l c).length
  ready : ∀ c : CpuIndex, c.val < ncpu → ∀ (i : Nat) p, (share l c)[i]? = some p →
    ∃ s, (RunQueue.forCpu policy c).slotAt i = some s ∧ p.Ready (k.env s)
  blank : ∀ c : CpuIndex, c.val < ncpu → ∀ (i : Nat) s, (share l c).length ≤ i →
    (RunQueue.forCpu policy c).slotAt i = some s → Blank policy c k i s

/-- A slot that is divided off is free, and names the next place. -/
theorem blank_divide (m₀ : M) (h : Division policy ncpu) (hc : c.val < ncpu) {i : Nat}
    (hs : (RunQueue.forCpu policy c).slotAt i = some s) :
    Blank policy c ((fresh m₀).divide policy ncpu) i s := by
  have howns := (h.contains_forCpu hc).1 (RunQueue.contains_of_slotAt hs)
  obtain ⟨hi, hval⟩ := RunQueue.slotAt_eq_some_iff.1 hs
  have hfits := (RunQueue.forCpu policy c).fits
  refine ⟨status_divide policy ncpu m₀ s, ?_⟩
  rw [env_divide, howns]
  simp only [blankEnv, RunQueue.slotAt]
  by_cases hin : i + 1 < (RunQueue.forCpu policy c).len
  · rw [dif_pos hin, dif_pos (by omega : s.val + 1 < slotCount), if_pos]
    · simp only [hval, Nat.add_assoc]
    · rw [RunQueue.contains_iff]
      dsimp only
      omega
  · rw [dif_neg hin]
    split
    · rw [if_neg]
      rw [RunQueue.contains_iff]
      dsimp only
      omega
    · rfl

/-- **A table that was just set up is filled with nothing.** -/
theorem filled_of_init (h : (fresh m₀).init policy ncpu = .ok k) : Filled policy ncpu [] k := by
  obtain ⟨hdivision, text, rfl⟩ := init_eq_ok h
  have hqueue : ∀ c : CpuIndex, c.val < ncpu →
      (((fresh m₀).divide policy ncpu).queue c) = RunQueue.forCpu policy c := fun c hc => by
    rw [queue_divide, if_pos hc]
  refine ⟨(sound_divide hdivision).say _ _ _, fun c => ?_, fun c hc => ?_, fun c _ i p hp => ?_,
    fun c hc i s _ hs => ?_⟩
  · show (((fresh m₀).divide policy ncpu).queue c).current = none
    rw [queue_divide]
    unfold RunQueue.forCpu
    split
    · cases policy <;> rfl
    · rfl
  · show (((fresh m₀).divide policy ncpu).queue c).freeHead = _
    rw [hqueue c hc]
    exact RunQueue.freeHead_forCpu policy c
  · cases hp
  · have hblank := blank_divide m₀ hdivision hc hs
    exact ⟨hblank.status, hblank.nextFree⟩

/-! ## One environment more -/

/-- Taking a slot, for a CPU of any number that a queue serves. -/
theorem Sound.occupy_of_queue (h : Sound policy ncpu k) (hc : (k.queueOf cpu).val < ncpu)
    (hs : (k.runQueue cpu).freeHead = some s) (parent : Option EnvId) (dir : PageDir) (mem : M) :
    Sound policy ncpu (k.occupy cpu s parent dir mem) := by
  have hsame : k.queueOf (k.queueOf cpu).val = k.queueOf cpu := h.queueOf_self hc
  have hrun : k.runQueue (k.queueOf cpu).val = k.runQueue cpu := by rw [runQueue, hsame, runQueue]
  have howner := h.occupy hc (hrun.symm ▸ hs) parent dir mem
  refine howner.alike rfl ?_ fun t => ?_
  · show (k.setQueue (k.queueOf cpu) { k.runQueue cpu with freeHead := (k.env s).nextFree }).queues =
      (k.setQueue (k.queueOf (k.queueOf cpu).val)
        { k.runQueue (k.queueOf cpu).val with freeHead := (k.env s).nextFree }).queues
    rw [hsame, hrun]
  · rw [env_occupy, env_occupy]
    exact .refl _

theorem Sound.launched (h : Sound policy ncpu k) (hs : (k.env s).status ≠ .free) (entry : Nat) :
    Sound policy ncpu (k.launch s entry) :=
  h.mapEnv (.of_occupied hs .runnable nofun nofun _ _)

/-- The state in which an environment that was made is ready. -/
def made (k : State M) (cpu : Nat) (s : Slot) (p : Loaded) (mem mem' : M) : State M :=
  ({ k.occupy cpu s none p.dir mem with memory := mem' } : State M).launch s p.entry

section Made

variable (k : State M) (cpu : Nat) (s : Slot) (p : Loaded) (mem mem' : M)

theorem env_made_ne {t : Slot} (h : t ≠ s) : (k.made cpu s p mem mem').env t = k.env t := by
  rw [made, launch, env_mapEnv, if_neg h]
  exact (env_occupy k cpu s t none p.dir mem).trans (if_neg h)

theorem ready_made : p.Ready ((k.made cpu s p mem mem').env s) := by
  have hborn : (k.occupy cpu s none p.dir mem).env s = occupied (k.env s) s none p.dir := by
    rw [env_occupy, if_pos rfl]
  rw [made, launch, env_mapEnv, if_pos rfl]
  refine ⟨rfl, congrArg Env.parent hborn, ?_, congrArg Env.pgdir hborn⟩
  exact congrArg (fun e : Env => { e.frame with eip := UInt32.ofNat p.entry }) hborn

theorem queue_made (q : CpuIndex) : (k.made cpu s p mem mem').queue q =
    if q = k.queueOf cpu then { k.queue q with freeHead := (k.env s).nextFree } else k.queue q :=
  queue_occupy k cpu s q none p.dir mem

end Made

namespace Filled

variable (h : Filled policy ncpu l k) (hc : (k.queueOf cpu).val < ncpu)

include h hc

/-- **The next environment is put in the next slot**, and nothing else is touched. -/
theorem made (hs : (k.runQueue cpu).freeHead = some s) (p : Loaded) (mem mem' : M) :
    Filled policy ncpu (l ++ [(k.queueOf cpu, p)]) (k.made cpu s p mem mem') := by
  have hplace : (RunQueue.forCpu policy (k.queueOf cpu)).slotAt (share l (k.queueOf cpu)).length =
      some s := (h.head _ hc).symm.trans hs
  have howns : Owns policy ncpu (k.queueOf cpu) s :=
    (h.sound.division.contains_forCpu hc).1 (RunQueue.contains_of_slotAt hplace)
  -- the slots of the other places, and of the other queues, are other slots
  have hother : ∀ d : CpuIndex, d.val < ncpu → ∀ (i : Nat) t,
      (RunQueue.forCpu policy d).slotAt i = some t →
      (d = k.queueOf cpu → i ≠ (share l d).length) →
      (k.made cpu s p mem mem').env t = k.env t := by
    intro d hd i t ht hne
    refine env_made_ne k cpu s p mem mem' ?_
    rintro rfl
    have hdowns := (h.sound.division.contains_forCpu hd).1 (RunQueue.contains_of_slotAt ht)
    obtain rfl := hdowns.unique howns
    exact hne rfl (RunQueue.slotAt_inj ht hplace)
  have hshare : ∀ d, d ≠ k.queueOf cpu → share (l ++ [(k.queueOf cpu, p)]) d = share l d := by
    intro d hd
    rw [share_append, share_singleton_ne hd, List.append_nil]
  have hself : share (l ++ [(k.queueOf cpu, p)]) (k.queueOf cpu) =
      share l (k.queueOf cpu) ++ [p] := by
    rw [share_append, share_singleton_self]
  refine ⟨?_, fun d => ?_, fun d hd => ?_, fun d hd i p' hp' => ?_, fun d hd i t hi ht => ?_⟩
  · have hsound := (h.sound.occupy_of_queue hc hs none p.dir mem).setMemory mem'
    exact hsound.launched (status_occupy_ne_free k cpu s none p.dir mem) p.entry
  · exact (current_queue_occupy k cpu s d none p.dir mem).trans (h.current d)
  · rw [queue_made]
    by_cases hdq : d = k.queueOf cpu
    · subst hdq
      rw [if_pos rfl, hself, List.length_append]
      exact (h.blank _ hc _ s Nat.le.refl hplace).nextFree
    · rw [if_neg hdq, hshare d hdq]
      exact h.head d hd
  · by_cases hdq : d = k.queueOf cpu
    · subst hdq
      rw [hself] at hp'
      rcases Nat.lt_or_ge i (share l (k.queueOf cpu)).length with hi | hi
      · rw [List.getElem?_append_left hi] at hp'
        obtain ⟨t, ht, hready⟩ := h.ready _ hc i p' hp'
        exact ⟨t, ht, by rwa [hother _ hc i t ht fun _ => Nat.ne_of_lt hi]⟩
      · have hlast : i = (share l (k.queueOf cpu)).length := by
          have hlt := (List.getElem?_eq_some_iff.1 hp').1
          rw [List.length_append, List.length_singleton] at hlt
          omega
        rw [hlast, List.getElem?_concat_length] at hp'
        cases hp'
        exact ⟨s, hlast ▸ hplace, ready_made k cpu s p mem mem'⟩
    · rw [hshare d hdq] at hp'
      obtain ⟨t, ht, hready⟩ := h.ready d hd i p' hp'
      exact ⟨t, ht, by rwa [hother d hd i t ht fun heq => absurd heq hdq]⟩
  · have hle : (share l d).length ≤ i ∧ (d = k.queueOf cpu → i ≠ (share l d).length) := by
      by_cases hdq : d = k.queueOf cpu
      · subst hdq
        rw [hself, List.length_append, List.length_singleton] at hi
        exact ⟨by omega, fun _ => by omega⟩
      · rw [hshare d hdq] at hi
        exact ⟨hi, fun heq => absurd heq hdq⟩
    have hblank := h.blank d hd i t hle.1 ht
    have hsame := hother d hd i t ht hle.2
    exact ⟨by rw [hsame]; exact hblank.status, by rw [hsame]; exact hblank.nextFree⟩

variable [Memory M]

/-- **Making an environment** puts it in the next slot; it fails if the slice is full, or if memory
does not suffice or the program cannot be loaded. -/
theorem ends_create (image : Image) : Ends (create image cpu) k fun r k' =>
    match r with
    | .ok _ => ∃ (p : Loaded) (mem : M), Memory.createSpace k.memory = .ok p.dir mem ∧
        Memory.loadImage p.dir image mem = .ok p.entry k'.memory ∧
        Filled policy ncpu (l ++ [(k.queueOf cpu, p)]) k'
    | .error _ => ¬ ((share l (k.queueOf cpu)).length < (RunQueue.forCpu policy (k.queueOf cpu)).len ∧
        ∃ (p : Loaded) (mem mem' : M), Memory.createSpace k.memory = .ok p.dir mem ∧
          Memory.loadImage p.dir image mem = .ok p.entry mem') := by
  refine State.ends_create (fun hnone => ?_) (fun e mem hop => ?_)
    (fun s dir mem e mem' _ hdir hload => ?_) fun s dir mem entry mem' hs hdir hload => ?_
  · rintro ⟨hroom, -⟩
    have hfull : (RunQueue.forCpu policy (k.queueOf cpu)).slotAt (share l (k.queueOf cpu)).length =
        none := (h.head _ hc).symm.trans hnone
    rw [RunQueue.slotAt, dif_pos hroom] at hfull
    cases hfull
  · rintro ⟨-, p, mem', mem'', hdir, -⟩
    cases hop.symm.trans hdir
  · rintro ⟨-, p, mem₁, mem₂, hdir', hload'⟩
    cases hdir.symm.trans hdir'
    cases hload.symm.trans hload'
  · exact ⟨⟨dir, entry⟩, mem, hdir, hload, h.made hc hs ⟨dir, entry⟩ mem mem'⟩

end Filled

end State

end Exokernel
