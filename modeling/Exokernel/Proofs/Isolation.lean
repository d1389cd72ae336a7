import Exokernel.Proofs.Entries
/-!
# Isolation of the CPUs

A system call takes any identifier and may name any slot of the table. It stays in the slice of its
CPU all the same: parent links never lead from one slice into another (`Lineage`), so whatever
descends from the caller is in the caller's slice. `Confined` says that a change leaves the slots,
queues and mappings of the other CPUs alone. Every move of a CPU is confined, and the delivery of a
message to another CPU's environment touches the inbox and one mapping of that environment only.
-/

namespace Exokernel

open MemoryView Memory

namespace State

variable {M : Type} {k k' : State M} {policy : Policy} {ncpu cpu : Nat} {s t : Slot} {c : CpuIndex}

/-! ## Lineage -/

/-- **Families stay in one slice**: an identifier names the slot it was given out for, and a parent
belongs to the CPU of its child. -/
structure Lineage (policy : Policy) (ncpu : Nat) (k : State M) : Prop where
  named : ∀ s id, (k.env s).lastId = some id → id.slot = s
  kin : ∀ s p, (k.env s).parent = some p →
    ownerUnder policy ncpu p.slot = ownerUnder policy ncpu s

namespace Lineage

theorem stays (h : Lineage policy ncpu k) (he : ∀ s, Env.Stays (k.env s) (k'.env s)) :
    Lineage policy ncpu k' := by
  refine ⟨fun s id hid => ?_, fun s p hp => ?_⟩
  · rw [(he s).lastId] at hid
    exact h.named s id hid
  · rw [(he s).parent] at hp
    exact h.kin s p hp

theorem setEnv (h : Lineage policy ncpu k) {e : Env} (he : Env.Stays (k.env s) e) :
    Lineage policy ncpu (k.setEnv s e) :=
  h.stays (stays_setEnv k he)

theorem occupy (h : Lineage policy ncpu k) {parent : Option EnvId}
    (hp : ∀ p, parent = some p → ownerUnder policy ncpu p.slot = ownerUnder policy ncpu s)
    (cpu : Nat) (dir : PageDir) (mem : M) : Lineage policy ncpu (k.occupy cpu s parent dir mem) := by
  refine ⟨fun t id hid => ?_, fun t p hpt => ?_⟩
  · rw [env_occupy] at hid
    split at hid
    · next ht =>
      cases hid
      rw [ht, EnvId.slot_next]
    · exact h.named t id hid
  · rw [env_occupy] at hpt
    split at hpt
    · next ht =>
      rw [ht]
      exact hp p hpt
    · exact h.kin t p hpt

theorem free [Memory M] (h : Lineage policy ncpu k) (s : Slot) : Lineage policy ncpu (k.free s) := by
  refine ⟨fun t id hid => ?_, fun t p hp => ?_⟩
  · rw [env_free] at hid
    split at hid
    · next ht =>
      rw [ht]
      exact h.named s id hid
    · exact h.named t id hid
  · rw [env_free] at hp
    split at hp
    · cases hp
    · exact h.kin t p hp

/-- The environment a CPU runs goes by an identifier of its own slot. -/
theorem slot_of_id (h : Lineage policy ncpu k) {id : EnvId} (hid : (k.env s).id = some id) :
    id.slot = s :=
  h.named s id (Env.id_eq_some_iff.1 hid).2

/-- **Descent does not leave the slice.** The way from a descendant to its ancestor follows parent
links, each of which stays where it is. -/
theorem owner_of_reaches (h : Lineage policy ncpu k) {caller : EnvId} :
    ∀ {n : Nat} {id : EnvId}, k.reaches caller n id = true →
      ownerUnder policy ncpu id.slot = ownerUnder policy ncpu caller.slot := by
  intro n
  induction n with
  | zero => exact nofun
  | succ n ih =>
    intro id hid
    unfold reaches at hid
    split at hid
    · next heq => rw [heq]
    · dsimp only at hid
      split at hid
      · split at hid
        -- one parent link stays in the slice, and so does the rest of the way
        · next p hp => rw [← h.kin id.slot p hp, ih hid]
        · cases hid
      · cases hid

/-- **What a CPU's environment governs is in the CPU's slice.** -/
theorem owns_of_governs (h : Lineage policy ncpu k) (hsound : Sound policy ncpu k)
    (hcpu : cpu < ncpu) (hs : k.Governs cpu s) : Owns policy ncpu (k.queueOf cpu) s := by
  obtain ⟨raw, hraw⟩ := hs
  rcases resolve_cases hraw with hcur | ⟨id, hslot, -, -, hself⟩
  · exact (hsound.current _ s (hsound.queueOf_lt hcpu) hcur).1
  · obtain ⟨p, caller, hcur, hid, hdescends⟩ := isSelfOrDescendant_iff.1 (hself rfl)
    -- the caller is the environment the CPU runs, and goes by an identifier of that slot
    have howns := (hsound.current _ p (hsound.queueOf_lt hcpu) hcur).1
    rw [Owns, ← hslot, h.owner_of_reaches hdescends, h.slot_of_id hid]
    exact howns

variable [Memory M]

theorem change (h : Lineage policy ncpu k) (hsound : Sound policy ncpu k) (hcpu : cpu < ncpu)
    (hk : Change cpu k k') : Lineage policy ncpu k' := by
  cases hk with
  | speak => exact h.stays fun _ => .refl _
  | touch => exact h.stays fun _ => .refl _
  | amend he => exact h.setEnv (hsound.alike_of_amends hcpu he).toStays
  | @fork p s dir mem hp hs hdir =>
    have hlt := hsound.queueOf_lt hcpu
    have hparent := (hsound.current _ p hlt hp).1
    -- the child's slot comes from the list of the CPU that runs the parent
    have hchild := (hsound.head hlt hs).1
    refine (h.occupy (fun id hid => ?_) cpu dir mem).setEnv (Env.Alike.of_registers _ _ _).toStays
    rw [h.slot_of_id hid]
    exact hparent.trans hchild.symm

theorem destroy (h : Lineage policy ncpu k) (cpu : Nat) (hs : (k.env s).status ≠ .free) :
    Lineage policy ncpu (k.destroy cpu s).2 := by
  rcases destroy_cases k cpu s with ⟨-, hk⟩ | ⟨-, hk⟩
  · rw [hk]
    exact h.setEnv (Env.Alike.of_occupied hs .dying nofun nofun _ _).toStays
  · rw [hk]
    exact h.free s

theorem move (h : Lineage policy ncpu k) (hsound : Sound policy ncpu k) (hcpu : cpu < ncpu)
    (hk : Move cpu k k') : Lineage policy ncpu k' := by
  cases hk with
  | change hk => exact h.change hsound hcpu hk
  | destroy hs => exact h.destroy cpu (hsound.governs_ne_free hcpu hs)
  | hush => exact h.stays fun _ => .refl _
  | refuse => exact h.stays fun _ => .refl _
  | occupy => exact h.occupy (fun _ hp => by cases hp) cpu _ _
  | load => exact h.stays fun _ => .refl _
  | spoil => exact h.stays fun _ => .refl _
  | launch _ _ hs => exact h.setEnv (Env.Alike.of_occupied hs .runnable nofun nofun _ _).toStays
  | drop => exact h.free _
  | run _ hrun => exact h.stays (stays_running k cpu (Status.ne_free_of_canRun hrun))

theorem delivery (h : Lineage policy ncpu k) (hsound : Sound policy ncpu k) (hcpu : cpu < ncpu)
    {target value perm : UInt32} {srcva : Nat} {receiver : Slot}
    (hk : Delivery k cpu target value srcva perm receiver k') : Lineage policy ncpu k' :=
  h.stays fun s => (hsound.alike_of_delivery hcpu hk s).toStays

end Lineage

/-! ## Confinement -/

/-- **The other CPUs are left alone**: their run queues, with the slots they run and the heads of
their free lists, the slots of their slices, with the links of the free ones, and what the
environments in these have mapped. -/
structure Confined [Memory M] (policy : Policy) (ncpu : Nat) (c : CpuIndex) (k k' : State M) :
    Prop where
  queue : ∀ q, q ≠ c → k'.queue q = k.queue q
  env : ∀ s, ¬ Owns policy ncpu c s → k'.env s = k.env s
  lookup : ∀ s va, ¬ Owns policy ncpu c s → (k.env s).status ≠ .free →
    Memory.lookup k'.memory (k.env s).pgdir va = Memory.lookup k.memory (k.env s).pgdir va

namespace Confined

variable [Memory M] {k'' : State M}

theorem refl (k : State M) : Confined policy ncpu c k k :=
  ⟨fun _ _ => rfl, fun _ _ => rfl, fun _ _ _ _ => rfl⟩

theorem trans (h : Confined policy ncpu c k k') (h' : Confined policy ncpu c k' k'') :
    Confined policy ncpu c k k'' := by
  refine ⟨fun q hq => (h'.queue q hq).trans (h.queue q hq),
    fun s hs => (h'.env s hs).trans (h.env s hs), fun s va hs hfree => ?_⟩
  have hsecond := h'.lookup s va hs
  rw [h.env s hs] at hsecond
  exact (hsecond hfree).trans (h.lookup s va hs hfree)

/-- A slot of the CPU's own slice is written. -/
theorem setEnv (hs : Owns policy ncpu c s) (e : Env) : Confined policy ncpu c k (k.setEnv s e) := by
  refine ⟨fun _ _ => rfl, fun t ht => ?_, fun _ _ _ _ => rfl⟩
  rw [env_setEnv, if_neg]
  rintro rfl
  exact ht hs

end Confined

section Confined

variable [Memory M] [MemoryView M] {m₀ mem : M}

/-- Mappings of the CPU's own environments change. -/
theorem Housed.confined_setMemory {P : PageDir → Nat → Prop} (hhoused : Housed m₀ k)
    (hm : Keeps P k.memory mem)
    (hP : ∀ d va, P d va → ∃ s, Owns policy ncpu c s ∧ k.Holds s d) :
    Confined policy ncpu c k { k with memory := mem } := by
  refine ⟨fun _ _ => rfl, fun _ _ => rfl, fun s va hs hfree => ?_⟩
  refine hm.lookup _ va (hhoused.live_pgdir hfree) fun hva => ?_
  obtain ⟨t, ht, hheld⟩ := hP _ va hva
  -- no other slot holds this address space
  have hts : t = s := hhoused.apart t s _ hheld ⟨hfree, rfl⟩
  exact hs (hts ▸ ht)

theorem Housed.confined_occupy (hhoused : Housed m₀ k) (hsound : Sound policy ncpu k)
    (hcpu : cpu < ncpu) (hs : (k.runQueue cpu).freeHead = some s) {dir : PageDir}
    (hm : Made dir k.memory mem) (parent : Option EnvId) :
    Confined policy ncpu (k.queueOf cpu) k (k.occupy cpu s parent dir mem) := by
  have howns := (hsound.head (hsound.queueOf_lt hcpu) hs).1
  refine ⟨fun q hq => ?_, fun t ht => ?_, fun t va _ hfree => ?_⟩
  · rw [queue_occupy, if_neg hq]
  · rw [env_occupy, if_neg]
    rintro rfl
    exact ht howns
  · exact hm.lookup _ va (hhoused.live_pgdir hfree)

variable [LawfulMemory M]

theorem Housed.confined_free (hhoused : Housed m₀ k) (hsound : Sound policy ncpu k)
    (hs : Owns policy ncpu c s) (hfree : (k.env s).status ≠ .free) :
    Confined policy ncpu c k (k.free s) := by
  have hm := LawfulMemory.destroySpace hhoused.valid (hhoused.live_pgdir hfree)
  have hcpu : (k.env s).cpu = c := hsound.owner c s hs
  refine ⟨fun q hq => ?_, fun t ht => ?_, fun t va ht hfree' => ?_⟩
  · rw [queue_free, hcpu, hsound.queueOf_self (hsound.division.lt_of_owns hs), if_neg hq]
  · rw [env_free, if_neg]
    rintro rfl
    exact ht hs
  · refine hm.lookup _ va (hhoused.live_pgdir hfree') fun heq => ht ?_
    have hts : t = s := hhoused.apart t s _ ⟨hfree', heq⟩ ⟨hfree, rfl⟩
    exact hts ▸ hs

omit [MemoryView M] [LawfulMemory M] in
/-- The environment that gets the CPU and the one that loses it are both of the CPU's slice. -/
theorem Sound.confined_running (hsound : Sound policy ncpu k) (hcpu : cpu < ncpu)
    (hs : (k.runQueue cpu).contains s) :
    Confined policy ncpu (k.queueOf cpu) k (k.running cpu s) := by
  have hlt := hsound.queueOf_lt hcpu
  have howns := (hsound.contains_iff hlt).1 hs
  refine ⟨fun q hq => ?_, fun t ht => ?_, fun t va _ _ => by rw [memory_running]⟩
  · rw [queue_running, if_neg hq]
  · rw [env_running, if_neg, if_neg]
    · rintro ⟨hcur, -⟩
      exact ht (hsound.current _ t hlt hcur).1
    · rintro rfl
      exact ht howns

/-- **Every change on behalf of a CPU's environment is confined.** -/
theorem Lineage.confined_change (h : Lineage policy ncpu k) (hsound : Sound policy ncpu k)
    (hhoused : Housed m₀ k) (hcpu : cpu < ncpu) (hk : Change cpu k k') :
    Confined policy ncpu (k.queueOf cpu) k k' := by
  have howns : ∀ s, k.Governs cpu s → Owns policy ncpu (k.queueOf cpu) s :=
    fun s hs => h.owns_of_governs hsound hcpu hs
  have hcurrent : ∀ s, k.current cpu = some s → Owns policy ncpu (k.queueOf cpu) s :=
    fun s hs => (hsound.current _ s (hsound.queueOf_lt hcpu) hs).1
  cases hk with
  | speak => exact ⟨fun _ _ => rfl, fun _ _ => rfl, fun _ _ _ _ => rfl⟩
  | touch hm =>
    refine hhoused.confined_setMemory (hhoused.keeps_of_touches hsound hcpu hm) fun d va hd => ?_
    obtain ⟨s, hs, rfl⟩ := hd
    exact ⟨s, howns s hs, hsound.governs_ne_free hcpu hs, rfl⟩
  | amend he =>
    cases he with
    | save _ hs => exact .setEnv (hcurrent _ hs) _
    | status hs => exact .setEnv (howns _ hs) _
    | upcall _ hs => exact .setEnv (howns _ hs) _
    | listen _ hs => exact .setEnv (hcurrent _ hs) _
  | fork hp hs hdir =>
    have hmade := LawfulMemory.createSpace_ok hhoused.valid hdir
    refine (hhoused.confined_occupy hsound hcpu hs hmade _).trans (.setEnv ?_ _)
    exact (hsound.head (hsound.queueOf_lt hcpu) hs).1

/-- **Every move of a CPU is confined.** -/
theorem Lineage.confined_move (h : Lineage policy ncpu k) (hsound : Sound policy ncpu k)
    (hhoused : Housed m₀ k) (hcpu : cpu < ncpu) (hk : Move cpu k k') :
    Confined policy ncpu (k.queueOf cpu) k k' := by
  have hlt := hsound.queueOf_lt hcpu
  cases hk with
  | change hk => exact h.confined_change hsound hhoused hcpu hk
  | @destroy s hs =>
    have howns := h.owns_of_governs hsound hcpu hs
    have hfree := hsound.governs_ne_free hcpu hs
    rcases destroy_cases k cpu s with ⟨-, hk⟩ | ⟨-, hk⟩
    · rw [hk]
      exact .setEnv howns _
    · rw [hk]
      exact hhoused.confined_free hsound howns hfree
  | hush => exact ⟨fun _ _ => rfl, fun _ _ => rfl, fun _ _ _ _ => rfl⟩
  | refuse hdir =>
    exact hhoused.confined_setMemory (LawfulMemory.createSpace_error hhoused.valid hdir)
      fun _ _ => False.elim
  | occupy hs hdir =>
    exact hhoused.confined_occupy hsound hcpu hs (LawfulMemory.createSpace_ok hhoused.valid hdir) _
  | load hs hfree hload =>
    refine hhoused.confined_setMemory
      (LawfulMemory.loadImage_ok hhoused.valid (hhoused.live_pgdir hfree) hload) fun d va hd => ?_
    exact ⟨_, (hsound.contains_iff hlt).1 hs, hfree, hd.symm⟩
  | spoil hs hfree hload =>
    refine hhoused.confined_setMemory
      (LawfulMemory.loadImage_error hhoused.valid (hhoused.live_pgdir hfree) hload) fun d va hd => ?_
    exact ⟨_, (hsound.contains_iff hlt).1 hs, hfree, hd.symm⟩
  | launch _ hs => exact .setEnv ((hsound.contains_iff hlt).1 hs) _
  | drop hs hfree => exact hhoused.confined_free hsound ((hsound.contains_iff hlt).1 hs) hfree
  | run hs => exact hsound.confined_running hcpu hs

end Confined

/-! ## Messages from outside -/

/-- **A message reaches another CPU's slot**: a receiver that waits for one may run again and has the
message in its inbox, and a page may be mapped where it asked for it. Everything else that is not
the sending CPU's is left alone. -/
structure Disturbed [Memory M] (policy : Policy) (ncpu : Nat) (c : CpuIndex) (value : UInt32)
    (receiver : Slot) (k k' : State M) : Prop where
  outside : ¬ Owns policy ncpu c receiver
  receiving : (k.env receiver).inbox.receiving = true
  message : ∃ perm, k'.env receiver =
    { k.env receiver with
      status := .runnable
      inbox := { (k.env receiver).inbox with
                 receiving := false, sender := k.currentId c.val, value := value, perm := perm } }
  queue : ∀ q, q ≠ c → k'.queue q = k.queue q
  env : ∀ s, ¬ Owns policy ncpu c s → s ≠ receiver → k'.env s = k.env s
  lookup : ∀ s va, ¬ Owns policy ncpu c s → (k.env s).status ≠ .free →
    (s = receiver → va ≠ (k.env receiver).inbox.dstva) →
    Memory.lookup k'.memory (k.env s).pgdir va = Memory.lookup k.memory (k.env s).pgdir va

/-- What comes before a message may be anything that is confined and leaves the sender its name. -/
theorem Confined.disturbed [Memory M] {value : UInt32} {receiver : Slot} {k'' : State M}
    (h : Confined policy ncpu c k k') (hid : k'.currentId c.val = k.currentId c.val)
    (h' : Disturbed policy ncpu c value receiver k' k'') :
    Disturbed policy ncpu c value receiver k k'' := by
  have henv := h.env receiver h'.outside
  refine ⟨h'.outside, ?_, ?_, fun q hq => (h'.queue q hq).trans (h.queue q hq),
    fun s hs hr => (h'.env s hs hr).trans (h.env s hs), fun s va hs hfree hva => ?_⟩
  · rw [← henv]
    exact h'.receiving
  · rw [← henv, ← hid]
    exact h'.message
  · have hsecond := h'.lookup s va hs
    rw [h.env s hs, henv] at hsecond
    exact (hsecond hfree hva).trans (h.lookup s va hs hfree)

/-- What comes after a message may be anything that is confined. -/
theorem Disturbed.trans [Memory M] {value : UInt32} {receiver : Slot} {k'' : State M}
    (h : Disturbed policy ncpu c value receiver k k') (h' : Confined policy ncpu c k' k'') :
    Disturbed policy ncpu c value receiver k k'' := by
  have hpgdir : ∀ s, ¬ Owns policy ncpu c s → (k.env s).status ≠ .free →
      (k'.env s).status ≠ .free ∧ (k'.env s).pgdir = (k.env s).pgdir := by
    intro s hs hfree
    by_cases hr : s = receiver
    · obtain ⟨perm, hmessage⟩ := h.message
      rw [hr, hmessage]
      exact ⟨nofun, rfl⟩
    · rw [h.env s hs hr]
      exact ⟨hfree, rfl⟩
  refine ⟨h.outside, h.receiving, ?_, fun q hq => (h'.queue q hq).trans (h.queue q hq),
    fun s hs hr => (h'.env s hs).trans (h.env s hs hr), fun s va hs hfree hva => ?_⟩
  · obtain ⟨perm, hmessage⟩ := h.message
    exact ⟨perm, (h'.env receiver h.outside).trans hmessage⟩
  · obtain ⟨hfree', heq⟩ := hpgdir s hs hfree
    have hsecond := h'.lookup s va hs hfree'
    rw [heq] at hsecond
    exact hsecond.trans (h.lookup s va hs hfree hva)

section Delivery

variable [Memory M] [MemoryView M] {m₀ : M}

/-- A message that is put into an inbox, with what was mapped for it. -/
theorem Housed.confined_or_disturbed_of_deliver {mem : M} {sender receiver : Slot} {value : UInt32}
    (hhoused : Housed m₀ k) (hcur : k.current c.val = some sender)
    (hfree : (k.env receiver).status ≠ .free)
    (hreceiving : (k.env receiver).inbox.receiving = true)
    (hm : Keeps (fun d va => d = (k.env receiver).pgdir ∧ va = (k.env receiver).inbox.dstva)
      k.memory mem) (granted : Perm) :
    Confined policy ncpu c k
        (({ k with memory := mem } : State M).deliver sender receiver value granted) ∨
      Disturbed policy ncpu c value receiver k
        (({ k with memory := mem } : State M).deliver sender receiver value granted) := by
  have henv : ∀ t, t ≠ receiver →
      (({ k with memory := mem } : State M).deliver sender receiver value granted).env t =
        k.env t := by
    intro t ht
    rw [env_deliver, if_neg ht]
    rfl
  by_cases howns : Owns policy ncpu c receiver
  · refine .inl ⟨fun _ _ => rfl, fun t ht => henv t ?_, fun t va ht hfree' => ?_⟩
    · rintro rfl
      exact ht howns
    · refine hm.lookup _ va (hhoused.live_pgdir hfree') fun hva => ht ?_
      have htr : t = receiver := hhoused.apart t receiver _ ⟨hfree', hva.1⟩ ⟨hfree, rfl⟩
      rw [htr]
      exact howns
  · refine .inr ⟨howns, hreceiving, ⟨granted, ?_⟩, fun _ _ => rfl, fun t _ ht => henv t ht,
      fun t va _ hfree' hva => ?_⟩
    · have hsender : k.currentId c.val = (k.env sender).id := by
        unfold currentId
        rw [hcur]
      rw [env_deliver, if_pos rfl, hsender]
      rfl
    · refine hm.lookup _ va (hhoused.live_pgdir hfree') fun hat => hva ?_ hat.2
      exact hhoused.apart t receiver _ ⟨hfree', hat.1⟩ ⟨hfree, rfl⟩

/-- **The delivery of a message** is confined, or reaches another CPU's slot. -/
theorem Housed.confined_or_disturbed_of_delivery [LawfulMemory M] (hhoused : Housed m₀ k)
    (hsound : Sound policy ncpu k) (hc : c.val < ncpu)
    {target value perm : UInt32} {srcva : Nat} {receiver : Slot}
    (hk : Delivery k c.val target value srcva perm receiver k') :
    Confined policy ncpu c k k' ∨ Disturbed policy ncpu c value receiver k k' := by
  cases hk with
  | word hcur hr hreceiving =>
    have hsame : Unchanged k.memory k.memory := ⟨hhoused.valid, fun _ => .rfl, fun _ _ _ _ => rfl⟩
    exact hhoused.confined_or_disturbed_of_deliver hcur (hsound.resolve_ne_free hc hr) hreceiving
      (hsame.mono fun _ _ => False.elim) _
  | page hcur hr hreceiving _ _ hinsert =>
    have hfree := hsound.resolve_ne_free hc hr
    exact hhoused.confined_or_disturbed_of_deliver hcur hfree hreceiving
      (LawfulMemory.insert_ok hhoused.valid (hhoused.live_pgdir hfree) hinsert) _

end Delivery

/-! ## Nobody is marked -/

/-- No environment is marked to go. -/
def Undoomed (k : State M) : Prop := ∀ s, (k.env s).status ≠ .dying

namespace Undoomed

theorem setEnv (h : Undoomed k) {e : Env} (he : e.status ≠ .dying) : Undoomed (k.setEnv s e) := by
  intro t
  rw [env_setEnv]
  split
  · exact he
  · exact h t

theorem occupy (h : Undoomed k) (cpu : Nat) (parent : Option EnvId) (dir : PageDir) (mem : M) :
    Undoomed (k.occupy cpu s parent dir mem) := by
  intro t
  rw [env_occupy]
  split
  · exact nofun
  · exact h t

theorem free [Memory M] (h : Undoomed k) (s : Slot) : Undoomed (k.free s) := by
  intro t
  rw [env_free]
  split
  · exact nofun
  · exact h t

theorem running (h : Undoomed k) (cpu : Nat) (s : Slot) : Undoomed (k.running cpu s) := by
  intro t
  rw [env_running]
  split
  · exact nofun
  · split
    · exact nofun
    · exact h t

variable [Memory M]

theorem change (h : Undoomed k) (hk : Change cpu k k') : Undoomed k' := by
  cases hk with
  | speak => exact h
  | touch => exact h
  | amend he =>
    cases he with
    | save => exact h.setEnv (h _)
    | status _ hst =>
      refine h.setEnv ?_
      rcases hst with rfl | rfl <;> exact nofun
    | upcall => exact h.setEnv (h _)
    | listen => exact h.setEnv nofun
  | fork => exact (h.occupy _ _ _ _).setEnv ((h.occupy _ _ _ _) _)

/-- **A CPU marks nobody on its own**: what its environment may destroy is in its own slice, where
nothing else runs that would have to be left to another CPU. -/
theorem move (h : Undoomed k) (hlineage : Lineage policy ncpu k) (hsound : Sound policy ncpu k)
    (hcpu : cpu < ncpu) (hk : Move cpu k k') : Undoomed k' := by
  cases hk with
  | change hk => exact h.change hk
  | @destroy s hs =>
    -- what the environment governs names this very CPU as its owner
    have hown : (k.env s).cpu.val = cpu := by
      rw [hsound.owner _ s (hlineage.owns_of_governs hsound hcpu hs), hsound.queueOf_val hcpu]
    rcases destroy_cases k cpu s with ⟨hfar, -⟩ | ⟨-, hk⟩
    · exact absurd hown hfar.2
    · rw [hk]
      exact h.free s
  | hush => exact h
  | refuse => exact h
  | occupy => exact h.occupy _ _ _ _
  | load => exact h
  | spoil => exact h
  | launch => exact h.setEnv nofun
  | drop => exact h.free _
  | run => exact h.running _ _

theorem delivery (h : Undoomed k) {target value perm : UInt32} {srcva : Nat} {receiver : Slot}
    (hk : Delivery k cpu target value srcva perm receiver k') : Undoomed k' := by
  cases hk with
  | word => exact h.setEnv nofun
  | page => exact setEnv (k := { k with memory := _ }) h nofun

end Undoomed

/-! ## The invariant -/

/-- **The CPUs are isolated**: what a CPU does for its environment stays in its slice. -/
structure Isolated [MemoryView M] (policy : Policy) (ncpu : Nat) (m₀ : M) (k : State M) : Prop where
  sound : Sound policy ncpu k
  housed : Housed m₀ k
  lineage : Lineage policy ncpu k
  undoomed : Undoomed k

namespace Isolated

variable [Memory M] [MemoryView M] [LawfulMemory M] {m₀ : M}

theorem move (h : Isolated policy ncpu m₀ k) (hcpu : cpu < ncpu) (hk : Move cpu k k') :
    Isolated policy ncpu m₀ k' where
  sound := h.sound.move hcpu hk
  housed := h.housed.move h.sound hcpu hk
  lineage := h.lineage.move h.sound hcpu hk
  undoomed := h.undoomed.move h.lineage h.sound hcpu hk

theorem delivery (h : Isolated policy ncpu m₀ k) (hcpu : cpu < ncpu)
    {target value perm : UInt32} {srcva : Nat} {receiver : Slot}
    (hk : Delivery k cpu target value srcva perm receiver k') : Isolated policy ncpu m₀ k' where
  sound := h.sound.delivery hcpu hk
  housed := h.housed.delivery h.sound hcpu hk
  lineage := h.lineage.delivery h.sound hcpu hk
  undoomed := h.undoomed.delivery hk

/-- **The moves of a CPU** keep the CPUs isolated, and are confined. -/
theorem moves (h : Isolated policy ncpu m₀ k) (hc : c.val < ncpu) (hk : Moves c.val k k') :
    Isolated policy ncpu m₀ k' ∧ Confined policy ncpu c k k' := by
  induction hk with
  | refl => exact ⟨h, .refl k⟩
  | tail _ hmove ih =>
    obtain ⟨hisolated, hconfined⟩ := ih
    have hlast := hisolated.lineage.confined_move hisolated.sound hisolated.housed hc hmove
    rw [hisolated.sound.queueOf_self hc] at hlast
    exact ⟨hisolated.move hc hmove, hconfined.trans hlast⟩

end Isolated

/-! ## Entries -/

/-- **A message is sent**: the call is the one that sends, its first word names the receiver, and
the caller finds 0 in its registers. -/
structure Sent (c : CpuIndex) (tf : TrapFrame) (receiver : Slot) (k k' : State M) : Prop where
  number : tf.eax = Call.ipcTrySend.number
  target : k.resolve c.val tf.args.first false = .ok receiver
  result : ∃ s, k.current c.val = some s ∧ (k'.env s).frame = { tf with eax := 0 }

/-- No registers change on the way out of the kernel. -/
theorem frame_of_leaves {r : Except NothingRunnable Dispatch} (h : Leaves cpu k r k') (s : Slot) :
    (k'.env s).frame = (k.env s).frame := by
  cases h with
  | idle => rfl
  | user =>
    rw [env_hush, env_running]
    split
    · next hs => rw [hs]
    · split <;> rfl

theorem frame_of_delivery [Memory M] {target value perm : UInt32} {srcva : Nat} {receiver : Slot}
    (hk : Delivery k cpu target value srcva perm receiver k') (s : Slot) :
    (k'.env s).frame = (k.env s).frame := by
  cases hk <;>
    · rw [env_deliver]
      split
      · next hs => subst hs; rfl
      · rfl

/-- A call that delivers a message is the sending of one, and its result is still in the caller's
registers when the CPU has left the kernel. -/
theorem sent_of_sending [Memory M] {tf : TrapFrame} {receiver : Slot} {next : Next} {k₁ : State M}
    {r : Except NothingRunnable Dispatch} (hsend : Sending k.hush c.val tf s receiver next k₁)
    (hleaves : Leaves c.val k₁.hush r k') : Sent c tf receiver k k' := by
  obtain ⟨k₀, hd, hresult⟩ := hsend.ends
  refine ⟨hsend.number, ?_, s, hsend.current, ?_⟩
  · rw [← (sameNames_hush k).resolve]
    exact hsend.resolve_eq
  · have hsaved : ((k.hush.save s tf).env s).frame = tf := by
      unfold save
      rw [env_setEnv_self]
    rw [frame_of_leaves hleaves, env_hush, hresult, setResult, env_mapEnv, if_pos rfl]
    dsimp only
    rw [frame_of_delivery hd, hsaved]

namespace Isolated

variable [Memory M] [MemoryView M] [LawfulMemory M] {m₀ : M} {r : Except NothingRunnable Dispatch}

/-- **A CPU that schedules** changes its own slice only. -/
theorem pass (h : Isolated policy ncpu m₀ k) (hc : c.val < ncpu) (hk : k.pass c.val = .ok (r, k')) :
    Isolated policy ncpu m₀ k' ∧ Confined policy ncpu c k k' :=
  h.moves hc (leaves_pass h.sound hc hk).moves

/-- **A CPU that enters with a system call** changes its own slice only, or sends a message. -/
theorem trap (h : Isolated policy ncpu m₀ k) (hc : c.val < ncpu) {tf : TrapFrame}
    (hk : k.trap c.val tf = .ok (r, k')) :
    Isolated policy ncpu m₀ k' ∧
      (Confined policy ncpu c k k' ∨ ∃ receiver, Sent c tf receiver k k' ∧
        Disturbed policy ncpu c tf.args.second receiver k k') := by
  rcases trap_cases h.sound hc hk with ⟨s, -, hdying, -⟩ | ⟨-, hleaves⟩
  · exact absurd hdying (h.undoomed s)
  · rcases syscall_moves_or_sending c.val tf k.hush with hcall | ⟨s, receiver, hsend⟩
    · have hmoves := (Relation.ReflTransGen.head Move.hush hcall).trans (.head .hush hleaves.moves)
      exact (h.moves hc hmoves).imp id .inl
    · obtain ⟨k₁, hd, hresult⟩ := hsend.ends
      have hcur : k.current c.val = some s := hsend.current
      -- the message comes between two sequences of moves
      have hbefore : Moves c.val k (k.hush.save s tf) :=
        .tail (.single .hush) (.change (.amend (.save tf hcur)))
      have hafter : Moves c.val k₁ k' := by
        have hset : Move c.val k₁ (k₁.setResult s 0) :=
          .change (.amend (.save _ ((hd.current c.val).trans hcur)))
        rw [← hresult] at hset
        exact .head hset (.head .hush hleaves.moves)
      have hnames : SameNames k (k.hush.save s tf) :=
        (sameNames_hush k).trans (sameNames_frame k.hush s tf)
      obtain ⟨hsaved, hconfined⟩ := h.moves hc hbefore
      have hdelivered := hsaved.delivery hc hd
      obtain ⟨hend, hlast⟩ := hdelivered.moves hc hafter
      refine ⟨hend, ?_⟩
      rcases hsaved.housed.confined_or_disturbed_of_delivery hsaved.sound hc hd with hin | hout
      · exact .inl ((hconfined.trans hin).trans hlast)
      · refine .inr ⟨receiver, sent_of_sending hsend hleaves, ?_⟩
        exact (hconfined.disturbed (hnames.currentId c.val) hout).trans hlast

end Isolated

end State

namespace Visit

/-- Environments are made, CPUs schedule and environments make system calls; nothing is done to a
slot from outside. -/
def Plain : Visit → Prop
  | create _ _ _ | enter _ | call _ _ => True
  | alloc _ _ _ | destroy _ _ => False

/-- A CPU schedules or makes a system call. -/
def Enters : Visit → Prop
  | enter _ | call _ _ => True
  | create _ _ _ | alloc _ _ _ | destroy _ _ => False

end Visit

namespace State.Isolated

variable {M : Type} [Memory M] [MemoryView M] [LawfulMemory M] {policy : Policy} {ncpu : Nat} {m₀ : M}
  {k k' : State M} {v : Visit} {x : Option (Except NothingRunnable Dispatch)}

/-- A table that is set up knows no families. -/
theorem of_init (hm : Valid m₀) (hinit : (fresh m₀).init policy ncpu = .ok k) :
    Isolated policy ncpu m₀ k := by
  have hreached := Reached.init hinit
  have hvacant := vacant_of_init hinit
  refine ⟨hreached.sound, hreached.housed hm, ⟨fun s id hid => ?_, fun s p hp => ?_⟩, fun s => ?_⟩
  · cases (hvacant s).2.1.symm.trans hid
  · cases (hvacant s).2.2.symm.trans hp
  · exact fun hdying => nomatch hdying.symm.trans (hvacant s).1

theorem visit (h : Isolated policy ncpu m₀ k) (hplain : v.Plain) (hv : v.Proper ncpu k)
    (hk : v.effect k = .ok (x, k')) : Isolated policy ncpu m₀ k' := by
  cases v with
  | create cpu image queue =>
    cases hk
    have hqueue : queue < cpuLimit := Nat.lt_of_lt_of_le hv.2 h.sound.division.le
    have hmoves : Moves queue k ((State.create image queue).run k).2 :=
      Op.of_ends (h.sound.moves_create hv.2)
    exact (h.moves (c := ⟨queue, hqueue⟩) hv.2 (.tail hmoves .hush)).1
  | enter cpu =>
    obtain ⟨r, -, hpass⟩ := Visit.effect_enter_eq_ok hk
    exact (h.pass hv hpass).1
  | call cpu tf =>
    obtain ⟨r, -, htrap⟩ := Visit.effect_call_eq_ok hk
    exact (h.trap hv htrap).1
  | alloc => exact hplain.elim
  | destroy => exact hplain.elim

theorem entry (h : Isolated policy ncpu m₀ k) (henters : v.Enters) (hv : v.cpu.val < ncpu)
    (hk : v.effect k = .ok (x, k')) :
    Confined policy ncpu v.cpu k k' ∨ ∃ tf receiver, v = .call v.cpu tf ∧
      Sent v.cpu tf receiver k k' ∧ Disturbed policy ncpu v.cpu tf.args.second receiver k k' := by
  cases v with
  | enter cpu =>
    obtain ⟨r, -, hpass⟩ := Visit.effect_enter_eq_ok hk
    exact .inl (h.pass hv hpass).2
  | call cpu tf =>
    obtain ⟨r, -, htrap⟩ := Visit.effect_call_eq_ok hk
    refine (h.trap hv htrap).2.imp id ?_
    rintro ⟨receiver, hsent, hdisturbed⟩
    exact ⟨tf, receiver, rfl, hsent, hdisturbed⟩
  | create => exact henters.elim
  | alloc => exact henters.elim
  | destroy => exact henters.elim

end State.Isolated

namespace Machine

open State

variable {M : Type} [Memory M] [MemoryView M] [LawfulMemory M] {policy : Policy} {ncpu : Nat} {m₀ : M}
  {m m₁ m' : Machine M} {u : CpuIndex → Option Slot}

theorem Ran.isolated (h : Ran Visit.Plain policy ncpu m₀ m u) (hm : Valid m₀) :
    Isolated policy ncpu m₀ m.kernel := by
  refine h.invariant (fun k hk => ?_) fun k k' v x hisolated hplain hv hr => ?_
  · have hstart := Isolated.of_init hm hk
    exact hstart.move hstart.sound.division.pos .hush
  · exact hisolated.visit hplain hv hr

/-- **A CPU stays in its slice.** In a run in which environments are made, CPUs schedule and
environments make system calls with any registers, an entry of a CPU leaves the other CPUs alone:
their slots, what they run, their lists of free slots and what their environments have mapped. The
one exception is a message that is sent to an environment there which waits for one. It changes that
environment's state and inbox and at most the mapping at the address it announced. No environment is
ever marked to go. -/
theorem Ran.stays_in_slice (h : Ran Visit.Plain policy ncpu m₀ m u) (hm : Valid m₀) {v : Visit}
    {x : Option Exit} (henters : v.Enters) (hv : v.cpu.val < ncpu) (hm₁ : m₁.kernel = m.kernel)
    (hperform : v.perform m₁ = .ok x m') :
    (Confined policy ncpu v.cpu m.kernel m'.kernel ∨
        ∃ tf receiver, v = .call v.cpu tf ∧ Sent v.cpu tf receiver m.kernel m'.kernel ∧
          Disturbed policy ncpu v.cpu tf.args.second receiver m.kernel m'.kernel) ∧
      (∀ s, (m.kernel.env s).status ≠ .dying) ∧ ∀ s, (m'.kernel.env s).status ≠ .dying := by
  have hplain : v.Plain := by
    cases v <;> trivial
  have hproper : v.Proper ncpu m.kernel := by
    cases v <;> first | exact hv | exact henters.elim
  have hisolated := h.isolated hm
  have hafter := (h.visit hplain hproper hm₁ hperform).isolated hm
  obtain ⟨r, hr, -⟩ := Visit.effect_of_perform hperform
  rw [hm₁] at hr
  exact ⟨hisolated.entry henters hv hr, hisolated.undoomed, hafter.undoomed⟩

/-- An environment of the second of two CPUs sends 7 to one of the first, which waits for it. -/
theorem Ran.stays_in_slice_message :
    ∃ (m m' : Machine Frames) (u : CpuIndex → Option Slot) (tf : TrapFrame) (x : Option Exit),
      Ran Visit.Plain .perCpu 2 ({} : Frames) m u ∧ Valid ({} : Frames) ∧
        (Visit.call ⟨1, by decide⟩ tf).perform m = .ok x m' ∧
        Disturbed .perCpu 2 ⟨1, by decide⟩ 7 0 m.kernel m'.kernel := by
  have hm : Valid ({} : Frames) := ⟨.nil, nofun⟩
  let c : CpuIndex := ⟨0, by decide⟩
  let d : CpuIndex := ⟨1, by decide⟩
  let wait := TrapFrame.user.calling Call.ipcRecv.number {}
  let send := TrapFrame.user.calling Call.ipcTrySend.number
    { first := 4096, second := 7, third := UInt32.ofNat Layout.noPage }
  let visits : List Visit := [.create c [0x7f] 0, .create d [0x7f] 1, .enter c, .enter d, .call c wait]
  have hplain : ∀ v ∈ visits, v.Plain := by
    intro v hv
    simp only [visits, List.mem_cons, List.not_mem_nil, or_false] at hv
    rcases hv with rfl | rfl | rfl | rfl | rfl <;> trivial
  obtain ⟨m, u, x, m', hran, hperform, hseen⟩ := exists_ran .perCpu 2 ({} : Frames) (.call d send)
    (fun m _ m' => ((m.kernel.env 0).status, (m'.kernel.env 0).status))
    (b := (.notRunnable, .runnable)) hplain (by decide +kernel)
  obtain ⟨hbefore, hafter⟩ := Prod.mk.inj hseen
  have hnot : ¬ Owns .perCpu 2 d 0 := by
    unfold Owns
    decide
  have hchanged : m'.kernel.env 0 ≠ m.kernel.env 0 := fun heq => by
    rw [heq, hbefore] at hafter
    cases hafter
  refine ⟨m, m', u, send, x, hran, hm, hperform, ?_⟩
  rcases (hran.stays_in_slice (v := .call d send) hm trivial (by decide) rfl hperform).1 with
    h | ⟨tf, r, heq, -, h⟩
  · exact absurd (h.env 0 hnot) hchanged
  · cases heq
    obtain rfl : 0 = r := Decidable.byContradiction fun hr => hchanged (h.env 0 hnot hr)
    exact h

end Machine

end Exokernel
