import Exokernel.Proofs.Filling
import Exokernel.Proofs.Rounds
/-!
# What runs first

The environments a machine starts with are made one after the other, an idle one for every CPU and then
the others. `loadEach` says what memory makes of their programs. Where each CPU has an idle environment
before any other is made for it, the first pass of its scheduler gives it the environment behind the idle
one, or the idle one if that is all there is (`Filled.first_pass`), and everything else stays where it was
put (`Filled.starts`).
-/

namespace Exokernel

theorem mod_cpuLimit_lt (n : Nat) : n % cpuLimit < cpuLimit := Nat.mod_lt n cpuLimit_pos

/-- The place of the queue that serves a CPU of a number. -/
def Policy.queueFor (policy : Policy) (cpu : Nat) : CpuIndex :=
  match policy with
  | .global => ⟨0, cpuLimit_pos⟩
  | .perCpu => ⟨cpu % cpuLimit, mod_cpuLimit_lt cpu⟩

/-- The images with the queues they are for. -/
def placed (policy : Policy) (images : List (Image × Nat)) : List (CpuIndex × Image) :=
  images.map fun x => (policy.queueFor x.2, x.1)

/-- A CPU that exists has a queue that is in use; one queue for all serves CPUs of any number. -/
theorem Division.queueFor_lt {policy : Policy} {ncpu cpu : Nat} (h : Division policy ncpu)
    (hcpu : policy = .global ∨ cpu < ncpu) : (policy.queueFor cpu).val < ncpu := by
  cases policy with
  | global => exact h.pos
  | perCpu =>
    have hlt : cpu < ncpu := hcpu.resolve_left nofun
    exact Nat.lt_of_le_of_lt (Nat.mod_le cpu cpuLimit) hlt

/-- A CPU that exists has the queue of its own number. -/
theorem Division.queueFor_val {policy : Policy} {ncpu : Nat} {c : CpuIndex}
    (h : Division policy ncpu) (hc : c.val < ncpu) : policy.queueFor c.val = c := by
  cases policy with
  | global => exact Fin.ext (Nat.lt_one_iff.1 (h.alone rfl ▸ hc)).symm
  | perCpu => exact Fin.ext (Nat.mod_eq_of_lt c.isLt)

/-- The CPUs of the first numbers, in order. -/
theorem map_val_finRange_filter {n : Nat} (h : n ≤ cpuLimit) :
    ((List.finRange cpuLimit).filter (·.val < n)).map (·.val) = List.range n := by
  have hall : ∀ n : Fin (cpuLimit + 1),
      ((List.finRange cpuLimit).filter (·.val < n.val)).map (·.val) = List.range n.val := by decide
  exact hall ⟨n, Nat.lt_succ_of_le h⟩

/-- The queues of the CPUs that exist, in order. -/
theorem Division.map_queueFor {policy : Policy} {ncpu : Nat} (h : Division policy ncpu) :
    (List.range ncpu).map policy.queueFor = (List.finRange cpuLimit).filter (·.val < ncpu) := by
  rw [← map_val_finRange_filter h.le, List.map_map]
  refine (List.map_congr_left fun c hc => ?_).trans (List.map_id _)
  exact h.queueFor_val (of_decide_eq_true (List.mem_filter.1 hc).2)

/-! ## Loading one after the other -/

section Load

variable {M α : Type} [Memory M]

/-- The programs are loaded one after the other, each into an address space of its own, unless memory
refuses one. -/
def loadEach : List (α × Image) → M → Option (List (α × Loaded) × M)
  | [], mem => some ([], mem)
  | (a, image) :: l, mem =>
    match (Memory.createSpace mem : EStateM.Result MemoryError M PageDir) with
    | .error _ _ => none
    | .ok dir mem =>
      match (Memory.loadImage dir image mem : EStateM.Result MemoryError M Nat) with
      | .error _ _ => none
      | .ok entry mem => (loadEach l mem).map fun r => ((a, ⟨dir, entry⟩) :: r.1, r.2)

variable {l : List (α × Image)} {r : List (α × Loaded)} {a : α} {image : Image} {mem mem' : M}

theorem loadEach_cons (h : loadEach ((a, image) :: l) mem = some (r, mem')) :
    ∃ (p : Loaded) (mem₁ mem₂ : M) (r' : List (α × Loaded)),
      Memory.createSpace mem = .ok p.dir mem₁ ∧
      Memory.loadImage p.dir image mem₁ = .ok p.entry mem₂ ∧
      loadEach l mem₂ = some (r', mem') ∧ r = (a, p) :: r' := by
  unfold loadEach at h
  split at h
  · cases h
  · next dir mem₁ hdir =>
    split at h
    · cases h
    · next entry mem₂ hload =>
      obtain ⟨⟨r', _⟩, hrest, heq⟩ := Option.map_eq_some_iff.1 h
      cases heq
      exact ⟨⟨dir, entry⟩, mem₁, mem₂, r', hdir, hload, hrest, rfl⟩

/-- Each program stays with what it was given with. -/
theorem map_fst_loadEach (h : loadEach l mem = some (r, mem')) :
    r.map Prod.fst = l.map Prod.fst := by
  induction l generalizing mem r with
  | nil =>
    cases h
    rfl
  | cons x l ih =>
    obtain ⟨a, image⟩ := x
    obtain ⟨p, mem₁, mem₂, r', -, -, hrest, rfl⟩ := loadEach_cons h
    rw [List.map_cons, List.map_cons, ih hrest]

end Load

section Share

variable {α β : Type} {c : CpuIndex}

theorem length_share (l : List (CpuIndex × α)) (c : CpuIndex) :
    (share l c).length = (l.map Prod.fst).count c := by
  rw [share, List.length_map, List.count, List.countP_map, List.countP_eq_length_filter]
  rfl

/-- What goes with the same queues is as much for each of them. -/
theorem length_share_of_map_fst {l : List (CpuIndex × α)} {l' : List (CpuIndex × β)}
    (h : l.map Prod.fst = l'.map Prod.fst) (c : CpuIndex) :
    (share l c).length = (share l' c).length := by
  rw [length_share, length_share, h]

/-- One for each of several queues is one for a queue. -/
theorem exists_share_eq {l : List (CpuIndex × α)} (hnodup : (l.map Prod.fst).Nodup)
    (hc : c ∈ l.map Prod.fst) : ∃ p, share l c = [p] := by
  refine List.length_eq_one_iff.1 ?_
  rw [length_share]
  rw [hnodup.count, if_pos hc]

end Share

namespace State

variable {M : Type} {policy : Policy} {ncpu cpu : Nat} {k : State M} {c : CpuIndex} {s : Slot}
  {l : List (CpuIndex × Loaded)}

/-- A kernel's queues are where its policy has them. -/
theorem Sound.queueOf_eq (h : Sound policy ncpu k) (cpu : Nat) :
    k.queueOf cpu = policy.queueFor cpu := by
  rw [← h.policy_eq]
  rfl

theorem Filled.hush (h : Filled policy ncpu l k) : Filled policy ncpu l k.hush :=
  ⟨h.sound.alike rfl rfl fun _ => .refl _, h.current, h.head, h.ready, fun c hc i s hi hs =>
    ⟨(h.blank c hc i s hi hs).status, (h.blank c hc i s hi hs).nextFree⟩⟩

end State

/-! ## The first pass -/

/-- The environment is at the start of the program, and nobody made it. -/
structure Loaded.Starts (p : Loaded) (status : Status) (e : Env) : Prop where
  status : e.status = status
  parent : e.parent = none
  frame : e.frame = p.frame
  pgdir : e.pgdir = p.dir

namespace State

variable {M : Type} {policy : Policy} {ncpu cpu : Nat} {k : State M} {c : CpuIndex} {s : Slot}
  {l : List (CpuIndex × Loaded)} {idle : Loaded} {others : List Loaded}

namespace Filled

variable (h : Filled policy ncpu l k) (hc : c.val < ncpu)

include h hc

theorem runQueue_eq : k.runQueue c.val = k.queue c := by
  rw [runQueue, h.sound.queueOf_self hc]

theorem current_eq_none : k.current c.val = none := by
  rw [State.current, h.runQueue_eq hc]
  exact h.current c

/-- A slot that can run has a program of its queue in it. -/
theorem exists_place_of_canRun (hs : (k.queue c).contains s)
    (hrun : (k.env s).status.canRun = true) :
    ∃ i, i < (share l c).length ∧ (RunQueue.forCpu policy c).slotAt i = some s := by
  have hin := (h.sound.division.contains_forCpu hc).2 ((h.sound.contains_iff hc).1 hs)
  rw [RunQueue.contains_iff] at hin
  have hplace : (RunQueue.forCpu policy c).slotAt (s.val - (RunQueue.forCpu policy c).start.val) =
      some s := RunQueue.slotAt_eq_some_iff.2 ⟨by omega, by omega⟩
  refine ⟨_, Nat.lt_of_not_le fun hle => ?_, hplace⟩
  have hfree := (h.blank c hc _ s hle hplace).status
  rw [hfree] at hrun
  cases hrun

/-- **The first pass** gives a CPU the environment behind its idle one, if there is one. -/
theorem first_pass (hl : share l c = idle :: others) :
    ∃ s, (RunQueue.forCpu policy c).slotAt (min 1 others.length) = some s ∧
      k.scheduleNext c.val =
        .ok (.ok ⟨s, (others.headD idle).frame, (others.headD idle).dir⟩, k.running c.val s) := by
  have hqueue := h.runQueue_eq hc
  have hnone := h.current_eq_none hc
  have hplace : (share l c)[min 1 others.length]? = some (others.headD idle) := by
    rw [hl]
    cases others <;> rfl
  obtain ⟨s, hs, hready⟩ := h.ready c hc _ _ hplace
  refine ⟨s, hs, ?_⟩
  have hdispatch : k.dispatchOf s = ⟨s, (others.headD idle).frame, (others.headD idle).dir⟩ := by
    rw [dispatchOf, hready.frame, hready.pgdir]
  rw [← hdispatch]
  have hin : (k.queue c).contains s := (h.sound.contains_iff hc).2
    ((h.sound.division.contains_forCpu hc).1 (RunQueue.contains_of_slotAt hs))
  cases others with
  | nil =>
    -- nothing else can run, so what is found is the idle environment
    have hcur : ∀ s, k.current c.val = some s → (k.runQueue c.val).contains s := by
      rw [hnone]
      exact nofun
    rcases scheduleNext_of_contains hcur with ⟨e, he⟩ | ⟨t, ht, hrun, hnext⟩
    · have hidle := (h.sound.idle_of_scheduleNext hc he (hqueue ▸ hin)).2
      rw [hready.status] at hidle
      cases hidle
    · obtain ⟨i, hi, hti⟩ := h.exists_place_of_canRun hc (hqueue ▸ ht) hrun
      obtain rfl : i = 0 := by
        rw [hl] at hi
        exact Nat.lt_one_iff.1 hi
      cases hs.symm.trans hti
      exact hnext
  | cons p others =>
    -- the round starts behind the idle slot
    refine h.sound.scheduleNext_of_found hc ?_
    have hlast : k.lastSlot c.val = (k.queue c).idle := by
      rw [lastSlot, hqueue, h.current c]
      rfl
    obtain ⟨hlen, hval⟩ := RunQueue.slotAt_eq_some_iff.1 hs
    rw [← h.sound.len_eq c hc] at hlen
    rw [← h.sound.start_eq c hc] at hval
    obtain ⟨n, hn⟩ :=
      Nat.exists_eq_succ_of_ne_zero (Nat.ne_of_gt (Nat.lt_of_le_of_lt (Nat.zero_le _) hlen))
    obtain ⟨t, hround, -, ht⟩ := RunQueue.round_succ
      (RunQueue.contains_idle (q := k.queue c) (by omega)) n
    have hone : t = s := by
      refine Fin.ext ?_
      have hmod : (1 : Nat) % (k.queue c).len = 1 := Nat.mod_eq_of_lt hlen
      rw [RunQueue.idle, Nat.sub_self, Nat.zero_add, hmod] at ht
      exact ht.trans hval.symm
    have hwaits : k.Waits c.val s := by
      refine ⟨fun heq => ?_, hready.status⟩
      rw [hqueue] at heq
      rw [heq] at hval
      exact absurd hval (Nat.ne_of_lt (Nat.lt_succ_self _))
    rw [hqueue, hlast, hn, hround, hone]
    exact List.find?_cons_of_pos (decide_eq_true hwaits)

/-- **Everything is where it was put** once a CPU was given the environment at a place of its slice. -/
theorem starts {i : Nat} (hs : (RunQueue.forCpu policy c).slotAt i = some s) {d : CpuIndex}
    (hd : d.val < ncpu) {j : Nat} {p : Loaded} (hp : (share l d)[j]? = some p) :
    ∃ t, (RunQueue.forCpu policy d).slotAt j = some t ∧
      p.Starts (if d = c ∧ j = i then .running else .runnable) ((k.running c.val s).env t) := by
  have hnone := h.current_eq_none hc
  obtain ⟨t, ht, hready⟩ := h.ready d hd j p hp
  refine ⟨t, ht, ?_⟩
  rw [env_running, hnone]
  by_cases hst : t = s
  · subst hst
    have hdowns := (h.sound.division.contains_forCpu hd).1 (RunQueue.contains_of_slotAt ht)
    have howns := (h.sound.division.contains_forCpu hc).1 (RunQueue.contains_of_slotAt hs)
    obtain rfl := hdowns.unique howns
    rw [if_pos rfl, if_pos ⟨rfl, RunQueue.slotAt_inj ht hs⟩]
    exact ⟨rfl, hready.parent, hready.frame, hready.pgdir⟩
  · have hapart : ¬ (d = c ∧ j = i) := by
      rintro ⟨rfl, rfl⟩
      exact hst (Option.some.inj (ht.symm.trans hs))
    rw [if_neg hst, if_neg hapart, if_neg fun h => nomatch h.1]
    exact ⟨hready.status, hready.parent, hready.frame, hready.pgdir⟩

end Filled

end State

end Exokernel
