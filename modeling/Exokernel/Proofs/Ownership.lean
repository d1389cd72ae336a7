import Exokernel.Memory.Frames
import Exokernel.Proofs.Calls
import Exokernel.Proofs.Runs
import Exokernel.Proofs.Scheduling
/-!
# Who owns a slot

Setting the table up gives every slot of a slice to one CPU. `Sound` says what stays true of that
afterwards: slices do not move, the slot a CPU runs is an occupied one of its own, an environment
that runs is the one its CPU runs, and the free slots of a slice hang on one list that starts at its
run queue. Each effect on the state keeps it (`Sound.effect`), so every reached state has it
(`Reached.sound`).
-/

namespace Exokernel

/-- What may have the CPU is occupied. -/
theorem Status.ne_free_of_canRun {st : Status} (h : st.canRun = true) : st ≠ .free := by
  rintro rfl
  cases h

/-! ## Slices -/

/-- The CPUs a policy can divide the table among. -/
structure Division (policy : Policy) (ncpu : Nat) : Prop where
  pos : 1 ≤ ncpu
  le : ncpu ≤ cpuLimit
  alone : policy = .global → ncpu = 1

/-- The slot is one of the CPU's. -/
def Owns (policy : Policy) (ncpu : Nat) (c : CpuIndex) (s : Slot) : Prop :=
  State.ownerUnder policy ncpu s = some c

theorem Owns.unique {policy : Policy} {ncpu : Nat} {c d : CpuIndex} {s : Slot}
    (h : Owns policy ncpu c s) (h' : Owns policy ncpu d s) : c = d :=
  Option.some.inj (h.symm.trans h')

namespace Division

variable {policy : Policy} {ncpu : Nat} {c : CpuIndex} {s : Slot}

/-- One queue for all owns the whole table, and each of several its own part of it. -/
theorem owns_iff (h : Division policy ncpu) (hc : c.val < ncpu) :
    Owns policy ncpu c s ↔ policy = .global ∨ s.val / sliceSize = c.val := by
  unfold Owns State.ownerUnder
  cases policy with
  | global =>
    have := h.alone rfl
    simp [Fin.ext_iff]
    omega
  | perCpu =>
    simp only [reduceCtorEq, false_or]
    split
    · simp [Fin.ext_iff]
    · next hs => simp; omega

theorem lt_of_owns (h : Division policy ncpu) (hs : Owns policy ncpu c s) : c.val < ncpu := by
  unfold Owns State.ownerUnder at hs
  cases policy with
  | global =>
    have hc := Option.some.inj hs
    have := h.pos
    rw [← hc]
    exact this
  | perCpu =>
    simp only at hs
    split at hs
    · next hlt => rw [← Option.some.inj hs]; exact hlt
    · cases hs

/-- **A run queue holds the slots of its CPU.** -/
theorem contains_forCpu (h : Division policy ncpu) (hc : c.val < ncpu) :
    (RunQueue.forCpu policy c).contains s ↔ Owns policy ncpu c s := by
  rw [RunQueue.contains_iff, h.owns_iff hc]
  cases policy with
  | global => simp [RunQueue.forCpu, slotCount]
  | perCpu =>
    simp only [RunQueue.forCpu, reduceCtorEq, false_or, sliceSize]
    omega

/-- **The table can be divided** so. -/
theorem exists_init {M : Type} (h : Division policy ncpu) (k : State M) :
    ∃ k', k.init policy ncpu = .ok k' := by
  unfold State.init Fault.unless
  rw [if_pos ⟨h.pos, h.le⟩]
  dsimp only [bind, Except.bind]
  rw [if_neg fun hp => hp.2 (h.alone hp.1)]
  exact ⟨_, rfl⟩

end Division

/-! ## Linked lists of slots -/

/-- The list is what following `next` from `head` visits. -/
inductive Linked (next : Slot → Option Slot) : Option Slot → List Slot → Prop
  | nil : Linked next none []
  | cons {s : Slot} {l : List Slot} : Linked next (next s) l → Linked next (some s) (s :: l)

namespace Linked

variable {next next' : Slot → Option Slot} {head : Option Slot} {l l' : List Slot}

/-- Only the links of the slots on the list matter. -/
theorem congr (h : Linked next head l) (heq : ∀ s ∈ l, next' s = next s) : Linked next' head l := by
  induction h with
  | nil => exact .nil
  | @cons s l _ ih =>
    refine .cons ?_
    rw [heq s (.head _)]
    exact ih fun t ht => heq t (.tail _ ht)

/-- The list of a slice whose slots each name the next one. -/
theorem of_interval {start stop : Nat} (hstop : stop ≤ slotCount)
    (hnext : ∀ s : Slot, start ≤ s.val → s.val < stop →
      next s = if h : s.val + 1 < stop then some ⟨s.val + 1, by omega⟩ else none) :
    ∀ (n a : Nat) (_ : a + n = stop), start ≤ a →
      ∃ l, Linked next (if h : 0 < n then some ⟨a, by omega⟩ else none) l ∧ l.Nodup ∧
        ∀ s : Slot, s ∈ l ↔ a ≤ s.val ∧ s.val < stop := by
  intro n
  induction n with
  | zero =>
    intro a ha _
    refine ⟨[], .nil, .nil, fun s => ?_⟩
    simp only [List.not_mem_nil, false_iff]
    omega
  | succ n ih =>
    intro a ha hstart
    -- the induction is on how many slots are left, so the list grows from the end of the slice
    obtain ⟨l, hl, hnodup, hmem⟩ := ih (a + 1) (by omega) (by omega)
    have hlink : next ⟨a, by omega⟩ = if h : 0 < n then some ⟨a + 1, by omega⟩ else none := by
      rw [hnext _ hstart (by omega : a < stop)]
      by_cases hn : 0 < n
      · rw [dif_pos hn, dif_pos (by omega : a + 1 < stop)]
      · rw [dif_neg hn, dif_neg (by omega : ¬ a + 1 < stop)]
    refine ⟨⟨a, by omega⟩ :: l, ?_, ?_, fun s => ?_⟩
    · rw [dif_pos (Nat.succ_pos n)]
      exact .cons (hlink ▸ hl)
    · refine List.nodup_cons.2 ⟨fun ha' => ?_, hnodup⟩
      have := (hmem _).1 ha'
      dsimp only at this
      omega
    · rw [List.mem_cons, hmem, Fin.ext_iff]
      dsimp only
      omega

end Linked

/-! ## The invariant -/

/-- The slot has the occupant it had, or none as before, and hangs where it hung. -/
structure Env.Stays (e e' : Env) : Prop where
  cpu : e'.cpu = e.cpu
  lastId : e'.lastId = e.lastId
  parent : e'.parent = e.parent
  pgdir : e'.pgdir = e.pgdir
  nextFree : e'.nextFree = e.nextFree
  free : e'.status = .free ↔ e.status = .free

/-- The same, and its occupant does not start to run. -/
structure Env.Alike (e e' : Env) : Prop extends Env.Stays e e' where
  running : e'.status = .running → e.status = .running

theorem Env.Stays.refl (e : Env) : Env.Stays e e := ⟨rfl, rfl, rfl, rfl, rfl, .rfl⟩

theorem Env.Stays.trans {e e' e'' : Env} (h : Env.Stays e e') (h' : Env.Stays e' e'') :
    Env.Stays e e'' :=
  ⟨h'.cpu.trans h.cpu, h'.lastId.trans h.lastId, h'.parent.trans h.parent, h'.pgdir.trans h.pgdir,
    h'.nextFree.trans h.nextFree, h'.free.trans h.free⟩

/-- Registers and an upcall are not what an occupant is known by. -/
theorem Env.Alike.of_registers (e : Env) (f : TrapFrame) (upcall : Nat) :
    Env.Alike e { e with frame := f, upcall := upcall } :=
  ⟨⟨rfl, rfl, rfl, rfl, rfl, .rfl⟩, fun h => h⟩

theorem Env.Alike.refl (e : Env) : Env.Alike e e := .of_registers e e.frame e.upcall

/-- An occupant that is stopped or woken, or gets other registers, an upcall or a message, stays. -/
theorem Env.Alike.of_occupied {e : Env} (h : e.status ≠ .free) (st : Status)
    (hfree : st ≠ .free) (hrunning : st ≠ .running) (f : TrapFrame) (b : Inbox) :
    Env.Alike e { e with status := st, frame := f, inbox := b } :=
  ⟨⟨rfl, rfl, rfl, rfl, rfl, by simp [h, hfree]⟩, fun hr => absurd hr hrunning⟩

namespace State

variable {M : Type} {policy : Policy} {ncpu : Nat}

/-- **The table is divided among the CPUs**, and each slot is where it belongs. -/
structure Sound (policy : Policy) (ncpu : Nat) (k : State M) : Prop where
  division : Division policy ncpu
  policy_eq : k.policy = policy
  /-- Slices do not move. -/
  start_eq : ∀ c : CpuIndex, c.val < ncpu →
    (k.queue c).start = (RunQueue.forCpu policy c).start
  len_eq : ∀ c : CpuIndex, c.val < ncpu → (k.queue c).len = (RunQueue.forCpu policy c).len
  /-- A slot names its owner. -/
  owner : ∀ c s, Owns policy ncpu c s → (k.env s).cpu = c
  /-- What belongs to nobody is not used. -/
  stray : ∀ s, ownerUnder policy ncpu s = none → (k.env s).status = .free
  /-- What runs is what its CPU runs. -/
  running : ∀ c s, Owns policy ncpu c s → (k.env s).status = .running →
    (k.queue c).current = some s
  /-- What a CPU runs is an occupied slot of its own. -/
  current : ∀ (c : CpuIndex) s, c.val < ncpu → (k.queue c).current = some s →
    Owns policy ncpu c s ∧ (k.env s).status ≠ .free
  /-- What is free hangs on the list of its CPU. -/
  chain : ∀ c : CpuIndex, c.val < ncpu → ∃ l,
    Linked (fun s => (k.env s).nextFree) (k.queue c).freeHead l ∧ l.Nodup ∧
      ∀ s, s ∈ l ↔ Owns policy ncpu c s ∧ (k.env s).status = .free

/-- A slot is given something with the same occupant, and the others are left alone. -/
theorem stays_setEnv (k : State M) {s : Slot} {e : Env} (he : Env.Stays (k.env s) e) (t : Slot) :
    Env.Stays (k.env t) ((k.setEnv s e).env t) :=
  rel_setEnv Env.Stays.refl k he t

/-- Whoever gets the CPU, every slot keeps its occupant. -/
theorem stays_running (k : State M) (cpu : Nat) {s : Slot} (hs : (k.env s).status ≠ .free)
    (t : Slot) :
    Env.Stays (k.env t) ((k.running cpu s).env t) := by
  rw [env_running]
  split
  · next heq =>
      subst heq
      exact ⟨rfl, rfl, rfl, rfl, rfl, by simp [hs]⟩
  · split
    · next hsus => exact ⟨rfl, rfl, rfl, rfl, rfl, by simp [hsus.2]⟩
    · exact .refl _

namespace Sound

variable {k k' : State M} {cpu : Nat} {c : CpuIndex} {s : Slot} (h : Sound policy ncpu k)

include h

/-- **A CPU that takes part has the run queue of its own number.** -/
theorem queueOf_val (hcpu : cpu < ncpu) : (k.queueOf cpu).val = cpu := by
  have := h.division.le
  unfold queueOf
  rw [h.policy_eq]
  cases hp : policy with
  | global =>
    -- one queue for all means one CPU, whose number is 0
    have := h.division.alone hp
    dsimp only
    omega
  | perCpu => exact Nat.mod_eq_of_lt (by omega)

theorem queueOf_lt (hcpu : cpu < ncpu) : (k.queueOf cpu).val < ncpu :=
  (h.queueOf_val hcpu).symm ▸ hcpu

/-- Run queues are as far apart as CPUs. -/
theorem queueOf_eq_iff (hcpu : cpu < ncpu) : c = k.queueOf cpu ↔ c.val = cpu := by
  rw [Fin.ext_iff, h.queueOf_val hcpu]

theorem queueOf_self (hc : c.val < ncpu) : k.queueOf c.val = c :=
  ((h.queueOf_eq_iff hc).2 rfl).symm

theorem contains_iff (hc : c.val < ncpu) : (k.queue c).contains s ↔ Owns policy ncpu c s := by
  rw [← h.division.contains_forCpu hc, RunQueue.contains_iff, RunQueue.contains_iff, h.start_eq c hc,
    h.len_eq c hc]

/-- The slot a CPU runs is one of its slice. -/
theorem contains_current (hcpu : cpu < ncpu) (hs : k.current cpu = some s) :
    (k.runQueue cpu).contains s :=
  (h.contains_iff (h.queueOf_lt hcpu)).2 (h.current _ s (h.queueOf_lt hcpu) hs).1

/-- The slot a CPU runs is occupied. -/
theorem current_ne_free (hcpu : cpu < ncpu) (hs : k.current cpu = some s) :
    (k.env s).status ≠ .free :=
  (h.current _ s (h.queueOf_lt hcpu) hs).2

/-- What is occupied belongs to the CPU it names. -/
theorem owns_cpu (hs : (k.env s).status ≠ .free) : Owns policy ncpu (k.env s).cpu s := by
  cases ho : ownerUnder policy ncpu s with
  | none => exact absurd (h.stray s ho) hs
  | some c => rw [h.owner c s ho]; exact ho

/-- The first free slot of a run queue is a free one of its CPU. -/
theorem head (hc : c.val < ncpu) (hs : (k.queue c).freeHead = some s) :
    Owns policy ncpu c s ∧ (k.env s).status = .free := by
  obtain ⟨l, hl, -, hmem⟩ := h.chain c hc
  rw [hs] at hl
  cases hl with
  | cons => exact (hmem s).1 (.head _)

/-! ## Changes that keep it -/

/-- Nothing changes but the contents of slots, each to one like it. -/
theorem alike (hp : k'.policy = k.policy) (hq : k'.queues = k.queues)
    (he : ∀ s, Env.Alike (k.env s) (k'.env s)) : Sound policy ncpu k' := by
  have hq' : ∀ c, k'.queue c = k.queue c := fun c => congrArg (·[c]) hq
  refine ⟨h.division, hp.trans h.policy_eq, fun c hc => ?_, fun c hc => ?_, fun c s hs => ?_,
    fun s hs => (he s).free.2 (h.stray s hs), fun c s hs hr => ?_, fun c s hc hs => ?_,
    fun c hc => ?_⟩
  · rw [hq' c, h.start_eq c hc]
  · rw [hq' c, h.len_eq c hc]
  · rw [(he s).cpu, h.owner c s hs]
  · rw [hq' c]
    exact h.running c s hs ((he s).running hr)
  · rw [hq' c] at hs
    exact ⟨(h.current c s hc hs).1, mt (he s).free.1 (h.current c s hc hs).2⟩
  · obtain ⟨l, hl, hnodup, hmem⟩ := h.chain c hc
    rw [hq' c]
    exact ⟨l, hl.congr fun s _ => (he s).nextFree, hnodup, fun s => by rw [hmem, (he s).free]⟩

theorem say (l : Log.Level) (t m : String) : Sound policy ncpu (k.say l t m) :=
  h.alike rfl rfl fun _ => .refl _

theorem setMemory (mem : M) : Sound policy ncpu { k with memory := mem } :=
  h.alike rfl rfl fun _ => .refl _

theorem setEnv {e : Env} (he : Env.Alike (k.env s) e) : Sound policy ncpu (k.setEnv s e) :=
  h.alike rfl rfl (rel_setEnv Env.Alike.refl k he)

theorem mapEnv {f : Env → Env} (hf : Env.Alike (k.env s) (f (k.env s))) :
    Sound policy ncpu (k.mapEnv s f) :=
  h.setEnv hf

/-- **Taking a slot**: the list goes on behind the slot taken. -/
theorem occupy (hcpu : cpu < ncpu) (hs : (k.runQueue cpu).freeHead = some s)
    (parent : Option EnvId) (dir : PageDir) (mem : M) :
    Sound policy ncpu (k.occupy cpu s parent dir mem) := by
  have hc := h.queueOf_lt hcpu
  have hq := fun q => queue_occupy k cpu s q parent dir mem
  have he := fun t => env_occupy k cpu s t parent dir mem
  have hnew : (occupied (k.env s) s parent dir).status ≠ .free := by
    have hself := status_occupy_ne_free k cpu s parent dir mem
    rw [he, if_pos rfl] at hself
    exact hself
  obtain ⟨howns, hfree⟩ := h.head hc hs
  refine ⟨h.division, h.policy_eq, fun c hc' => ?_, fun c hc' => ?_, fun c t ht => ?_,
    fun t ht => ?_, fun c t ht hr => ?_, fun c t hc' ht => ?_, fun c hc' => ?_⟩
  · rw [hq, ← h.start_eq c hc']
    split <;> rfl
  · rw [hq, ← h.len_eq c hc']
    split <;> rfl
  · rw [he, ← h.owner c t ht]
    split
    · next heq => rw [heq]; rfl
    · rfl
  · have hne : t ≠ s := fun heq => by rw [heq, howns] at ht; cases ht
    rw [he, if_neg hne]
    exact h.stray t ht
  · rw [he] at hr
    split at hr
    · cases hr
    · rw [hq, ← h.running c t ht hr]
      split <;> rfl
  · have hcur : (k.queue c).current = some t := by
      rw [← ht, hq]
      split <;> rfl
    refine ⟨(h.current c t hc' hcur).1, ?_⟩
    rw [he]
    split
    · exact hnew
    · exact (h.current c t hc' hcur).2
  · obtain ⟨l, hl, hnodup, hmem⟩ := h.chain c hc'
    have hlinks : ∀ t, t ≠ s →
        ((k.occupy cpu s parent dir mem).env t).nextFree = (k.env t).nextFree := fun t ht => by
      rw [he, if_neg ht]
    rw [hq]
    -- the list of the CPU loses its first slot, and the slot is on no other list
    by_cases hown : c = k.queueOf cpu
    · subst hown
      rw [if_pos rfl]
      change (k.queue _).freeHead = some s at hs
      rw [hs] at hl
      cases hl with
      | @cons _ l hl =>
        obtain ⟨hsl, hnodup⟩ := List.nodup_cons.1 hnodup
        refine ⟨l, hl.congr fun t ht => hlinks t fun heq => hsl (heq ▸ ht), hnodup, fun t => ?_⟩
        rw [he]
        by_cases ht : t = s
        · subst ht
          simp [hsl, hnew]
        · rw [if_neg ht, ← hmem, List.mem_cons]
          simp [ht]
    · have hsl : s ∉ l := fun hmem' => hown (((hmem s).1 hmem').1.unique howns)
      rw [if_neg hown]
      refine ⟨l, hl.congr fun t ht => hlinks t fun heq => hsl (heq ▸ ht), hnodup, fun t => ?_⟩
      rw [he]
      by_cases ht : t = s
      · subst ht
        simp [hsl, hnew]
      · rw [if_neg ht, hmem]

/-- **Giving a slot back**: it becomes the first one on the list of its owner. -/
theorem free [Memory M] (hs : (k.env s).status ≠ .free) : Sound policy ncpu (k.free s) := by
  have howns := h.owns_cpu hs
  have hlt := h.division.lt_of_owns howns
  have hq := fun q => queue_free k s q
  simp only [h.queueOf_self hlt] at hq
  have he := fun t => env_free k s t
  refine ⟨h.division, h.policy_eq, fun c hc => ?_, fun c hc => ?_, fun c t ht => ?_,
    fun t ht => ?_, fun c t ht hr => ?_, fun c t hc ht => ?_, fun c hc => ?_⟩
  · rw [hq, ← h.start_eq c hc]
    split <;> rfl
  · rw [hq, ← h.len_eq c hc]
    split <;> rfl
  · rw [he, ← h.owner c t ht]
    split
    · next heq => rw [heq]
    · rfl
  · rw [he]
    split
    · rfl
    · exact h.stray t ht
  · rw [he] at hr
    split at hr
    · cases hr
    · next hne =>
      have hcur := h.running c t ht hr
      rw [hq]
      split
      · dsimp only
        rw [hcur, if_neg fun heq => hne (Option.some.inj heq)]
      · exact hcur
  · have hcur : t ≠ s ∧ (k.queue c).current = some t := by
      rw [hq] at ht
      split at ht
      · dsimp only at ht
        split at ht
        · cases ht
        · next hne => exact ⟨fun heq => hne (heq ▸ ht), ht⟩
      · next hown =>
        refine ⟨fun heq => hown ?_, ht⟩
        exact (h.current c t hc ht).1.unique (heq ▸ howns)
    rw [he, if_neg hcur.1]
    exact h.current c t hc hcur.2
  · obtain ⟨l, hl, hnodup, hmem⟩ := h.chain c hc
    -- an occupied slot is on no list, so none has it twice afterwards
    have hsl : s ∉ l := fun hmem' => hs ((hmem s).1 hmem').2
    have hlinks : ∀ t ∈ l, ((k.free s).env t).nextFree = (k.env t).nextFree := fun t ht => by
      have hne : t ≠ s := fun heq => hsl (heq ▸ ht)
      rw [he, if_neg hne]
    rw [hq]
    by_cases hown : c = (k.env s).cpu
    · rw [if_pos hown]
      refine ⟨s :: l, .cons ?_, List.nodup_cons.2 ⟨hsl, hnodup⟩, fun t => ?_⟩
      · have hnext : ((k.free s).env s).nextFree = (k.queue c).freeHead := by
          rw [he, if_pos rfl, hown]
          exact congrArg (fun q => (k.queue q).freeHead) (h.queueOf_self hlt)
        rw [hnext]
        exact hl.congr hlinks
      · rw [he, List.mem_cons]
        by_cases ht : t = s
        · subst ht
          simp [hown, howns]
        · rw [if_neg ht, hmem]
          simp [ht]
    · rw [if_neg hown]
      refine ⟨l, hl.congr hlinks, hnodup, fun t => ?_⟩
      rw [he]
      by_cases ht : t = s
      · subst ht
        have hother : ¬ Owns policy ncpu c t := fun ho => hown (ho.unique howns)
        simp [hsl, hother]
      · rw [if_neg ht, hmem]

/-- **Handing a CPU over** to a slot of its slice that can run. -/
theorem running_of_contains (hcpu : cpu < ncpu) (hs : (k.runQueue cpu).contains s)
    (hfree : (k.env s).status ≠ .free) : Sound policy ncpu (k.running cpu s) := by
  have hc := h.queueOf_lt hcpu
  have howns := (h.contains_iff hc).1 hs
  have hq := fun q => queue_running k cpu s q
  have hstays := fun t => stays_running k cpu hfree t
  -- lists of free slots are left alone; what is left to show is about what runs
  have hhead : ∀ c, ((k.running cpu s).queue c).freeHead = (k.queue c).freeHead := by
    intro c
    rw [hq]
    split <;> rfl
  refine ⟨h.division, ?_, fun c hc' => ?_, fun c hc' => ?_, fun c t ht => ?_,
    fun t ht => (hstays t).free.2 (h.stray t ht), fun c t ht hr => ?_, fun c t hc' ht => ?_,
    fun c hc' => ?_⟩
  · rw [policy_running, h.policy_eq]
  · rw [hq, ← h.start_eq c hc']
    split <;> rfl
  · rw [hq, ← h.len_eq c hc']
    split <;> rfl
  · rw [(hstays t).cpu, h.owner c t ht]
  · rw [hq]
    rw [env_running] at hr
    split at hr
    · next heq =>
      subst heq
      rw [if_pos (ht.unique howns)]
    · next hne =>
      split at hr
      · cases hr
      · next hsus =>
        -- what still runs is not what this CPU ran, so it belongs to another CPU
        have hcur := h.running c t ht hr
        rw [if_neg fun hown => hsus ⟨?_, hr⟩, hcur]
        rw [hown] at hcur
        exact hcur
  · rw [hq] at ht
    split at ht
    · next hown =>
      obtain rfl : s = t := Option.some.inj ht
      exact ⟨hown ▸ howns, mt (hstays s).free.1 hfree⟩
    · exact ⟨(h.current c t hc' ht).1, mt (hstays t).free.1 (h.current c t hc' ht).2⟩
  · obtain ⟨l, hl, hnodup, hmem⟩ := h.chain c hc'
    rw [hhead]
    exact ⟨l, hl.congr fun t _ => (hstays t).nextFree, hnodup, fun t => by
      rw [hmem, (hstays t).free]⟩

/-! ## Every step keeps it -/

/-- What a word names is occupied. -/
theorem resolve_ne_free (hcpu : cpu < ncpu) {raw : UInt32} {check : Bool}
    (hs : k.resolve cpu raw check = .ok s) : (k.env s).status ≠ .free := by
  obtain hcur | ⟨id, -, hid, -⟩ := resolve_cases hs
  · exact h.current_ne_free hcpu hcur
  · exact (Env.id_eq_some_iff.1 hid).1

theorem governs_ne_free (hcpu : cpu < ncpu) (hs : k.Governs cpu s) : (k.env s).status ≠ .free := by
  obtain ⟨raw, hraw⟩ := hs
  exact h.resolve_ne_free hcpu hraw

/-- What a CPU writes into a slot is like what was there. -/
theorem alike_of_amends (hcpu : cpu < ncpu) {e : Env} (he : Amends k cpu s e) :
    Env.Alike (k.env s) e := by
  cases he with
  | save => exact .of_registers _ _ _
  | upcall => exact .of_registers _ _ _
  | status hs hst =>
    have hfree := h.governs_ne_free hcpu hs
    rcases hst with rfl | rfl
    · exact .of_occupied hfree .runnable nofun nofun _ _
    · exact .of_occupied hfree .notRunnable nofun nofun _ _
  | listen _ hs => exact .of_occupied (h.current_ne_free hcpu hs) .notRunnable nofun nofun _ _

variable [Memory M]

theorem change (hcpu : cpu < ncpu) (hk : Change cpu k k') : Sound policy ncpu k' := by
  cases hk with
  | speak => exact h.say _ _ _
  | touch => exact h.setMemory _
  | amend he => exact h.setEnv (h.alike_of_amends hcpu he)
  | fork hp hs hdir =>
    exact (h.occupy hcpu hs _ _ _).setEnv (.of_registers _ _ _)

/-- **Destroying an environment** marks it if it runs on another CPU, and frees its slot
otherwise. -/
theorem destroy (cpu : Nat) (hs : (k.env s).status ≠ .free) :
    Sound policy ncpu (k.destroy cpu s).2 := by
  rcases destroy_cases k cpu s with ⟨-, hk⟩ | ⟨-, hk⟩
  · rw [hk]
    exact h.setEnv (.of_occupied hs .dying nofun nofun _ _)
  · rw [hk]
    exact h.free hs

/-- A message is left in its receiver's slot, and nowhere else. -/
theorem alike_of_delivery (hcpu : cpu < ncpu) {target value perm : UInt32} {srcva : Nat}
    {receiver : Slot} (hk : Delivery k cpu target value srcva perm receiver k') (t : Slot) :
    Env.Alike (k.env t) (k'.env t) := by
  have hdeliver : ∀ (k₁ : State M) (sender : Slot) (granted : Perm),
      (k₁.env receiver).status ≠ .free →
        Env.Alike (k₁.env t) ((k₁.deliver sender receiver value granted).env t) := by
    intro k₁ sender granted hfree
    rw [env_deliver]
    split
    · next ht =>
      rw [ht]
      exact .of_occupied hfree .runnable nofun nofun _ _
    · exact .refl _
  cases hk with
  | word _ hr => exact hdeliver k _ _ (h.resolve_ne_free hcpu hr)
  | page _ hr => exact hdeliver { k with memory := _ } _ _ (h.resolve_ne_free hcpu hr)

theorem delivery (hcpu : cpu < ncpu) {target value perm : UInt32} {srcva : Nat} {receiver : Slot}
    (hk : Delivery k cpu target value srcva perm receiver k') : Sound policy ncpu k' := by
  refine h.alike ?_ ?_ (h.alike_of_delivery hcpu hk)
  · cases hk <;> rfl
  · cases hk <;> rfl

/-- **What a CPU does within its slice keeps the division.** -/
theorem move (hcpu : cpu < ncpu) (hk : Move cpu k k') : Sound policy ncpu k' := by
  cases hk with
  | change hk => exact h.change hcpu hk
  | destroy hs => exact h.destroy cpu (h.governs_ne_free hcpu hs)
  | hush => exact h.alike rfl rfl fun _ => .refl _
  | refuse => exact h.setMemory _
  | occupy hs => exact h.occupy hcpu hs _ _ _
  | load => exact h.setMemory _
  | spoil => exact h.setMemory _
  | launch _ _ hs => exact h.mapEnv (.of_occupied hs .runnable nofun nofun _ _)
  | drop _ hs => exact h.free hs
  | run hs hrun => exact h.running_of_contains hcpu hs (Status.ne_free_of_canRun hrun)

/-- **Every effect keeps the division.** -/
theorem effect (hk : Effect ncpu k k') : Sound policy ncpu k' := by
  cases hk with
  | move hcpu hk => exact h.move hcpu hk
  | deliver hcpu hk => exact h.delivery hcpu hk
  | alloc hcpu hs => exact h.occupy hcpu hs _ _ _
  | free hs => exact h.free hs
  | destroy hs => exact h.destroy _ hs

theorem effects (hk : Effects ncpu k k') : Sound policy ncpu k' := by
  induction hk with
  | refl => exact h
  | tail _ hk ih => exact ih.effect hk

/-! ## Operations, effect by effect -/

omit [Memory M] in
theorem contains_occupy (hcpu : cpu < ncpu) (hs : (k.runQueue cpu).freeHead = some s)
    (parent : Option EnvId) (dir : PageDir) (mem : M) :
    ((k.occupy cpu s parent dir mem).runQueue cpu).contains s :=
  have hc := h.queueOf_lt hcpu
  ((h.occupy hcpu hs parent dir mem).contains_iff hc).2 (h.head hc hs).1

/-- Making an environment: a slot is taken, a program is loaded, and the environment is ready to
start or the slot is given back. -/
theorem moves_create (hcpu : cpu < ncpu) {image : Image} :
    Ends (State.create image cpu) k fun _ k' => Moves cpu k k' := by
  refine ends_create (fun _ => .refl) (fun e mem he => .single (.refuse he))
    (fun s dir mem e mem' hs hdir hload => ?_) fun s dir mem entry mem' hs hdir hload => ?_
  all_goals
    have htaken : Moves cpu k (k.occupy cpu s none dir mem) := .single (.occupy hs hdir)
    have hin := h.contains_occupy hcpu hs none dir mem
    have hfree := status_occupy_ne_free k cpu s none dir mem
    have hpgdir : ((k.occupy cpu s none dir mem).env s).pgdir = dir := by
      rw [env_occupy, if_pos rfl]
      rfl
    -- the directory that is loaded into is the one the slot holds by now
    rw [← hpgdir] at hload
  · exact .tail (.tail htaken (.spoil hin hfree hload)) (.drop hin hfree)
  · exact .tail (.tail htaken (.load hin hfree hload)) (.launch entry hin hfree)

theorem moves_reap (hcpu : cpu < ncpu) : Moves cpu k (k.reap cpu).2 := by
  unfold State.reap
  split
  · next s hs =>
    split
    · exact .single (.drop (h.contains_current hcpu hs) (h.current_ne_free hcpu hs))
    · exact .refl
  · exact .refl

omit [Memory M] in
/-- Scheduling goes through. -/
theorem scheduleNext_cases (hcpu : cpu < ncpu) :
    (∃ e, k.scheduleNext cpu = .ok (.error e, k)) ∨
      ∃ s, (k.runQueue cpu).contains s ∧ (k.env s).status.canRun = true ∧
        k.scheduleNext cpu = .ok (.ok (k.dispatchOf s), k.running cpu s) :=
  scheduleNext_of_contains fun s => h.contains_current hcpu (s := s)

omit [Memory M] in
/-- Going on goes through. -/
theorem resume_cases (hcpu : cpu < ncpu) :
    (k.resume cpu = .ok (none, k) ∧
        ∀ s, k.current cpu = some s → (k.env s).status ≠ .running) ∨
      ∃ s, k.current cpu = some s ∧ (k.env s).status = .running ∧
        k.resume cpu = .ok (some (k.dispatchOf s), k.running cpu s) :=
  resume_of_contains fun s => h.contains_current hcpu (s := s)

/-- **Every operation that is in order goes through.** -/
theorem exists_done {a : Action} (ha : a.Proper ncpu k) : ∃ k', a.perform k = .ok k' ∧ Done ncpu k a k' := by
  cases a with
  | alloc parent cpu => exact ⟨_, rfl, .alloc ha parent⟩
  | create image cpu => exact ⟨_, rfl, .create ha image⟩
  | free s => exact ⟨_, rfl, .gone rfl ha⟩
  | destroy cpu s => exact ⟨_, rfl, .destroy ha.1 ha.2⟩
  | syscall cpu tf => exact ⟨_, rfl, .syscall ha tf⟩
  | reap cpu =>
    refine ⟨_, rfl, ?_⟩
    unfold State.reap
    split
    · next s hs =>
      split
      · exact .gone rfl (h.current_ne_free ha hs)
      · exact .still rfl
    · exact .still rfl
  | schedule cpu =>
    rcases h.scheduleNext_cases ha with ⟨e, hk⟩ | ⟨s, hs, hrun, hk⟩
    · exact ⟨k, congrArg (Prod.snd <$> ·) hk, .still rfl⟩
    · exact ⟨_, congrArg (Prod.snd <$> ·) hk, .ran rfl ha hs hrun⟩
  | resume cpu =>
    rcases h.resume_cases ha with ⟨hk, -⟩ | ⟨s, hs, hst, hk⟩
    · exact ⟨k, congrArg (Prod.snd <$> ·) hk, .still rfl⟩
    · refine ⟨_, congrArg (Prod.snd <$> ·) hk, .ran rfl ha (h.contains_current ha hs) ?_⟩
      rw [hst]
      rfl

theorem done {a : Action} (ha : a.Proper ncpu k) (hk : a.perform k = .ok k') : Done ncpu k a k' := by
  obtain ⟨k₁, hk₁, hdone⟩ := h.exists_done ha
  cases hk.symm.trans hk₁
  exact hdone

/-- **What an operation does is a sequence of effects.** -/
theorem effects_of_done {a : Action} (hk : Done ncpu k a k') : Effects ncpu k k' := by
  cases hk with
  | alloc hcpu parent =>
    refine Op.of_ends ?_
    exact ends_alloc (fun _ => .refl) (fun e mem he => .single (.move hcpu (.refuse he)))
      fun s dir mem hs hdir => .single (.alloc hcpu hs hdir)
  | create hcpu image =>
    exact Op.of_ends ((h.moves_create hcpu).imp fun _ _ hk => hk.effects hcpu)
  | destroy _ hs => exact .single (.destroy hs)
  | syscall hcpu tf => exact effects_syscall hcpu tf k
  | gone _ hs => exact .single (.free hs)
  | ran _ hcpu hs hrun => exact .single (.move hcpu (.run hs hrun))
  | still => exact .refl

end Sound

/-! ## Reached states -/

section Reached

variable {k k' : State M} {m₀ : M} {cpu : Nat}

/-- The table is set up for a division it can be given, and says so. -/
theorem init_eq_ok (h : k.init policy ncpu = .ok k') :
    Division policy ncpu ∧
      ∃ text, k' = (k.divide policy ncpu).say .info Log.Target.table text := by
  unfold State.init at h
  by_cases hn : 1 ≤ ncpu ∧ ncpu ≤ cpuLimit
  · rw [Fault.unless, if_pos hn] at h
    by_cases hp : policy = .global ∧ ncpu ≠ 1
    · simp only [if_pos hp] at h
      cases h
    · simp only [if_neg hp] at h
      cases h
      exact ⟨⟨hn.1, hn.2, fun hg => Decidable.byContradiction fun hne => hp ⟨hg, hne⟩⟩, _, rfl⟩
  · rw [Fault.unless, if_neg hn] at h
    cases h

theorem env_divide (k : State M) (s : Slot) :
    (k.divide policy ncpu).env s =
      match ownerUnder policy ncpu s with
      | some c => blankEnv policy c s
      | none => k.env s :=
  Vector.getElem_ofFn s.isLt

theorem queue_divide (k : State M) (c : CpuIndex) :
    (k.divide policy ncpu).queue c =
      if c.val < ncpu then RunQueue.forCpu policy c else RunQueue.empty := by
  simp [divide, queue]

theorem env_fresh (m₀ : M) (s : Slot) : (fresh m₀).env s = { cpu := ⟨0, by decide⟩ } := by
  simp [fresh, env]

/-- Dividing the table frees the slots of every slice. -/
theorem status_divide (policy : Policy) (ncpu : Nat) (m₀ : M) (s : Slot) :
    (((fresh m₀).divide policy ncpu).env s).status = .free := by
  rw [env_divide]
  split
  · rfl
  · rw [env_fresh]

/-- A table that was just set up is empty. -/
theorem vacant_of_init (h : (fresh m₀).init policy ncpu = .ok k) (s : Slot) :
    (k.env s).status = .free ∧ (k.env s).lastId = none ∧ (k.env s).parent = none := by
  obtain ⟨-, text, rfl⟩ := init_eq_ok h
  rw [env_say, env_divide]
  split
  · exact ⟨rfl, rfl, rfl⟩
  · rw [env_fresh]
    exact ⟨rfl, rfl, rfl⟩

/-- **The table is divided** once it is set up. -/
theorem sound_divide (h : Division policy ncpu) :
    Sound policy ncpu ((fresh m₀).divide policy ncpu) := by
  have hstatus := status_divide policy ncpu m₀
  have hcurrent : ∀ c, (((fresh m₀).divide policy ncpu).queue c).current = none := by
    intro c
    rw [queue_divide]
    split
    · unfold RunQueue.forCpu
      cases policy <;> rfl
    · rfl
  refine ⟨h, rfl, fun c hc => ?_, fun c hc => ?_, fun c s hs => ?_, fun s _ => hstatus s,
    fun c s _ hr => ?_, fun c s _ hs => ?_, fun c hc => ?_⟩
  · rw [queue_divide, if_pos hc]
  · rw [queue_divide, if_pos hc]
  · rw [env_divide, hs]
    rfl
  · cases (hstatus s).symm.trans hr
  · cases (hcurrent c).symm.trans hs
  · -- each slot of the slice names the next one, up to the end of the slice
    have hlen : 0 < (RunQueue.forCpu policy c).len := by
      cases policy with
      | global => exact (by decide : 0 < slotCount)
      | perCpu => exact (by decide : 0 < sliceSize)
    have hfits := (RunQueue.forCpu policy c).fits
    have hslice : ∀ s : Slot, Owns policy ncpu c s ↔
        (RunQueue.forCpu policy c).start.val ≤ s.val ∧
          s.val < (RunQueue.forCpu policy c).start.val + (RunQueue.forCpu policy c).len := by
      intro s
      rw [← h.contains_forCpu hc, RunQueue.contains_iff]
    have hhead : (RunQueue.forCpu policy c).freeHead = some (RunQueue.forCpu policy c).start := by
      cases policy <;> rfl
    have hnext : ∀ s : Slot, (RunQueue.forCpu policy c).start.val ≤ s.val →
        s.val < (RunQueue.forCpu policy c).start.val + (RunQueue.forCpu policy c).len →
        (((fresh m₀).divide policy ncpu).env s).nextFree =
          if h : s.val + 1 < (RunQueue.forCpu policy c).start.val + (RunQueue.forCpu policy c).len
            then some ⟨s.val + 1, by omega⟩ else none := by
      intro s hlo hhi
      have howns := (hslice s).2 ⟨hlo, hhi⟩
      rw [env_divide, howns]
      simp only [blankEnv]
      by_cases hin : s.val + 1 <
          (RunQueue.forCpu policy c).start.val + (RunQueue.forCpu policy c).len
      · rw [dif_pos hin, dif_pos (by omega : s.val + 1 < slotCount), if_pos]
        rw [RunQueue.contains_iff]
        dsimp only
        omega
      · rw [dif_neg hin]
        split
        · rw [if_neg]
          rw [RunQueue.contains_iff]
          dsimp only
          omega
        · rfl
    obtain ⟨l, hl, hnodup, hmem⟩ := Linked.of_interval hfits hnext _ _ rfl (Nat.le_refl _)
    rw [dif_pos hlen] at hl
    refine ⟨l, ?_, hnodup, fun s => ?_⟩
    · rw [queue_divide, if_pos hc, hhead]
      exact hl
    · rw [hmem, hslice]
      exact ⟨fun hs => ⟨hs, hstatus s⟩, fun hs => hs.1⟩

variable [Memory M]

/-- **Every reached state has its table divided.** -/
theorem Reached.sound (h : Reached policy ncpu m₀ k) : Sound policy ncpu k := by
  induction h with
  | init hinit =>
    obtain ⟨hdiv, text, rfl⟩ := init_eq_ok hinit
    exact (sound_divide hdiv).say _ _ _
  | step _ ha hk ih => exact ih.effects (ih.effects_of_done (ih.done ha hk))

/-- **What holds once the table is set up and is kept by every effect** holds in every reached
state. -/
theorem Reached.invariant {P : State M → Prop} (h : Reached policy ncpu m₀ k)
    (hinit : ∀ k, (fresh m₀).init policy ncpu = .ok k → P k)
    (heffect : ∀ k k', Sound policy ncpu k → P k → Effect ncpu k k' → P k') : P k := by
  induction h with
  | init hk => exact hinit _ hk
  | step hbefore ha hk ih =>
    have hsound := hbefore.sound
    have heffects := hsound.effects_of_done (hsound.done ha hk)
    clear hk
    -- an operation is several effects, so there is an induction on these inside
    induction heffects with
    | refl => exact ih
    | tail hpast hlast ih' => exact heffect _ _ (hsound.effects hpast) ih' hlast

/-- **Who runs is who is recorded.** In every reached state the slice of a CPU that takes part is its
share of the table. An environment of the slice that runs is the one the CPU is recorded to run, so
there is at most one; what is recorded is an occupied slot of the slice; and every slot of the slice
names the CPU as its owner. So the circular order is defined on the slice, and neither picking an
environment nor any operation that is in order can fault. -/
theorem Reached.runs_what_is_recorded (h : Reached policy ncpu m₀ k) (hcpu : cpu < ncpu) :
    (∀ s, (k.runQueue cpu).contains s ↔ policy = .global ∨ s.val / sliceSize = cpu) ∧
      (∀ s, (k.runQueue cpu).contains s → (k.env s).status = .running → k.current cpu = some s) ∧
      (∀ s t, (k.runQueue cpu).contains s → (k.runQueue cpu).contains t →
        (k.env s).status = .running → (k.env t).status = .running → s = t) ∧
      (∀ s, k.current cpu = some s → (k.runQueue cpu).contains s ∧ (k.env s).status ≠ .free) ∧
      (∀ s, (k.runQueue cpu).contains s → (k.env s).cpu.val = cpu) ∧
      (∀ s, (k.runQueue cpu).contains s → ∃ t, (k.runQueue cpu).next s = .ok t) ∧
      (∃ r, k.select cpu = .ok r) ∧
      ∀ a : Action, a.Proper ncpu k → ∃ k', a.perform k = .ok k' := by
  have hsound := h.sound
  have hlt := hsound.queueOf_lt hcpu
  have hrunning : ∀ s, (k.runQueue cpu).contains s → (k.env s).status = .running →
      k.current cpu = some s := fun s hs hr => hsound.running _ s ((hsound.contains_iff hlt).1 hs) hr
  refine ⟨fun s => ?_, hrunning, fun s t hs ht hrs hrt => ?_, fun s hs => ?_, fun s hs => ?_,
    fun s hs => ?_, ?_, fun a ha => ?_⟩
  · rw [runQueue, hsound.contains_iff hlt, hsound.division.owns_iff hlt, hsound.queueOf_val hcpu]
  · exact Option.some.inj ((hrunning s hs hrs).symm.trans (hrunning t ht hrt))
  · exact ⟨hsound.contains_current hcpu hs, hsound.current_ne_free hcpu hs⟩
  · rw [hsound.owner _ s ((hsound.contains_iff hlt).1 hs), hsound.queueOf_val hcpu]
  · obtain ⟨t, ht, -⟩ := RunQueue.next_of_contains hs
    exact ⟨t, ht⟩
  · obtain ⟨r, hr, -⟩ := select_of_contains fun s => hsound.contains_current hcpu (s := s)
    exact ⟨r, hr⟩
  · obtain ⟨k', hk', -⟩ := hsound.exists_done ha
    exact ⟨k', hk'⟩

/-- An environment made for the second of two CPUs is the one that CPU is recorded to run once it
has scheduled. -/
theorem Reached.runs_what_is_recorded_scheduled :
    ∃ k : State Frames, Reached .perCpu 2 ({} : Frames) k ∧ 1 < 2 ∧ (k.env 64).status = .running ∧
      k.current 1 = some 64 ∧ (k.env 64).cpu.val = 1 := by
  obtain ⟨k, hk, hstatus⟩ := exists_of_map_toOption (f := fun k => (k.env 64).status) (b := .running)
    (x := ran .perCpu 2 ({} : Frames) [.create [0x7f] 1, .schedule 1]) (by decide +kernel)
  have h := reached_of_ran hk
  obtain ⟨hslice, hrunning, -, -, howner, -⟩ := h.runs_what_is_recorded (by decide : 1 < 2)
  have hin := (hslice 64).2 (.inr (by decide))
  exact ⟨k, h, by decide, hstatus, hrunning 64 hin hstatus, howner 64 hin⟩

end Reached

end State

end Exokernel
