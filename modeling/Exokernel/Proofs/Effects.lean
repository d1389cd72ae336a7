import Exokernel.Kernel.Calls
import Exokernel.Kernel.Schedule
import Exokernel.Proofs.Outcome
/-!
# What the parts of an operation change

Every kernel operation is put together from a few changes of the state: a slot is replaced, a slot
is taken from the free list or given back to it, a CPU is handed to an environment. This file says
slot by slot and queue by queue what each of them leaves behind, so that no later proof opens the
definitions again.
-/

namespace Exokernel

namespace State

variable {M : Type}

/-! ## Replacing a slot or a queue -/

theorem env_setEnv (k : State M) (s t : Slot) (e : Env) :
    (k.setEnv s e).env t = if t = s then e else k.env t := by
  split
  · next h => rw [h, env_setEnv_self]
  · next h => exact env_setEnv_ne k e h

/-- What any slot has to itself, and the slot that is replaced to what it is replaced with, every slot
has to itself afterwards. -/
theorem rel_setEnv {R : Env → Env → Prop} (hrefl : ∀ e, R e e) (k : State M) {s : Slot} {e : Env}
    (he : R (k.env s) e) (t : Slot) : R (k.env t) ((k.setEnv s e).env t) := by
  rw [env_setEnv]
  split
  · next h =>
    rw [h]
    exact he
  · exact hrefl _

theorem queue_setQueue (k : State M) (q r : CpuIndex) (rq : RunQueue) :
    (k.setQueue q rq).queue r = if r = q then rq else k.queue r := by
  split
  · next h => rw [h, queue_setQueue_self]
  · next h => exact queue_setQueue_ne k rq h

theorem env_mapEnv (k : State M) (s t : Slot) (f : Env → Env) :
    (k.mapEnv s f).env t = if t = s then f (k.env s) else k.env t :=
  env_setEnv k s t _

@[simp] theorem current_setEnv (k : State M) (s : Slot) (e : Env) (cpu : Nat) :
    (k.setEnv s e).current cpu = k.current cpu := rfl

@[simp] theorem current_say (k : State M) (l : Log.Level) (t m : String) (cpu : Nat) :
    (k.say l t m).current cpu = k.current cpu := rfl

@[simp] theorem env_say (k : State M) (l : Log.Level) (t m : String) (s : Slot) :
    (k.say l t m).env s = k.env s := rfl

/-- The state once everything the kernel said has been shown. -/
def hush (k : State M) : State M := { k with journal := [] }

@[simp] theorem env_hush (k : State M) (s : Slot) : k.hush.env s = k.env s := rfl

@[simp] theorem queue_hush (k : State M) (q : CpuIndex) : k.hush.queue q = k.queue q := rfl

@[simp] theorem current_hush (k : State M) (cpu : Nat) : k.hush.current cpu = k.current cpu := rfl

@[simp] theorem memory_hush (k : State M) : k.hush.memory = k.memory := rfl

/-! ## Taking a slot -/

/-- The state in which the first free slot `s` of a CPU's queue has a new occupant, with the
directory `dir` that memory gave out on the way to `mem`. -/
def occupy (k : State M) (cpu : Nat) (s : Slot) (parent : Option EnvId) (dir : PageDir) (mem : M) :
    State M :=
  ((({ k with memory := mem } : State M).setEnv s (occupied (k.env s) s parent dir)).setQueue
      (k.queueOf cpu) { k.runQueue cpu with freeHead := (k.env s).nextFree }).say
    .debug Log.Target.table
    ("[" ++ EnvId.textOrZero parent ++ "] new env " ++ (EnvId.next (k.env s).lastId s).text ++
      " on cpu " ++ toString cpu)

section Occupy

variable (k : State M) (cpu : Nat) (s t : Slot) (q : CpuIndex) (parent : Option EnvId)
  (dir : PageDir) (mem : M)

theorem env_occupy : (k.occupy cpu s parent dir mem).env t =
    if t = s then occupied (k.env s) s parent dir else k.env t :=
  env_setEnv _ s t _

/-- The new occupant waits. -/
theorem status_occupy_self : ((k.occupy cpu s parent dir mem).env s).status = .notRunnable := by
  rw [env_occupy, if_pos rfl]
  rfl

theorem status_occupy_ne_free : ((k.occupy cpu s parent dir mem).env s).status ≠ .free := by
  rw [status_occupy_self]
  exact nofun

theorem queue_occupy : (k.occupy cpu s parent dir mem).queue q =
    if q = k.queueOf cpu then { k.queue q with freeHead := (k.env s).nextFree } else k.queue q := by
  unfold occupy
  change (State.setQueue _ _ _).queue q = _
  rw [queue_setQueue]
  split
  · next h => rw [h]; rfl
  · rfl

@[simp] theorem memory_occupy : (k.occupy cpu s parent dir mem).memory = mem := rfl

@[simp] theorem policy_occupy : (k.occupy cpu s parent dir mem).policy = k.policy := rfl

theorem current_queue_occupy : ((k.occupy cpu s parent dir mem).queue q).current =
    (k.queue q).current := by
  rw [queue_occupy]
  split <;> rfl

/-- Taking a slot takes no CPU away from anybody. -/
theorem current_occupy (c : Nat) : (k.occupy cpu s parent dir mem).current c = k.current c :=
  current_queue_occupy k cpu s (k.queueOf c) parent dir mem

end Occupy

variable [Memory M]

/-- **Taking a slot**: there is none, memory refuses a directory, or the first free slot of the
queue is taken. -/
theorem ends_alloc {k : State M} {parent : Option EnvId} {cpu : Nat}
    {Q : Except KernelError Slot → State M → Prop}
    (hnone : (k.runQueue cpu).freeHead = none → Q (.error .noFreeSlot) k)
    (herror : ∀ e mem, Memory.createSpace k.memory = .error e mem →
      Q (.error (.memory e)) { k with memory := mem })
    (hok : ∀ s dir mem, (k.runQueue cpu).freeHead = some s →
      Memory.createSpace k.memory = .ok dir mem → Q (.ok s) (k.occupy cpu s parent dir mem)) :
    Ends (alloc parent cpu) k Q := by
  unfold alloc
  simp only [Ends.bind_iff, Ends.get_iff]
  cases h : (k.runQueue cpu).freeHead with
  | none => exact hnone h
  | some s =>
    simp only [Ends.bind_iff, Op.ends_onMemory, Ends.modify_iff, Ends.pure_iff]
    exact ⟨fun dir mem hdir => hok s dir mem h hdir, herror⟩

/-! ## Giving a slot back -/

section Free

variable (k : State M) (s t : Slot) (q : CpuIndex)

theorem env_free : (free s k).env t =
    if t = s then
      { k.env s with pgdir := PageDir.null, status := .free, inbox := {}, parent := none,
                     nextFree := (k.runQueue (k.env s).cpu).freeHead }
    else k.env t :=
  env_setEnv _ s t _

theorem queue_free : (free s k).queue q =
    if q = k.queueOf (k.env s).cpu then
      { k.queue q with
        current := if (k.queue q).current = some s then none else (k.queue q).current,
        freeHead := some s }
    else k.queue q := by
  unfold free
  change (State.setQueue _ _ _).queue q = _
  rw [queue_setQueue]
  have hq : ∀ (e : Env) (k' : State M), k'.policy = k.policy → k'.queueOf e.cpu = k.queueOf e.cpu :=
    fun e k' h => by simp only [queueOf, h]
  split
  · next h => rw [if_pos (h.trans (hq _ _ rfl)), h.trans (hq _ _ rfl)]; rfl
  · next h => rw [if_neg fun h' => h (h'.trans (hq _ _ rfl).symm)]; rfl

@[simp] theorem memory_free :
    (free s k).memory = Memory.destroySpace (k.env s).pgdir k.memory := rfl

@[simp] theorem policy_free : (free s k).policy = k.policy := rfl

/-- A CPU that runs another slot goes on running it. -/
theorem current_free_ne {cpu : Nat} (h : k.current cpu ≠ some s) :
    (free s k).current cpu = k.current cpu := by
  have hq : (free s k).queueOf cpu = k.queueOf cpu := rfl
  unfold current runQueue at h ⊢
  rw [hq, queue_free]
  by_cases hown : k.queueOf cpu = k.queueOf (k.env s).cpu
  · rw [if_pos hown]
    exact if_neg h
  · rw [if_neg hown]

end Free

/-- **Destroying an environment** marks it if it runs on another CPU, and gives its slot back
otherwise. -/
theorem destroy_cases (k : State M) (cpu : Nat) (s : Slot) :
    ((k.env s).status = .running ∧ (k.env s).cpu.val ≠ cpu) ∧
        (k.destroy cpu s).2 = k.setEnv s { k.env s with status := .dying } ∨
      ¬ ((k.env s).status = .running ∧ (k.env s).cpu.val ≠ cpu) ∧
        (k.destroy cpu s).2 = k.free s := by
  unfold destroy
  dsimp only
  split
  · next hfar => exact .inl ⟨hfar, rfl⟩
  · next hfar => split <;> exact .inr ⟨hfar, rfl⟩

/-- A CPU that did not destroy the environment it runs goes on running it. -/
theorem current_destroy {k : State M} {cpu : Nat} {s : Slot}
    (h : (destroy cpu s k).1 ≠ .freedCurrent) : (destroy cpu s k).2.current cpu = k.current cpu := by
  unfold destroy at h ⊢
  dsimp only at h ⊢
  split
  · rfl
  · next hfar =>
    rw [if_neg hfar] at h
    split
    · next hc => exact absurd (by rw [if_pos hc]) h
    · next hc => exact current_free_ne _ _ hc

/-! ## Making an environment that runs a program -/

/-- The state in which the new occupant of slot `s` is ready to start at `entry`. -/
def launch (k : State M) (s : Slot) (entry : Nat) : State M :=
  k.mapEnv s fun e =>
    { e with frame := { e.frame with eip := UInt32.ofNat entry }, status := .runnable }

/-- **Making an environment**: no slot is taken, the slot taken is given back because the program
cannot be loaded, or its new occupant is ready to start. -/
theorem ends_create {k : State M} {image : Image} {cpu : Nat}
    {Q : Except KernelError EnvId → State M → Prop}
    (hnone : (k.runQueue cpu).freeHead = none → Q (.error .noFreeSlot) k)
    (herror : ∀ e mem, Memory.createSpace k.memory = .error e mem →
      Q (.error (.memory e)) { k with memory := mem })
    (hbad : ∀ s dir mem e mem', (k.runQueue cpu).freeHead = some s →
      Memory.createSpace k.memory = .ok dir mem → Memory.loadImage dir image mem = .error e mem' →
      Q (.error (.memory e)) (free s { k.occupy cpu s none dir mem with memory := mem' }))
    (hok : ∀ s dir mem entry mem', (k.runQueue cpu).freeHead = some s →
      Memory.createSpace k.memory = .ok dir mem → Memory.loadImage dir image mem = .ok entry mem' →
      Q (.ok (EnvId.next (k.env s).lastId s))
        (({ k.occupy cpu s none dir mem with memory := mem' } : State M).launch s entry)) :
    Ends (create image cpu) k Q := by
  simp only [create, Ends.bind_iff]
  refine ends_alloc hnone herror fun s dir mem hs hdir => ?_
  have hpgdir : ((k.occupy cpu s none dir mem).env s).pgdir = dir := by
    rw [env_occupy, if_pos rfl]
    rfl
  simp only [Ends.get_iff, Op.ends_attempt, Op.ends_onMemory, hpgdir]
  refine ⟨fun entry mem' h => ?_, fun e mem' h => hbad s dir mem e mem' hs hdir h⟩
  have hid : ((({ k.occupy cpu s none dir mem with memory := mem' } : State M).launch s entry).env
      s).lastId = some (EnvId.next (k.env s).lastId s) := by
    unfold launch
    rw [env_mapEnv, if_pos rfl]
    change ((k.occupy cpu s none dir mem).env s).lastId = _
    rw [env_occupy, if_pos rfl]
    rfl
  simp only [Ends.bind_iff, Ends.modify_iff, Ends.get_iff, Op.ends_ofOption]
  refine ⟨fun id hid' => ?_, fun hn => ?_⟩
  · rw [← Option.some.inj (hid.symm.trans hid')]
    exact hok s dir mem entry mem' hs hdir h
  · cases hid.symm.trans hn

omit [Memory M]

/-! ## Handing a CPU over -/

section Running

variable (k : State M) (cpu : Nat) (s t : Slot) (q : CpuIndex)

/-- Only the environment that ran until now is touched, and only if another one runs next. -/
theorem env_suspend (last : Option Slot) : (k.suspend last s).env t =
    if last = some t ∧ t ≠ s ∧ (k.env t).status = .running then
      { k.env t with status := .runnable }
    else k.env t := by
  unfold suspend
  cases last with
  | none => simp
  | some l =>
    by_cases hl : l ≠ s ∧ (k.env l).status = .running
    · simp only [if_pos hl, env_mapEnv]
      by_cases ht : t = l
      · subst ht; simp [hl]
      · simp [ht, Ne.symm ht]
    · simp only [if_neg hl]
      rw [if_neg]
      rintro ⟨⟨rfl⟩, h⟩
      exact hl h

/-- Nothing but slots is touched. -/
theorem suspend_frame (last : Option Slot) :
    (k.suspend last s).queues = k.queues ∧ (k.suspend last s).memory = k.memory ∧
      (k.suspend last s).policy = k.policy := by
  unfold suspend
  cases last with
  | none => exact ⟨rfl, rfl, rfl⟩
  | some l =>
    dsimp only
    split <;> exact ⟨rfl, rfl, rfl⟩

theorem env_running : (k.running cpu s).env t =
    if t = s then { k.env s with status := .running }
    else if k.current cpu = some t ∧ (k.env t).status = .running then
      { k.env t with status := .runnable }
    else k.env t := by
  unfold running
  rw [env_mapEnv]
  by_cases ht : t = s
  · simp [ht, env_suspend]
  · rw [if_neg ht, if_neg ht, env_suspend]
    simp only [ne_eq, ht, not_false_eq_true, true_and, env_setQueue]
    rfl

theorem queue_running : (k.running cpu s).queue q =
    if q = k.queueOf cpu then { k.queue q with current := some s } else k.queue q := by
  have h : (k.running cpu s).queue q =
      (k.setQueue (k.queueOf cpu) { k.runQueue cpu with current := some s }).queue q :=
    congrArg (·[q]) (suspend_frame _ s _).1
  rw [h, queue_setQueue]
  split
  · next h => rw [h]; rfl
  · rfl

@[simp] theorem memory_running : (k.running cpu s).memory = k.memory :=
  (suspend_frame _ s _).2.1

@[simp] theorem policy_running : (k.running cpu s).policy = k.policy :=
  (suspend_frame _ s _).2.2

/-- A CPU runs what it was handed over to. -/
theorem current_running : (k.running cpu s).current cpu = some s := by
  have hq : (k.running cpu s).queueOf cpu = k.queueOf cpu := by
    simp only [queueOf, policy_running]
  rw [current, runQueue, hq, queue_running, if_pos rfl]

end Running

end State

end Exokernel
