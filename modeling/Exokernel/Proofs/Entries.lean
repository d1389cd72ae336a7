import Exokernel.Machine.Entry
import Exokernel.Proofs.Spaces
/-!
# Entries, as the state of the kernel sees them

A CPU that enters the kernel takes the lock, makes its requests and gives the lock back. Taking and
giving back, waiting and showing what was said all leave the kernel's state alone (`Spares`). What
an entry does to that state is therefore one function of it: `State.pass` where the CPU schedules,
`State.trap` where it was a system call that brought it in.
-/

namespace Exokernel

namespace State

variable {M : Type}

/-- What a CPU that schedules makes of the state. -/
def pass (cpu : Nat) (k : State M) : Except Fault (Except NothingRunnable Dispatch × State M) := do
  let (r, k) ← k.scheduleNext cpu
  pure (r, k.hush)

/-- What a CPU makes of the state that lets the caller go on, if that is what comes next and it may,
and schedules otherwise. -/
def carryOn (cpu : Nat) (next : Next) (k : State M) :
    Except Fault (Except NothingRunnable Dispatch × State M) :=
  match next with
  | .schedule => k.pass cpu
  | .resume => do
    match ← k.resume cpu with
    | (some d, k) => pure (.ok d, k.hush)
    | (none, k) => k.hush.pass cpu

variable [Memory M]

/-- What a CPU makes of the state that performs a call and then carries on as the call says. -/
def serve (cpu : Nat) (tf : TrapFrame) (k : State M) :
    Except Fault (Except NothingRunnable Dispatch × State M) :=
  (k.syscall cpu tf).2.hush.carryOn cpu (k.syscall cpu tf).1

/-- What a CPU that enters with a system call makes of the state. -/
def trap (cpu : Nat) (tf : TrapFrame) (k : State M) :
    Except Fault (Except NothingRunnable Dispatch × State M) :=
  match k.reap cpu with
  | (true, k) => k.hush.pass cpu
  | (false, k) => k.hush.serve cpu tf

end State

/-- How a CPU leaves the kernel once it has scheduled. -/
def Exit.of : Except NothingRunnable Dispatch → Exit
  | .ok d => .user d.frame d.pgdir
  | .error _ => .monitor

namespace Machine

variable {M α β γ : Type}

/-- However it ends, the computation leaves the state of the kernel alone. -/
def Spares (x : Act M α) : Prop := ∀ m, Ends x m fun _ m' => m'.kernel = m.kernel

namespace Spares

variable {x : Act M α} {m m' : Machine M} {a : α}

theorem pure (a : α) : Spares (pure a : Act M α) := fun _ => rfl

theorem get : Spares (get : Act M (Machine M)) := fun _ => rfl

theorem modify {f : Machine M → Machine M} (hf : ∀ m, (f m).kernel = m.kernel) :
    Spares (modify f : Act M PUnit) := hf

theorem bind {f : α → Act M β} (hx : Spares x) (hf : ∀ a, Spares (f a)) : Spares (x >>= f) := by
  intro m
  refine Ends.bind_iff.2 ((hx m).imp fun r m' hm => ?_)
  cases r with
  | ok a => exact (hf a m').imp fun _ _ h => h.trans hm
  | error e => exact hm

theorem ite {p : Prop} [Decidable p] {y : Act M α} (hx : Spares x) (hy : Spares y) :
    Spares (if p then x else y) := by
  split
  · exact hx
  · exact hy

theorem forM {f : β → Act M PUnit} (hf : ∀ b, Spares (f b)) (l : List β) : Spares (l.forM f) := by
  induction l with
  | nil => exact pure _
  | cons b l ih => exact bind (hf b) fun _ => ih

theorem awaitWithin {test : Act M Bool} (h : Spares test) (n : Nat) :
    Spares (awaitWithin test n) := by
  induction n with
  | zero => exact fun _ => rfl
  | succ n ih => exact bind h fun b => ite (pure _) ih

theorem onBench (x : Bench.Act α) : Spares (onBench x : Act M α) := by
  intro m
  unfold Ends Machine.onBench focus
  cases x m.bench <;> rfl

theorem onLock (x : SpinLock.Act α) : Spares (onLock x : Act M α) := by
  intro m
  unfold Ends Machine.onLock focus
  cases x (m.lock, m.interrupts) <;> rfl

theorem actAs (cpu : CpuIndex) : Spares (actAs cpu : Act M PUnit) := modify fun _ => rfl

theorem arrive (cpu : CpuIndex) : Spares (arrive cpu : Act M PUnit) :=
  bind get fun _ => ite (pure _) (bind (modify fun _ => rfl) fun _ => onBench _)

theorem settle : Spares (settle : Act M PUnit) := by
  intro m
  exact (forM (fun s : Starting => arrive s.cpu) _ _ : Ends _ { m with starting := _ } _)

theorem hint : Spares (hint : Act M PUnit) :=
  bind (onBench _) fun _ => bind (modify fun _ => rfl) fun _ => settle

/-- Waiting for the lock changes nothing it protects. -/
theorem acquire (cpu : CpuIndex) : Spares (acquire cpu : Act M PUnit) :=
  bind get fun _ => bind (onLock _) fun _ =>
    ite (pure _) (bind get fun _ => awaitWithin (bind hint fun _ => onLock _) _)

theorem release (cpu : CpuIndex) : Spares (release cpu : Act M PUnit) :=
  bind get fun _ => onLock _

theorem unlock (cpu : CpuIndex) : Spares (unlock cpu : Act M PUnit) :=
  bind (release cpu) fun _ => hint

end Spares

/-! ## Requests -/

variable {m m' : Machine M} {cpu : CpuIndex}

theorem Spares.ends {x : Act M α} (h : Spares x) {Q : Except Fault α → Machine M → Prop}
    (hQ : ∀ r m', m'.kernel = m.kernel → Q r m') : Ends x m Q :=
  (h m).imp hQ

/-- A request does to the kernel's state what it says, and what was said is shown. -/
theorem ends_onKernel {r : Request M α} {Q : Except Fault α → Machine M → Prop}
    (hok : ∀ a k m', r m.kernel = .ok (a, k) → m'.kernel = k.hush → Q (.ok a) m')
    (herror : ∀ e m', Q (.error e) m') : Ends (onKernel r) m Q := by
  unfold onKernel
  simp only [Ends.bind_iff, Ends.get_iff]
  cases hr : r m.kernel with
  | error e => exact herror e m
  | ok p =>
    obtain ⟨a, k⟩ := p
    simp only [Ends.bind_iff, Ends.modify_iff, Ends.pure_iff]
    refine (Spares.forM (fun r => Spares.onBench (say r)) k.journal).ends fun res m' hm' => ?_
    cases res with
    | ok => exact hok a k m' hr hm'
    | error e => exact herror e m'

/-- A request that does not find what it requires faults. -/
theorem requires_bind {p : State M → Prop} [DecidablePred p] {r : Request M α} {k : State M} :
    (Request.requires p >>= fun _ => r) k = if p k then r k else .error (.failed none) := by
  have hget : (get : Request M (State M)) k = .ok (k, k) := rfl
  unfold Request.requires
  simp only [StateT.bind, bind, Except.bind, hget]
  by_cases hp : p k
  · rw [if_pos hp, Fault.unless, if_pos hp]
    rfl
  · rw [if_neg hp, Fault.unless, if_neg hp]
    rfl

/-- A request that went through found what it requires. -/
theorem of_requires {p : State M → Prop} [DecidablePred p] {r : Request M α} {k k' : State M} {a : α}
    (h : (Request.requires p >>= fun _ => r) k = .ok (a, k')) : r k = .ok (a, k') := by
  rw [requires_bind] at h
  split at h
  · exact h
  · cases h

/-! ## Entries -/

/-- The computation goes through only as a function of the kernel's state does, with an answer that
`out` tells, and leaves the kernel the same way. -/
def Follows (x : Act M β) (out : α → β) (f : State M → Except Fault (α × State M)) : Prop :=
  ∀ m, Ends x m fun res m' => ∀ b, res = .ok b → ∃ a, f m.kernel = .ok (a, m'.kernel) ∧ b = out a

namespace Follows

variable {x : Act M β} {out : α → β} {f : State M → Except Fault (α × State M)}

theorem pure {a : α} {b : β} (hb : b = out a) :
    Follows (pure b : Act M β) out fun k => .ok (a, k) := by
  rintro m _ ⟨rfl⟩
  exact ⟨a, rfl, hb⟩

/-- What leaves the kernel alone may come first. -/
theorem after {x : Act M γ} {y : γ → Act M β} (hx : Spares x) (hy : ∀ c, Follows (y c) out f) :
    Follows (x >>= y) out f := by
  intro m
  refine Ends.bind_iff.2 (hx.ends fun res m₁ hm₁ => ?_)
  cases res with
  | error => exact nofun
  | ok c =>
    rw [← hm₁]
    exact hy c m₁

/-- **A request comes first**, and what follows goes on from the state it leads to. -/
theorem request {r : Request M γ} {y : γ → Act M β} {g : γ → State M → Except Fault (α × State M)}
    (hr : ∀ k c k', r k = .ok (c, k') → f k = g c k'.hush) (hy : ∀ c, Follows (y c) out (g c)) :
    Follows (onKernel r >>= y) out f := by
  intro m
  refine Ends.bind_iff.2 (ends_onKernel (fun c k m₁ hk hm₁ => ?_) fun _ _ => nofun)
  rw [hr _ c k hk, ← hm₁]
  exact hy c m₁

/-- The answer of a computation that may have none. -/
theorem map_some (h : Follows x out f) :
    Follows (some <$> x) (Option.map out) (fun k => do let (a, k) ← f k; Pure.pure (some a, k)) := by
  intro m
  refine Ends.map_iff.2 ((h m).imp fun res m' hres => ?_)
  cases res with
  | error => exact nofun
  | ok b =>
    obtain ⟨a, ha, hb⟩ := hres b rfl
    rintro _ ⟨rfl⟩
    refine ⟨some a, ?_, congrArg some hb⟩
    simp only [ha]
    rfl

end Follows

/-- Leaving for user mode. -/
theorem follows_run (cpu : CpuIndex) (d : Dispatch) :
    Follows (run cpu d : Act M Exit) Exit.of fun k => .ok (.ok d, k) :=
  .after (.unlock cpu) fun _ => .after (.modify fun _ => rfl) fun _ => .pure rfl

theorem follows_schedule (cpu : CpuIndex) :
    Follows (schedule cpu : Act M Exit) Exit.of (·.pass cpu.val) := by
  refine .request (g := fun r k => .ok (r, k)) (fun k r k' hr => ?_) fun r => ?_
  · have hnext : k.scheduleNext cpu.val = .ok (r, k') := of_requires hr
    rw [State.pass, hnext]
    rfl
  · cases r with
    | ok d => exact follows_run cpu d
    | error e => exact .after (.onBench _) fun _ => .after (.release cpu) fun _ => .pure rfl

/-- **A CPU that enters to schedule** does what the scheduler does. -/
theorem follows_enterScheduler (cpu : CpuIndex) :
    Follows (enterScheduler cpu : Act M Exit) Exit.of (·.pass cpu.val) :=
  .after (.actAs cpu) fun _ => .after (.acquire cpu) fun _ => follows_schedule cpu

/-- **A CPU that enters with a system call** reaps its environment, or performs the call and lets
the caller go on or schedules. -/
theorem follows_syscallEntry [Memory M] (cpu : CpuIndex) (tf : TrapFrame) :
    Follows (syscallEntry cpu tf : Act M Exit) Exit.of (·.trap cpu.val tf) := by
  refine .after (.actAs cpu) fun _ => .after (.acquire cpu) fun _ => ?_
  refine .request (g := fun gone k => if gone then k.pass cpu.val else k.serve cpu.val tf)
    (fun k gone k' hr => ?_) fun gone => ?_
  · have hreap : k.reap cpu.val = (gone, k') := Except.ok.inj (of_requires hr)
    rw [State.trap, hreap]
    cases gone <;> rfl
  · cases gone with
    | true => exact follows_schedule cpu
    | false =>
      -- the caller is there, and its call is performed
      refine .request (g := fun next k => k.carryOn cpu.val next) (fun k next k' hr => ?_)
        fun next => ?_
      · have hcall : k.syscall cpu.val tf = (next, k') := Except.ok.inj (of_requires hr)
        rw [State.serve, hcall]
        rfl
      · cases next with
        | schedule => exact follows_schedule cpu
        | resume =>
          refine .request (g := fun d k => d.elim (k.pass cpu.val) fun d => .ok (.ok d, k))
            (fun k d k' hr => ?_) fun d => ?_
          · have hresume : k.resume cpu.val = .ok (d, k') := of_requires hr
            simp only [State.carryOn, hresume, bind, Except.bind]
            cases d <;> rfl
          · cases d with
            | none => exact follows_schedule cpu
            | some d => exact follows_run cpu d

/-! ## Visits -/

/-- Under the lock a CPU makes one request. -/
def lockedBy (cpu : CpuIndex) (r : Request M α) : Act M α := do
  actAs cpu
  acquire cpu
  let a ← onKernel r
  release cpu
  pure a

/-- What the request does under the lock it does to the kernel's state. -/
theorem follows_lockedBy {r : Request M γ} {a : α} {b : β} {out : α → β}
    {f : State M → Except Fault (α × State M)} (hb : b = out a)
    (hr : ∀ k c k', r k = .ok (c, k') → f k = .ok (a, k'.hush)) :
    Follows (do let _ ← lockedBy cpu r; pure b : Act M β) out f := by
  unfold lockedBy
  simp only [bind_assoc, pure_bind]
  exact .after (.actAs cpu) fun _ => .after (.acquire cpu) fun _ =>
    .request (g := fun _ k => .ok (a, k)) hr fun _ => .after (.release cpu) fun _ => .pure hb

end Machine

/-- A CPU in the kernel: for an operation under the lock, to schedule or with a system call. -/
inductive Visit where
  | create (cpu : CpuIndex) (image : Image) (queue : Nat)
  | alloc (cpu : CpuIndex) (parent : Option EnvId) (queue : Nat)
  | destroy (cpu : CpuIndex) (s : Slot)
  | enter (cpu : CpuIndex)
  | call (cpu : CpuIndex) (tf : TrapFrame)

namespace Visit

variable {M : Type}

/-- The CPU that is in the kernel. -/
def cpu : Visit → CpuIndex
  | create cpu _ _ | alloc cpu _ _ | destroy cpu _ | enter cpu | call cpu _ => cpu

/-- A visit is in order when its CPUs take part and what it removes is there. -/
def Proper (ncpu : Nat) (k : State M) : Visit → Prop
  | create cpu _ queue | alloc cpu _ queue => cpu.val < ncpu ∧ queue < ncpu
  | destroy cpu s => cpu.val < ncpu ∧ (k.env s).status ≠ .free
  | enter cpu | call cpu _ => cpu.val < ncpu

instance (ncpu : Nat) (k : State M) : (v : Visit) → Decidable (v.Proper ncpu k)
  | create _ _ _ | alloc _ _ _ | destroy _ _ => inferInstanceAs (Decidable (_ ∧ _))
  | enter _ | call _ _ => inferInstanceAs (Decidable (_ < _))

variable [Memory M]

/-- The visit on a machine; the answer is how the CPU leaves, where it leaves for user mode or the
monitor. -/
def perform : Visit → Machine.Act M (Option Exit)
  | create cpu image queue => do
    let _ ← Machine.lockedBy cpu (Request.create image queue)
    pure none
  | alloc cpu parent queue => do
    let _ ← Machine.lockedBy cpu (Request.alloc parent queue)
    pure none
  | destroy cpu s => do
    let _ ← Machine.lockedBy cpu (Request.destroy cpu.val s.val)
    pure none
  | enter cpu => some <$> Machine.enterScheduler cpu
  | call cpu tf => some <$> Machine.syscallEntry cpu tf

/-- What the visit makes of the kernel's state. -/
def effect (k : State M) : Visit → Except Fault (Option (Except NothingRunnable Dispatch) × State M)
  | create _ image queue => .ok (none, ((State.create image queue).run k).2.hush)
  | alloc _ parent queue => .ok (none, ((State.alloc parent queue).run k).2.hush)
  | destroy cpu s => .ok (none, (k.destroy cpu.val s).2.hush)
  | enter cpu => do
    let (r, k) ← k.pass cpu.val
    pure (some r, k)
  | call cpu tf => do
    let (r, k) ← k.trap cpu.val tf
    pure (some r, k)

omit [Memory M] in
/-- An answer that is passed on was there. -/
theorem exists_of_answer {α : Type} {y : Except Fault (α × State M)} {x : Option α} {k' : State M}
    (h : (do let (a, k) ← y; pure (some a, k)) = Except.ok (x, k')) :
    ∃ a, x = some a ∧ y = .ok (a, k') := by
  cases y with
  | error e => cases h
  | ok p =>
    cases h
    exact ⟨_, rfl, rfl⟩

theorem effect_enter_eq_ok {k k' : State M} {cpu : CpuIndex}
    {x : Option (Except NothingRunnable Dispatch)} (h : (enter cpu).effect k = .ok (x, k')) :
    ∃ r, x = some r ∧ k.pass cpu.val = .ok (r, k') :=
  exists_of_answer h

theorem effect_call_eq_ok {k k' : State M} {cpu : CpuIndex} {tf : TrapFrame}
    {x : Option (Except NothingRunnable Dispatch)} (h : (call cpu tf).effect k = .ok (x, k')) :
    ∃ r, x = some r ∧ k.trap cpu.val tf = .ok (r, k') :=
  exists_of_answer h

/-- A visit does to the kernel's state what it says. -/
theorem follows_perform (v : Visit) :
    Machine.Follows (v.perform : Machine.Act M (Option Exit)) (Option.map Exit.of)
      (fun k => v.effect k) := by
  cases v with
  | enter cpu => exact (Machine.follows_enterScheduler cpu).map_some
  | call cpu tf => exact (Machine.follows_syscallEntry cpu tf).map_some
  | create cpu image queue =>
    refine Machine.follows_lockedBy (a := none) rfl fun k c k' hr => ?_
    have hrun := Except.ok.inj (Machine.of_requires hr)
    rw [effect, hrun]
  | alloc cpu parent queue =>
    refine Machine.follows_lockedBy (a := none) rfl fun k c k' hr => ?_
    have hrun := Except.ok.inj (Machine.of_requires hr)
    rw [effect, hrun]
  | destroy cpu s =>
    refine Machine.follows_lockedBy (a := none) rfl fun k c k' hr => ?_
    have hslot : (Request.slot s.val : Request M Slot) = pure s := dif_pos s.isLt
    rw [Request.destroy, hslot, pure_bind] at hr
    have hrun := Except.ok.inj (Machine.of_requires hr)
    rw [effect, hrun]

/-- **A visit that goes through does to the kernel's state what it says.** -/
theorem effect_of_perform {v : Visit} {m m' : Machine M} {x : Option Exit}
    (h : v.perform m = .ok x m') :
    ∃ r, v.effect m.kernel = .ok (r, m'.kernel) ∧ x = r.map Exit.of :=
  (follows_perform v m).of_ok h x rfl

end Visit

namespace State

variable {M : Type} {k k' : State M} {cpu ncpu : Nat} {policy : Policy}
  {r : Except NothingRunnable Dispatch}

/-- **A CPU leaves the kernel**: for a slot of its slice that can run, or because there is none. -/
inductive Leaves (cpu : Nat) (k : State M) : Except NothingRunnable Dispatch → State M → Prop
  | idle (e : NothingRunnable) : Leaves cpu k (.error e) k.hush
  | user {s : Slot} : (k.runQueue cpu).contains s → (k.env s).status.canRun = true →
      Leaves cpu k (.ok (k.dispatchOf s)) (k.running cpu s).hush

theorem Leaves.moves [Memory M] (h : Leaves cpu k r k') : Moves cpu k k' := by
  cases h with
  | idle => exact .single .hush
  | user hs hrun => exact .tail (.single (.run hs hrun)) .hush

theorem leaves_pass (h : Sound policy ncpu k) (hcpu : cpu < ncpu) (hk : k.pass cpu = .ok (r, k')) :
    Leaves cpu k r k' := by
  unfold pass at hk
  rcases h.scheduleNext_cases hcpu with ⟨e, he⟩ | ⟨s, hs, hrun, he⟩
  · rw [he] at hk
    cases hk
    exact .idle e
  · rw [he] at hk
    cases hk
    exact .user hs hrun

variable [Memory M] {tf : TrapFrame}

theorem leaves_serve (h : Sound policy ncpu k) (hcpu : cpu < ncpu)
    (hk : k.serve cpu tf = .ok (r, k')) : Leaves cpu (k.syscall cpu tf).2.hush r k' := by
  have hcalled : Sound policy ncpu (k.syscall cpu tf).2.hush :=
    (h.effects (effects_syscall hcpu tf k)).move hcpu .hush
  unfold serve carryOn at hk
  split at hk
  · exact leaves_pass hcalled hcpu hk
  · rcases hcalled.resume_cases hcpu with ⟨hresume, -⟩ | ⟨s, hs, hst, hresume⟩
    · simp only [hresume, bind, Except.bind] at hk
      exact leaves_pass hcalled hcpu hk
    · simp only [hresume, bind, Except.bind] at hk
      cases hk
      exact .user (hcalled.contains_current hcpu hs) (by rw [hst]; rfl)

/-- **An entry with a system call**: the environment was to go, or the call is performed; then the
CPU leaves. -/
theorem trap_cases (h : Sound policy ncpu k) (hcpu : cpu < ncpu)
    (hk : k.trap cpu tf = .ok (r, k')) :
    (∃ s, k.current cpu = some s ∧ (k.env s).status = .dying ∧ Leaves cpu (k.free s).hush r k') ∨
      (∀ s, k.current cpu = some s → (k.env s).status ≠ .dying) ∧
        Leaves cpu (k.hush.syscall cpu tf).2.hush r k' := by
  have hserve : k.hush.serve cpu tf = .ok (r, k') → Leaves cpu (k.hush.syscall cpu tf).2.hush r k' :=
    leaves_serve (h.move hcpu .hush) hcpu
  unfold trap reap at hk
  cases hc : k.current cpu with
  | none =>
    rw [hc] at hk
    exact .inr ⟨nofun, hserve hk⟩
  | some s =>
    rw [hc] at hk
    by_cases hdying : (k.env s).status = .dying
    · simp only [if_pos hdying] at hk
      have hfree : (k.env s).status ≠ .free := by
        rw [hdying]
        exact nofun
      exact .inl ⟨s, rfl, hdying, leaves_pass ((h.free hfree).move hcpu .hush) hcpu hk⟩
    · simp only [if_neg hdying] at hk
      refine .inr ⟨?_, hserve hk⟩
      rintro _ ⟨rfl⟩
      exact hdying

/-- **Every visit that is in order is a sequence of effects.** -/
theorem effects_of_visit {v : Visit} {x : Option (Except NothingRunnable Dispatch)}
    (h : Sound policy ncpu k) (hv : v.Proper ncpu k) (hk : v.effect k = .ok (x, k')) :
    Effects ncpu k k' := by
  have hushed : ∀ {cpu : Nat} {k₁ : State M}, cpu < ncpu → Effects ncpu k k₁ →
      Effects ncpu k k₁.hush := fun hcpu heffects => .tail heffects (.move hcpu .hush)
  cases v with
  | create c image queue =>
    cases hk
    -- it is the CPU the environment is made for that moves, not the one in the kernel
    exact hushed hv.2 ((Op.of_ends (h.moves_create hv.2)).effects hv.2)
  | alloc c parent queue =>
    cases hk
    exact hushed hv.2 (h.effects_of_done (.alloc hv.2 parent))
  | destroy c s =>
    cases hk
    exact hushed hv.1 (.single (.destroy hv.2))
  | enter c =>
    obtain ⟨r, -, hpass⟩ := Visit.effect_enter_eq_ok hk
    exact (leaves_pass h hv hpass).moves.effects hv
  | call c tf =>
    obtain ⟨r, -, htrap⟩ := Visit.effect_call_eq_ok hk
    rcases trap_cases h hv htrap with ⟨s, hs, hdying, hleaves⟩ | ⟨-, hleaves⟩
    · -- the environment that was to go is given up before the CPU schedules
      have hdrop : Moves c.val k (k.free s).hush :=
        .tail (.single (.drop (h.contains_current hv hs) (h.current_ne_free hv hs))) .hush
      exact Moves.effects hv (hdrop.trans hleaves.moves)
    · have hcall : Effects ncpu k (k.hush.syscall c.val tf).2 :=
        .head (.move hv .hush) (effects_syscall hv tf k.hush)
      exact (hushed hv hcall).trans (hleaves.moves.effects hv)

end State

/-! ## Runs of the machine -/

namespace Machine

open MemoryView

variable {M : Type} [Memory M]

/-- The slot a CPU is in user mode in after it has left the kernel. -/
def userSlot (x : Option Exit) (k : State M) (cpu : CpuIndex) : Option Slot :=
  match x with
  | some (.user _ _) => k.current cpu.val
  | _ => none

/-- **A machine that runs**: its table was set up for `ncpu` CPUs on a memory `m₀`, and visits of the
kind `A` that were in order have followed. Between them anything may happen that leaves the kernel's
state alone. The map tells in which slot each CPU is in user mode. -/
inductive Ran (A : Visit → Prop) (policy : Policy) (ncpu : Nat) (m₀ : M) :
    Machine M → (CpuIndex → Option Slot) → Prop
  | start {m m' : Machine M} {a : Policy} : m.kernel = State.fresh m₀ →
      onKernel (Request.init policy ncpu) m = .ok a m' → Ran A policy ncpu m₀ m' fun _ => none
  | visit {m m₁ m' : Machine M} {u : CpuIndex → Option Slot} {v : Visit} {x : Option Exit} :
      Ran A policy ncpu m₀ m u → A v → v.Proper ncpu m.kernel → m₁.kernel = m.kernel →
      v.perform m₁ = .ok x m' →
      Ran A policy ncpu m₀ m' fun c => if c = v.cpu then userSlot x m'.kernel c else u c

/-- A machine with an empty board. -/
def bare (m₀ : M) : Machine M :=
  fresh { phys := PhysMemory.ofRegions [], wakes := Board.wakesAfter 0 [] } {} m₀

/-- Where visits lead that are made one after the other, each of which has to be in order, with the
slots CPUs are in user mode in. -/
def visited (ncpu : Nat) (m : Machine M) (u : CpuIndex → Option Slot) :
    List Visit → Except Fault (Machine M × (CpuIndex → Option Slot))
  | [] => .ok (m, u)
  | v :: l =>
    if v.Proper ncpu m.kernel then
      match v.perform m with
      | .ok x m' => visited ncpu m' (fun c => if c = v.cpu then userSlot x m'.kernel c else u c) l
      | .error e _ => .error e
    else
      .error (.failed none)

/-- Where visits lead once the table is set up. -/
def runs (policy : Policy) (ncpu : Nat) (m : Machine M) (l : List Visit) :
    Except Fault (Machine M × (CpuIndex → Option Slot)) :=
  match onKernel (Request.init policy ncpu) m with
  | .ok _ m' => visited ncpu m' (fun _ => none) l
  | .error e _ => .error e

variable {A : Visit → Prop} {policy : Policy} {ncpu : Nat} {m₀ : M} {m : Machine M}
  {u : CpuIndex → Option Slot}

theorem Ran.visited {l : List Visit} :
    ∀ {m m' : Machine M} {u u' : CpuIndex → Option Slot}, Ran A policy ncpu m₀ m u →
      (∀ v ∈ l, A v) → visited ncpu m u l = .ok (m', u') → Ran A policy ncpu m₀ m' u' := by
  induction l with
  | nil =>
    intro m m' u u' h _ hl
    cases hl
    exact h
  | cons v l ih =>
    intro m m' u u' h hA hl
    unfold Machine.visited at hl
    split at hl
    · next hv =>
      split at hl
      · next hperform =>
        exact ih (h.visit (hA v (.head _)) hv rfl hperform) (fun v hv => hA v (.tail _ hv)) hl
      · cases hl
    · cases hl

/-- **A list of visits that are in order is a run.** -/
theorem ran_of_runs {m' : Machine M} {u' : CpuIndex → Option Slot} {l : List Visit}
    (hfresh : m.kernel = State.fresh m₀) (hA : ∀ v ∈ l, A v)
    (hl : runs policy ncpu m l = .ok (m', u')) : Ran A policy ncpu m₀ m' u' := by
  unfold runs at hl
  split at hl
  · next hinit => exact (Ran.start hfresh hinit).visited hA hl
  · cases hl

/-- What can be told of a visit that follows a list of visits shows that all of them go through. -/
theorem exists_ran {β : Type} (policy : Policy) (ncpu : Nat) (m₀ : M) (v : Visit)
    (f : Machine M → (CpuIndex → Option Slot) → Machine M → β) {l : List Visit} {b : β}
    (hA : ∀ v ∈ l, A v) (h : ((runs policy ncpu (bare m₀) l).toOption.bind fun p =>
      match v.perform p.1 with
      | .ok _ m' => some (f p.1 p.2 m')
      | .error _ _ => none) = some b) :
    ∃ m u x m', Ran A policy ncpu m₀ m u ∧ v.perform m = .ok x m' ∧ f m u m' = b := by
  obtain ⟨⟨m, u⟩, hl, hseen⟩ := Option.bind_eq_some_iff.1 h
  cases hruns : runs policy ncpu (bare m₀) l with
  | error e =>
    rw [hruns] at hl
    cases hl
  | ok p =>
    rw [hruns] at hl
    cases hl
    dsimp only at hseen
    split at hseen
    · next hperform => exact ⟨m, u, _, _, ran_of_runs rfl hA hruns, hperform, Option.some.inj hseen⟩
    · cases hseen

omit [Memory M] in
/-- The table of a machine that runs was set up. -/
theorem init_of_onKernel {m' : Machine M} {a : Policy} (h : m.kernel = State.fresh m₀)
    (hinit : onKernel (Request.init policy ncpu) m = .ok a m') :
    ∃ k, (State.fresh m₀).init policy ncpu = .ok k ∧ m'.kernel = k.hush := by
  have hends : Ends (onKernel (Request.init policy ncpu)) m fun res m' =>
      ∀ a, res = .ok a → ∃ k, m.kernel.init policy ncpu = .ok k ∧ m'.kernel = k.hush := by
    refine ends_onKernel (fun a k m' hr hm' => ?_) fun _ _ => nofun
    rintro _ ⟨rfl⟩
    unfold Request.init at hr
    cases hk : m.kernel.init policy ncpu with
    | error e =>
      rw [hk] at hr
      cases hr
    | ok k₁ =>
      rw [hk] at hr
      cases hr
      exact ⟨_, rfl, hm'⟩
  rw [← h]
  exact hends.of_ok hinit a rfl

/-- **What holds once the table is set up and is kept by every visit** holds of the kernel of a
machine that runs. -/
theorem Ran.invariant {P : State M → Prop} (h : Ran A policy ncpu m₀ m u)
    (hinit : ∀ k, (State.fresh m₀).init policy ncpu = .ok k → P k.hush)
    (hvisit : ∀ k k' v x, P k → A v → v.Proper ncpu k → v.effect k = .ok (x, k') → P k') :
    P m.kernel := by
  induction h with
  | start hfresh hstart =>
    obtain ⟨k, hk, hm'⟩ := init_of_onKernel hfresh hstart
    rw [hm']
    exact hinit k hk
  | visit _ ha hv hm₁ hperform ih =>
    obtain ⟨r, hr, -⟩ := Visit.effect_of_perform hperform
    rw [hm₁] at hr
    exact hvisit _ _ _ r ih ha hv hr

theorem Ran.sound (h : Ran A policy ncpu m₀ m u) : State.Sound policy ncpu m.kernel := by
  refine h.invariant (fun k hk => ?_) fun k k' v x hsound _ hv hr => ?_
  · exact (State.Reached.init hk).sound.alike rfl rfl fun _ => .refl _
  · exact hsound.effects (State.effects_of_visit hsound hv hr)

theorem Ran.housed [MemoryView M] [MemoryContract M] (h : Ran A policy ncpu m₀ m u)
    (hm : Valid m₀) : State.Housed m₀ m.kernel := by
  have hboth : State.Sound policy ncpu m.kernel ∧ State.Housed m₀ m.kernel := by
    refine h.invariant (P := fun k => State.Sound policy ncpu k ∧ State.Housed m₀ k)
      (fun k hk => ?_) fun k k' v x hk _ hv hr => ?_
    · have hreached := State.Reached.init hk
      exact ⟨hreached.sound.alike rfl rfl fun _ => .refl _,
        (hreached.housed hm).same (fun _ => .refl _) rfl⟩
    · have heffects := State.effects_of_visit hk.1 hv hr
      exact ⟨hk.1.effects heffects, hk.2.effects hk.1 heffects⟩
  exact hboth.2

end Machine

end Exokernel
