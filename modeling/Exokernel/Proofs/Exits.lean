import Exokernel.Proofs.Contexts
import Exokernel.Proofs.Moments
import Exokernel.Proofs.Rounds
/-!
# From the entry to the exit

A CPU that enters the kernel takes the lock, makes its requests one after the other, and gives the lock
back on one of several ways out. `GoesThrough` says of a computation that it does not fault, that it
touches the state of the kernel only under the lock, and where it ends. It is pushed through the ways
from the entry to the exit: a CPU is `Inside` once it has the lock, and `Outside` when it has given it
back. `Ran.entry_ends` puts that together with what the state of the kernel says of the exit.
-/

namespace Exokernel

namespace Interrupts

variable {i : Interrupts} {c d : CpuIndex}

theorem nest_setNest (n : Nesting) : (i.setNest c n).nest d = if d = c then n else i.nest d := by
  by_cases h : d = c
  · subst h
    simp [nest, setNest]
  · have hne : c.val ≠ d.val := fun heq => h (Fin.ext heq.symm)
    simp [nest, setNest, Vector.getElem_set_ne _ _ hne, h]

theorem flag_setFlag (on : Bool) : (i.setFlag c on).flag d = if d = c then on else i.flag d := by
  by_cases h : d = c
  · subst h
    simp [flag, setFlag]
  · have hne : c.val ≠ d.val := fun heq => h (Fin.ext heq.symm)
    simp [flag, setFlag, Vector.getElem_set_ne _ _ hne, h]

@[simp] theorem flag_setNest (n : Nesting) : (i.setNest c n).flag d = i.flag d := rfl

@[simp] theorem nest_setFlag (on : Bool) : (i.setFlag c on).nest d = i.nest d := rfl

/-- **A pair of a CPU that is in none** leaves depths and flags as they were. -/
theorem pop_push (h : (i.nest c).depth = 0) :
    ∃ i', (i.push c c).pop c c = .ok i' ∧ (∀ d, (i'.nest d).depth = (i.nest d).depth) ∧
      ∀ d, i'.flag d = i.flag d := by
  have hnest : (i.push c c).nest c = { depth := 1, enabledBefore := i.flag c } := by
    unfold push
    rw [nest_setNest, if_pos rfl, h, if_pos rfl]
  have hflag : ∀ d, (i.push c c).flag d = if d = c then false else i.flag d := by
    intro d
    unfold push
    rw [flag_setNest, flag_setFlag]
  have hother : ∀ d, d ≠ c → (i.push c c).nest d = i.nest d := by
    intro d hd
    unfold push
    rw [nest_setNest, if_neg hd, nest_setFlag]
  have hoff : (i.push c c).flag c = false := by rw [hflag, if_pos rfl]
  let i₁ := (i.push c c).setNest c { depth := 0, enabledBefore := i.flag c }
  have hpop : (i.push c c).pop c c = .ok (if i.flag c then i₁.setFlag c true else i₁) := by
    unfold pop
    simp only [hoff, hnest, Bool.false_eq_true, if_false, true_and]
    rfl
  have hdepth : ∀ d, (i₁.nest d).depth = (i.nest d).depth := by
    intro d
    rw [nest_setNest]
    by_cases hd : d = c
    · rw [if_pos hd, hd, h]
    · rw [if_neg hd, hother d hd]
  refine ⟨_, hpop, fun d => ?_, fun d => ?_⟩
  · split
    · exact hdepth d
    · exact hdepth d
  · have hflag₁ : i₁.flag d = if d = c then false else i.flag d := hflag d
    split
    · next hon =>
      rw [flag_setFlag, hflag₁]
      by_cases hd : d = c
      · rw [if_pos hd, hd, hon]
      · rw [if_neg hd, if_neg hd]
    · next hon =>
      rw [hflag₁]
      by_cases hd : d = c
      · rw [if_pos hd, hd, Bool.eq_false_iff.2 hon]
      · rw [if_neg hd]

end Interrupts

namespace State

variable {M : Type} {k k' : State M} {policy : Policy} {ncpu cpu : Nat} {e : NothingRunnable}

/-- No environment in the slice of the CPU can run. -/
def Idle (k : State M) (cpu : Nat) : Prop :=
  ∀ s, (k.runQueue cpu).contains s → (k.env s).status.canRun = false

namespace Sound

theorem idle_of_pass (h : Sound policy ncpu k) (hcpu : cpu < ncpu)
    (hk : k.pass cpu = .ok (.error e, k')) : k'.Idle cpu := by
  unfold pass at hk
  cases hnext : k.scheduleNext cpu with
  | error f =>
    rw [hnext] at hk
    cases hk
  | ok p =>
    obtain ⟨r, k₁⟩ := p
    rw [hnext] at hk
    cases hk
    intro s hs
    have hsame := h.scheduleNext_cases hcpu
    rcases hsame with ⟨e', he'⟩ | ⟨t, -, -, ht⟩
    · cases hnext.symm.trans he'
      exact (h.idle_of_scheduleNext hcpu hnext hs).2
    · cases hnext.symm.trans ht

theorem idle_of_carryOn (h : Sound policy ncpu k) (hcpu : cpu < ncpu) {next : Next}
    (hk : k.carryOn cpu next = .ok (.error e, k')) : k'.Idle cpu := by
  cases next with
  | schedule => exact h.idle_of_pass hcpu hk
  | resume =>
    unfold carryOn at hk
    rcases h.resume_cases hcpu with ⟨hresume, -⟩ | ⟨s, -, -, hresume⟩
    · simp only [hresume, bind, Except.bind] at hk
      have hushed : Sound policy ncpu k.hush := h.alike rfl rfl fun _ => .refl _
      exact hushed.idle_of_pass hcpu hk
    · simp only [hresume, bind, Except.bind] at hk
      cases hk

variable [Memory M]

/-- **A CPU that finds nothing to do** after a system call has nothing to do. -/
theorem idle_of_trap (h : Sound policy ncpu k) (hcpu : cpu < ncpu) {tf : TrapFrame}
    (hk : k.trap cpu tf = .ok (.error e, k')) : k'.Idle cpu := by
  have hreaped := (h.effects ((h.moves_reap hcpu).effects hcpu)).move hcpu .hush
  unfold trap at hk
  generalize k.reap cpu = answer at hk hreaped
  obtain ⟨gone, k₁⟩ := answer
  cases gone with
  | true => exact hreaped.idle_of_pass hcpu hk
  | false =>
    have hcalled := hreaped.effects (effects_syscall hcpu tf k₁.hush)
    exact (hcalled.move hcpu .hush).idle_of_carryOn hcpu hk

end Sound

end State

/-- How often a CPU pauses after it has given the lock back: on its way to user mode it lets the
others have a chance of it. -/
def Exit.pauses : Exit → Nat
  | .user _ _ => 1
  | .monitor => 0

namespace Machine

open MemoryView State

variable {M α β : Type} {m m' : Machine M} {cpu : CpuIndex}

/-! ## Under the lock -/

/-- **Under the lock**: on the way from `m` to `m'` requests are made to the kernel only while the CPU
holds the lock, and nothing else changes the state of the kernel. -/
inductive Guarded (cpu : CpuIndex) : Machine M → List (Moment M) → Machine M → Prop
  | done (m : Machine M) : Guarded cpu m [] m
  | request {m t m' : Machine M} {l : List (Moment M)} : m.lock.holder = some cpu →
      t.lock.holder = some cpu → Guarded cpu t l m' → Guarded cpu m (⟨t, true⟩ :: l) m'
  | beside {m t m' : Machine M} {l : List (Moment M)} : t.kernel = m.kernel →
      Guarded cpu t l m' → Guarded cpu m (⟨t, false⟩ :: l) m'

theorem Guarded.append {m₁ : Machine M} {l l' : List (Moment M)} (h : Guarded cpu m l m₁)
    (h' : Guarded cpu m₁ l' m') : Guarded cpu m (l ++ l') m' := by
  induction h with
  | done => exact h'
  | request hbefore hafter _ ih => exact .request hbefore hafter (ih h')
  | beside hkernel _ ih => exact .beside hkernel (ih h')

/-- From `m` the computation goes through, under the lock, to an answer and a machine that satisfy
`Q`. -/
def GoesThrough (cpu : CpuIndex) (x : Seen M α) (m : Machine M) (Q : α → Machine M → Prop) : Prop :=
  Recounts x m fun l a m' => Guarded cpu m l m' ∧ Q a m'

namespace GoesThrough

variable {Q R : α → Machine M → Prop}

theorem imp {x : Seen M α} (h : GoesThrough cpu x m Q) (himp : ∀ a m', Q a m' → R a m') :
    GoesThrough cpu x m R :=
  Recounts.imp h fun _ a m' hl => ⟨hl.1, himp a m' hl.2⟩

theorem pure {a : α} (h : Q a m) : GoesThrough cpu (pure a) m Q := Recounts.pure ⟨.done m, h⟩

theorem thisCpu {Q : CpuIndex → Machine M → Prop} (h : Q m.acting m) :
    GoesThrough cpu thisCpu m Q :=
  Recounts.thisCpu ⟨.done m, h⟩

/-- **One after the other.** -/
theorem bind {x : Seen M α} {f : α → Seen M β} {Q : β → Machine M → Prop}
    (h : GoesThrough cpu x m fun a m' => GoesThrough cpu (f a) m' Q) :
    GoesThrough cpu (x >>= f) m Q :=
  Recounts.bind (Recounts.imp h fun _ _ _ hl =>
    Recounts.imp hl.2 fun _ _ _ hl' => ⟨hl.1.append hl'.1, hl'.2⟩)

/-- What leaves the state of the kernel alone needs no lock. -/
theorem beside {y : Act M α} (hspares : Spares y)
    (h : Ends y m fun r m' => ∃ a, r = .ok a ∧ (m'.kernel = m.kernel → Q a m')) :
    GoesThrough cpu (stroke y) m Q := by
  refine Recounts.stroke (.of_ends ((h.and (hspares m)).imp fun r m' hr => ?_))
  obtain ⟨⟨a, rfl, hQ⟩, hkernel⟩ := hr
  exact ⟨a, rfl, .beside hkernel (.done m'), hQ hkernel⟩

end GoesThrough

/-! ## What goes on beside the kernel -/

/-- The lock, the interrupts, the CPU that executes and the patience for waits are as they were. -/
structure Calm (m m' : Machine M) : Prop where
  lock : m'.lock = m.lock
  interrupts : m'.interrupts = m.interrupts
  acting : m'.acting = m.acting
  patience : m'.bench.patience = m.bench.patience

theorem Calm.refl (m : Machine M) : Calm m m := ⟨rfl, rfl, rfl, rfl⟩

theorem Calm.trans {m'' : Machine M} (h : Calm m m') (h' : Calm m' m'') : Calm m m'' :=
  ⟨h'.lock.trans h.lock, h'.interrupts.trans h.interrupts, h'.acting.trans h.acting,
    h'.patience.trans h.patience⟩

/-- The computation goes through, and all stays calm. -/
def Calms (x : Act M α) : Prop := ∀ m, Ends x m fun r m' => ∃ a, r = .ok a ∧ Calm m m'

namespace Calms

variable {x : Act M α}

theorem pure (a : α) : Calms (pure a : Act M α) := fun m => ⟨a, rfl, .refl m⟩

theorem get : Calms (get : Act M (Machine M)) := fun m => ⟨m, rfl, .refl m⟩

theorem modify {f : Machine M → Machine M} (hf : ∀ m, Calm m (f m)) :
    Calms (modify f : Act M PUnit) := fun m => ⟨⟨⟩, rfl, hf m⟩

theorem bind {f : α → Act M β} (hx : Calms x) (hf : ∀ a, Calms (f a)) : Calms (x >>= f) := by
  intro m
  refine Ends.bind_iff.2 ((hx m).imp fun r m₁ hr => ?_)
  obtain ⟨a, rfl, hcalm⟩ := hr
  refine (hf a m₁).imp fun r m₂ hr => ?_
  obtain ⟨b, rfl, hcalm'⟩ := hr
  exact ⟨b, rfl, hcalm.trans hcalm'⟩

theorem ite {p : Prop} [Decidable p] {y : Act M α} (hx : Calms x) (hy : Calms y) :
    Calms (if p then x else y) := by
  split
  · exact hx
  · exact hy

theorem forM {f : β → Act M PUnit} (hf : ∀ b, Calms (f b)) (l : List β) : Calms (l.forM f) := by
  induction l with
  | nil => exact pure _
  | cons b l ih => exact bind (hf b) fun _ => ih

theorem emit (e : Event) : Calms (onBench (Bench.emit e) : Act M PUnit) :=
  fun _ => ⟨⟨⟩, rfl, rfl, rfl, rfl, rfl⟩

/-- Speaking disturbs nobody, whether it is shown or not. -/
theorem say (r : Log.Record) : Calms (onBench (say r) : Act M PUnit) := by
  intro m
  refine ⟨⟨⟩, rfl, rfl, rfl, rfl, ?_⟩
  change (if m.bench.logger.shows r then _ else m.bench : Bench).patience = _
  split <;> rfl

theorem arrive (c : CpuIndex) : Calms (arrive c : Act M PUnit) :=
  bind get fun _ => ite (pure _) (bind (modify fun _ => ⟨rfl, rfl, rfl, rfl⟩) fun _ => emit _)

/-- Processors that come up meanwhile disturb nobody. -/
theorem settle : Calms (settle : Act M PUnit) := by
  intro m
  let split := m.starting.partition m.isUp
  let rested : Machine M := { m with starting := split.2 }
  have hrested : Calm m rested := ⟨rfl, rfl, rfl, rfl⟩
  have hup : Ends (split.1.forM fun s : Starting => Machine.arrive s.cpu) rested
      fun r m' => ∃ a, r = .ok a ∧ Calm m m' := by
    refine (forM (fun s : Starting => arrive s.cpu) split.1 rested).imp fun r m' hr => ?_
    obtain ⟨a, rfl, hcalm⟩ := hr
    exact ⟨a, rfl, hrested.trans hcalm⟩
  exact hup

end Calms

/-- **A request that does not fault** goes through under the lock. -/
theorem GoesThrough.request {r : Request M α} {a : α} {k : State M} {Q : α → Machine M → Prop}
    (hlock : m.lock.holder = some cpu) (hr : r m.kernel = .ok (a, k))
    (h : ∀ m', m'.kernel = k.hush → Calm m m' → Q a m') : GoesThrough cpu (askKernel r) m Q := by
  -- the state is replaced, and then what was said is shown
  let replaced : Machine M := { m with kernel := k.hush }
  have hreplaced : Calm m replaced := ⟨rfl, rfl, rfl, rfl⟩
  have hcalms := Calms.forM (fun r => Calms.say r) k.journal replaced
  have hspares := Spares.forM (fun r => Spares.onBench (Exokernel.say r)) k.journal replaced
  have hends : Ends (onKernel r) m fun res m' => res = .ok a ∧ m'.kernel = k.hush ∧ Calm m m' := by
    unfold onKernel
    simp only [Ends.bind_iff, Ends.get_iff, hr, Ends.modify_iff, Ends.pure_iff]
    refine (hcalms.and hspares).imp fun r m' hm' => ?_
    obtain ⟨⟨_, rfl, hcalm⟩, hkernel⟩ := hm'
    exact ⟨trivial, hkernel, hreplaced.trans hcalm⟩
  refine Recounts.stroke (.of_ends (hends.imp fun res m' hm' => ?_))
  obtain ⟨rfl, hkernel, hcalm⟩ := hm'
  have hheld : m'.lock.holder = some cpu := (congrArg SpinLock.holder hcalm.lock).trans hlock
  exact ⟨a, rfl, .request hlock hheld (.done m'), h m' hkernel hcalm⟩

/-! ## Taking the lock and giving it back -/

/-- **The CPU is in the kernel**: it executes and holds the lock, it is inside of one more pair of
disabled interrupts than it was in `m₀`, and it has not had to wait. -/
structure Inside (cpu : CpuIndex) (m₀ m : Machine M) : Prop where
  acting : m.acting = cpu
  holder : m.lock.holder = some cpu
  interrupts : m.interrupts = m₀.interrupts.push cpu cpu
  patience : m.bench.patience = m₀.bench.patience

/-- **The CPU is out of the kernel**: the lock is free, every CPU is inside of as many pairs of
disabled interrupts as it was in `m₀` and has its interrupt flag as it was, and there were so many
turns of waiting loops. -/
structure Outside (turns : Nat) (m₀ m : Machine M) : Prop where
  holder : m.lock.holder = none
  depth : ∀ c, (m.interrupts.nest c).depth = (m₀.interrupts.nest c).depth
  flag : ∀ c, m.interrupts.flag c = m₀.interrupts.flag c
  patience : m.bench.patience + turns = m₀.bench.patience

variable {m₀ : Machine M}

theorem Inside.of_calm (h : Inside cpu m₀ m) (hcalm : Calm m m') : Inside cpu m₀ m' :=
  ⟨hcalm.acting.trans h.acting, (congrArg SpinLock.holder hcalm.lock).trans h.holder,
    hcalm.interrupts.trans h.interrupts, hcalm.patience.trans h.patience⟩

theorem Outside.of_calm {turns : Nat} (h : Outside turns m₀ m) (hcalm : Calm m m') :
    Outside turns m₀ m' := by
  refine ⟨(congrArg SpinLock.holder hcalm.lock).trans h.holder, ?_, ?_, ?_⟩
  · rw [hcalm.interrupts]
    exact h.depth
  · rw [hcalm.interrupts]
    exact h.flag
  · rw [hcalm.patience]
    exact h.patience

/-- **A lock that is free is taken at once.** -/
theorem goesThrough_acquire (hacting : m.acting = cpu) (hfree : m.lock.holder = none)
    {Q : PUnit → Machine M → Prop}
    (h : ∀ m', Inside cpu m m' → m'.kernel = m.kernel → Q ⟨⟩ m') :
    GoesThrough cpu (acquire cpu) m Q := by
  subst hacting
  let taken : Machine M :=
    { m with lock := { m.lock with holder := some m.acting }
             interrupts := m.interrupts.push m.acting m.acting }
  have htaken : Inside m.acting m taken := ⟨rfl, rfl, rfl, rfl⟩
  refine .bind (.thisCpu (.bind (.beside (.onLock _) ?_)))
  refine Ends.focus_iff.2 ((SpinLock.ends_request_free hfree).imp fun r t hr => ?_)
  obtain ⟨rfl, rfl⟩ := hr
  exact ⟨true, rfl, fun hkernel => .pure (h taken htaken hkernel)⟩

/-- **The CPU gives the lock back** and ends the pair of disabled interrupts. -/
theorem goesThrough_release (hinside : Inside cpu m₀ m)
    (hdepth : (m₀.interrupts.nest cpu).depth = 0) {Q : PUnit → Machine M → Prop}
    (h : ∀ m', Outside 0 m₀ m' → m'.kernel = m.kernel → Q ⟨⟩ m') :
    GoesThrough cpu (release cpu) m Q := by
  obtain rfl := hinside.acting
  obtain ⟨i, hpop, hdepths, hflags⟩ := Interrupts.pop_push hdepth
  let given : Machine M := { m with lock := { m.lock with holder := none }, interrupts := i }
  have hgiven : Outside 0 m₀ given := ⟨rfl, hdepths, hflags, hinside.patience⟩
  rw [← hinside.interrupts] at hpop
  have hrelease := SpinLock.ends_release_held hinside.holder hpop
  refine .bind (.thisCpu (.beside (.onLock _) (Ends.focus_iff.2 (hrelease.imp fun r t hr => ?_))))
  obtain ⟨rfl, rfl⟩ := hr
  exact ⟨⟨⟩, rfl, fun _ => h given hgiven rfl⟩

/-- **One turn of a waiting loop** costs patience, and disturbs nobody. -/
theorem goesThrough_pause (houtside : Outside 0 m₀ m) (hpatience : 0 < m₀.bench.patience)
    {Q : PUnit → Machine M → Prop}
    (h : ∀ m', Outside 1 m₀ m' → m'.kernel = m.kernel → Q ⟨⟩ m') :
    GoesThrough cpu pause m Q := by
  refine .beside .hint ?_
  obtain ⟨n, hn⟩ : ∃ n, m.bench.patience = n + 1 := by
    have hsame := houtside.patience
    exact Nat.exists_eq_succ_of_ne_zero (by omega)
  have hspin : Ends Bench.spin m.bench fun r b => r = .ok ⟨⟩ ∧ b.patience = n := by
    simp only [Bench.spin, Bench.spend, Ends.bind_iff, Ends.get_iff, hn, Ends.modify_iff]
    exact ⟨rfl, rfl⟩
  change Ends hint m _
  unfold hint onBench
  simp only [Ends.bind_iff, Ends.focus_iff, Ends.modify_iff]
  refine hspin.imp fun r b hr => ?_
  obtain ⟨rfl, hb⟩ := hr
  let spent : Machine M :=
    { m with bench := b
             starting := m.starting.map fun s => { s with hints := s.hints + 1 } }
  have hspent : Outside 1 m₀ spent := by
    refine ⟨houtside.holder, houtside.depth, houtside.flag, ?_⟩
    have hsame := houtside.patience
    change b.patience + 1 = _
    omega
  refine (Calms.settle spent).imp fun r m' hr => ?_
  obtain ⟨a, rfl, hcalm⟩ := hr
  exact ⟨⟨⟩, rfl, h m' (hspent.of_calm hcalm)⟩

/-! ## Entries -/

/-- **A request of a CPU in the kernel** that does not fault. Every CPU there is has a run queue. -/
theorem Inside.request (hinside : Inside cpu m₀ m) {r : Request M α} {a : α} {k : State M}
    (hr : r m.kernel = .ok (a, k)) {Q : α → Machine M → Prop}
    (h : ∀ m', Inside cpu m₀ m' → m'.kernel = k.hush → Q a m') :
    GoesThrough cpu (askKernel (do Request.served cpu.val; r)) m Q := by
  have hserved : (Request.served cpu.val >>= fun _ => r) m.kernel = .ok (a, k) := by
    unfold Request.served
    rw [requires_bind, if_pos (.inr cpu.isLt), hr]
  exact .request hinside.holder hserved fun m' hk hcalm => h m' (hinside.of_calm hcalm) hk

variable {policy : Policy} {ncpu : Nat}

/-- Leaving for user mode. -/
theorem goesThrough_run (d : Dispatch) (hinside : Inside cpu m₀ m)
    (hdepth : (m₀.interrupts.nest cpu).depth = 0) (hpatience : 0 < m₀.bench.patience) :
    GoesThrough cpu (run cpu d) m fun exit m' => Outside exit.pauses m₀ m' := by
  have hunlock : GoesThrough cpu (unlock cpu) m fun _ m' => Outside 1 m₀ m' := by
    refine .bind (goesThrough_release hinside hdepth fun m₁ hm₁ _ => ?_)
    exact goesThrough_pause hm₁ hpatience fun m₂ hm₂ _ => hm₂
  refine .bind (hunlock.imp fun _ m₁ hm₁ => ?_)
  refine .bind (.beside (.modify fun _ => rfl) ⟨⟨⟩, rfl, fun _ => .pure ?_⟩)
  exact ⟨hm₁.holder, hm₁.depth, hm₁.flag, hm₁.patience⟩

/-- Dropping into the monitor. -/
theorem goesThrough_idle (e : NothingRunnable) (hinside : Inside cpu m₀ m)
    (hdepth : (m₀.interrupts.nest cpu).depth = 0) :
    GoesThrough cpu (do say (nothingToDo e); release cpu; pure .monitor : Seen M Exit) m
      fun exit m' => Outside exit.pauses m₀ m' := by
  have hsay : GoesThrough cpu (say (nothingToDo e)) m fun _ m' => Inside cpu m₀ m' := by
    refine .beside (.onBench _) ((Calms.say _ m).imp fun r m' hr => ?_)
    obtain ⟨a, rfl, hcalm⟩ := hr
    exact ⟨a, rfl, fun _ => hinside.of_calm hcalm⟩
  refine .bind (hsay.imp fun _ m₁ hm₁ => ?_)
  exact .bind (goesThrough_release hm₁ hdepth fun m₂ hm₂ _ => .pure hm₂)

theorem goesThrough_schedule (hinside : Inside cpu m₀ m)
    (hdepth : (m₀.interrupts.nest cpu).depth = 0) (hpatience : 0 < m₀.bench.patience)
    (hsound : Sound policy ncpu m.kernel) (hcpu : cpu.val < ncpu) :
    GoesThrough cpu (schedule cpu) m fun exit m' => Outside exit.pauses m₀ m' := by
  refine .bind ?_
  rcases hsound.scheduleNext_cases hcpu with ⟨e, hnext⟩ | ⟨s, -, -, hnext⟩
  · exact hinside.request hnext fun m₁ hm₁ _ => goesThrough_idle e hm₁ hdepth
  · exact hinside.request hnext fun m₁ hm₁ _ => goesThrough_run _ hm₁ hdepth hpatience

variable [Memory M]

/-- **A system call entry in the kernel.** -/
theorem goesThrough_syscall (hinside : Inside cpu m₀ m)
    (hdepth : (m₀.interrupts.nest cpu).depth = 0) (hpatience : 0 < m₀.bench.patience)
    (hsound : Sound policy ncpu m.kernel) (hcpu : cpu.val < ncpu) (tf : TrapFrame) :
    GoesThrough cpu (do
      match ← askKernel (Request.syscall cpu.val tf) with
      | .schedule => schedule cpu
      | .resume =>
        match ← askKernel (Request.resume cpu.val) with
        | some d => run cpu d
        | none => schedule cpu : Seen M Exit) m fun exit m' => Outside exit.pauses m₀ m' := by
  have hsound₁ := hsound.effects (effects_syscall hcpu tf m.kernel)
  generalize hcall : m.kernel.syscall cpu.val tf = answer at hsound₁
  obtain ⟨next, k⟩ := answer
  refine .bind (hinside.request (congrArg Except.ok hcall) fun m₁ hm₁ hk₁ => ?_)
  have hcalled : Sound policy ncpu m₁.kernel := by
    rw [hk₁]
    exact hsound₁.move hcpu .hush
  cases next with
  | schedule => exact goesThrough_schedule hm₁ hdepth hpatience hcalled hcpu
  | resume =>
    refine .bind ?_
    rcases hcalled.resume_cases hcpu with ⟨hresume, -⟩ | ⟨s, -, -, hresume⟩
    · refine hm₁.request hresume fun m₂ hm₂ hk₂ => ?_
      have hstill : Sound policy ncpu m₂.kernel := by
        rw [hk₂]
        exact hcalled.move hcpu .hush
      exact goesThrough_schedule hm₂ hdepth hpatience hstill hcpu
    · exact hm₁.request hresume fun m₂ hm₂ _ => goesThrough_run _ hm₂ hdepth hpatience

omit [Memory M] in
/-- The CPU takes the lock first. -/
theorem goesThrough_enter {x : Seen M Exit} (hfree : m₀.lock.holder = none)
    (h : ∀ m, Inside cpu m₀ m → m.kernel = m₀.kernel →
      GoesThrough cpu x m fun exit m' => Outside exit.pauses m₀ m') :
    GoesThrough cpu (do standFor cpu; acquire cpu; x) m₀ fun exit m' => Outside exit.pauses m₀ m' := by
  let acting : Machine M := { m₀ with acting := cpu }
  have hacquire : GoesThrough cpu (acquire cpu) acting fun _ m =>
      GoesThrough cpu x m fun exit m' => Outside exit.pauses m₀ m' := by
    refine goesThrough_acquire (m := acting) rfl hfree fun m hm hk => ?_
    exact h m ⟨hm.acting, hm.holder, hm.interrupts, hm.patience⟩ hk
  exact .bind (.beside (.actAs cpu) ⟨⟨⟩, rfl, fun _ => .bind hacquire⟩)

omit [Memory M] in
/-- **A CPU that enters to schedule** comes out again. -/
theorem goesThrough_enterScheduler (hfree : m.lock.holder = none)
    (hdepth : (m.interrupts.nest cpu).depth = 0) (hpatience : 0 < m.bench.patience)
    (hsound : Sound policy ncpu m.kernel) (hcpu : cpu.val < ncpu) :
    GoesThrough cpu (enterScheduler cpu) m fun exit m' => Outside exit.pauses m m' := by
  refine goesThrough_enter hfree fun m₁ hm₁ hk₁ => ?_
  rw [← hk₁] at hsound
  exact goesThrough_schedule hm₁ hdepth hpatience hsound hcpu

/-- **A CPU that enters with a system call** comes out again. -/
theorem goesThrough_syscallEntry (hfree : m.lock.holder = none)
    (hdepth : (m.interrupts.nest cpu).depth = 0) (hpatience : 0 < m.bench.patience)
    (hsound : Sound policy ncpu m.kernel) (hcpu : cpu.val < ncpu) (tf : TrapFrame) :
    GoesThrough cpu (syscallEntry cpu tf) m fun exit m' => Outside exit.pauses m m' := by
  refine goesThrough_enter hfree fun m₁ hm₁ hk₁ => .bind ?_
  rw [← hk₁] at hsound
  have hsound₁ := hsound.effects ((hsound.moves_reap hcpu).effects hcpu)
  generalize hreap : m₁.kernel.reap cpu.val = answer at hsound₁
  obtain ⟨gone, k⟩ := answer
  refine hm₁.request (congrArg Except.ok hreap) fun m₂ hm₂ hk₂ => ?_
  have hreaped : Sound policy ncpu m₂.kernel := by
    rw [hk₂]
    exact hsound₁.move hcpu .hush
  cases gone with
  | true => exact goesThrough_schedule hm₂ hdepth hpatience hreaped hcpu
  | false => exact goesThrough_syscall hm₂ hdepth hpatience hreaped hcpu tf

/-- What brings a CPU into the kernel: it has nothing to run, or its program makes a system call with
these registers. -/
inductive Cause where
  | nothingToRun
  | call (tf : TrapFrame)

/-- A CPU enters the kernel. -/
def enter {m : Type → Type} [Monad m] [MonadLog m] [MonadAwait m] [MonadMachine M m]
    (cpu : CpuIndex) : Cause → m Exit
  | .nothingToRun => enterScheduler cpu
  | .call tf => syscallEntry cpu tf

theorem Notes.enter (cpu : CpuIndex) (c : Cause) :
    Notes (enter cpu c : Seen M Exit) (enter cpu c) := by
  cases c with
  | nothingToRun => exact enterScheduler cpu
  | call tf => exact syscallEntry cpu tf

variable [MemoryView M] [MemoryContract M] {A : Visit → Prop} {M₀ : M}
  {u : CpuIndex → Option Slot} {m₁ : Machine M}

/-- **Every entry comes to its end.** A CPU that takes part enters the kernel, to schedule or with a
system call of any registers, while the lock is free and it is outside of all pairs of disabled
interrupts. Then it goes through: nothing faults, nothing is waited for but the one pause after the
lock has been given back, and memory is used as it asks. The CPU ends up in user mode, with the saved
registers and the address space of the environment that it runs from then on, or it drops into the
monitor because no environment of its slice can run. The lock is free again by then and interrupts are
as they were. Of the moments on the way each that is a request to the kernel is one at which this CPU
holds the lock, and no other changes the kernel's state. -/
theorem Ran.entry_ends (h : Ran A policy ncpu M₀ m u) (hM₀ : Valid M₀) (hcpu : cpu.val < ncpu)
    (hm₁ : m₁.kernel = m.kernel) (hfree : m₁.lock.holder = none)
    (hdepth : (m₁.interrupts.nest cpu).depth = 0) (hpatience : 0 < m₁.bench.patience) (c : Cause) :
    ∃ exit l m', (enter cpu c : Seen M Exit).run m₁ = .ok (exit, l) m' ∧
      (enter cpu c : Act M Exit) m₁ = .ok exit m' ∧ Guarded cpu m₁ l m' ∧
      Outside exit.pauses m₁ m' ∧ Valid m'.kernel.memory ∧
      match exit with
      | .user f dir => ∃ s, m'.kernel.current cpu.val = some s ∧
          (m'.kernel.env s).status = .running ∧ f = (m'.kernel.env s).frame ∧
          dir = (m'.kernel.env s).pgdir ∧ Live m'.kernel.memory dir
      | .monitor => m'.kernel.Idle cpu.val := by
  have hsound : Sound policy ncpu m₁.kernel := by
    rw [hm₁]
    exact h.sound
  have hhoused : Housed M₀ m₁.kernel := by
    rw [hm₁]
    exact h.housed hM₀
  have hthrough : GoesThrough cpu (enter cpu c) m₁ fun exit m' => Outside exit.pauses m₁ m' := by
    cases c with
    | nothingToRun => exact goesThrough_enterScheduler hfree hdepth hpatience hsound hcpu
    | call tf => exact goesThrough_syscallEntry hfree hdepth hpatience hsound hcpu tf
  obtain ⟨l, exit, m', hrun, hguarded, houtside⟩ := hthrough
  have hok := (Notes.enter cpu c).run hrun
  -- what it makes of the state of the kernel is that of a visit
  obtain ⟨v, r, hv, hproper, hr, rfl, hidle⟩ : ∃ (v : Visit) (r : Except NothingRunnable Dispatch),
      v.cpu = cpu ∧ v.Proper ncpu m₁.kernel ∧ v.effect m₁.kernel = .ok (some r, m'.kernel) ∧
        exit = Exit.of r ∧ ∀ e, r = .error e → m'.kernel.Idle cpu.val := by
    cases c with
    | nothingToRun =>
      obtain ⟨r, hpass, hexit⟩ := (follows_enterScheduler cpu m₁).of_ok hok exit rfl
      refine ⟨.enter cpu, r, rfl, hcpu, ?_, hexit, ?_⟩
      · simp only [Visit.effect, hpass]
        rfl
      · rintro e rfl
        exact hsound.idle_of_pass hcpu hpass
    | call tf =>
      obtain ⟨r, htrap, hexit⟩ := (follows_syscallEntry cpu tf m₁).of_ok hok exit rfl
      refine ⟨.call cpu tf, r, rfl, hcpu, ?_, hexit, ?_⟩
      · simp only [Visit.effect, htrap]
        rfl
      · rintro e rfl
        exact hsound.idle_of_trap hcpu htrap
  have hafter : Housed M₀ m'.kernel := hhoused.effects hsound (effects_of_visit hsound hproper hr)
  refine ⟨Exit.of r, l, m', hrun, hok, hguarded, houtside, hafter.valid, ?_⟩
  cases r with
  | error e => exact hidle e rfl
  | ok d =>
    obtain ⟨s, hcur, hstatus, hframe, hpgdir⟩ := hsound.dispatched_of_visit hproper hr rfl
    have hocc : (m'.kernel.env s).status ≠ .free := by
      rw [hstatus]
      decide
    rw [hv] at hcur
    exact ⟨s, hcur, hstatus, hframe.symm, hpgdir.symm, hpgdir ▸ hafter.live_pgdir hocc⟩

/-- On memory that remembers being misused, an environment asks for a page and goes on, and memory was
never misused. -/
theorem Ran.entry_ends_watched :
    ∃ (m m' : Machine WatchedFrames) (u : CpuIndex → Option Slot) (l : List (Moment WatchedFrames))
      (f : TrapFrame) (dir : PageDir),
      Ran (fun _ => True) .perCpu 2 ({} : WatchedFrames) m u ∧ m.lock.holder = none ∧
        (m.interrupts.nest ⟨1, by decide⟩).depth = 0 ∧ 0 < m.bench.patience ∧
        (enter ⟨1, by decide⟩ (.call (TrapFrame.user.calling Call.pageAlloc.number
          { second := 0x400000, third := 7 })) : Seen WatchedFrames Exit).run m =
            .ok (.user f dir, l) m' ∧ Guarded ⟨1, by decide⟩ m l m' ∧
        f.eax = 0 ∧ m'.lock.holder = none ∧ m'.kernel.memory.misused = false := by
  let c : CpuIndex := ⟨1, by decide⟩
  let tf := TrapFrame.user.calling Call.pageAlloc.number { second := 0x400000, third := 7 }
  obtain ⟨m, u, x, m', hran, hperform, hseen⟩ := exists_ran .perCpu 2 ({} : WatchedFrames)
    (.call c tf) (fun m _ m' => decide (m.lock.holder = none ∧ (m.interrupts.nest c).depth = 0 ∧
      0 < m.bench.patience ∧ (m'.kernel.runQueue 1).contains 64 ∧
      (m'.kernel.env 64).status.canRun = true ∧ m'.kernel.current 1 = some 64 ∧
      (m'.kernel.env 64).frame.eax = 0))
    (A := fun _ => True) (l := [.create c [0x7f] 1, .enter c]) (b := true) (fun _ _ => trivial)
    (by decide +kernel)
  obtain ⟨hfree, hdepth, hpatience, hslice, hrun, hcur, heax⟩ := of_decide_eq_true hseen
  have hvalid : Valid ({} : WatchedFrames) := ⟨⟨.nil, nofun⟩, rfl⟩
  have hcpu : c.val < 2 := by decide
  obtain ⟨exit, l, m'', hrun', hok, hguarded, houtside, hvalid', hexit⟩ :=
    hran.entry_ends hvalid hcpu rfl hfree hdepth hpatience (.call tf)
  have hsame : (Visit.call c tf).perform m = .ok (some exit) m'' := by
    change EStateM.map some (enter c (.call tf)) m = _
    unfold EStateM.map
    rw [hok]
  cases hperform.symm.trans hsame
  cases exit with
  | monitor =>
    have hnot := hexit 64 hslice
    rw [hrun] at hnot
    cases hnot
  | user f dir =>
    obtain ⟨s, hs, -, rfl, -, -⟩ := hexit
    obtain rfl : 64 = s := Option.some.inj (hcur.symm.trans hs)
    exact ⟨m, m', u, l, _, dir, hran, hfree, hdepth, hpatience, hrun', hguarded, heax,
      houtside.holder, hvalid'.2⟩

end Machine

end Exokernel
