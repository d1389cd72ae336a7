import Exokernel.Kernel.Schedule
import Exokernel.Proofs.Calls
/-!
# Runs of the kernel

The operations the kernel offers its outer layer, and the states that come about when the table is
set up once and the operations follow in any order, on any CPUs that take part. Each operation is
put together from a few effects: those of a CPU on its own slice (`Move`), the delivery of a message
and what is done to a slot from outside (`Effect`).
-/

namespace Exokernel

/-- An operation of the kernel, on behalf of a CPU where it is one CPU's business. -/
inductive Action where
  | alloc (parent : Option EnvId) (cpu : Nat)
  | create (image : Image) (cpu : Nat)
  | free (s : Slot)
  | destroy (cpu : Nat) (s : Slot)
  | reap (cpu : Nat)
  | syscall (cpu : Nat) (tf : TrapFrame)
  | schedule (cpu : Nat)
  | resume (cpu : Nat)

namespace Action

variable {M : Type}

/-- An operation is in order when its CPU takes part and what it removes is there. -/
def Proper (ncpu : Nat) (k : State M) : Action → Prop
  | alloc _ cpu | create _ cpu | reap cpu | syscall cpu _ | schedule cpu | resume cpu => cpu < ncpu
  | free s => (k.env s).status ≠ .free
  | destroy cpu s => cpu < ncpu ∧ (k.env s).status ≠ .free

instance (ncpu : Nat) (k : State M) : (a : Action) → Decidable (a.Proper ncpu k)
  | alloc _ _ | create _ _ | reap _ | syscall _ _ | schedule _ | resume _ =>
    inferInstanceAs (Decidable (_ < _))
  | free _ => inferInstanceAs (Decidable (_ ≠ _))
  | destroy _ _ => inferInstanceAs (Decidable (_ ∧ _))

/-- The operation handles no call and takes no slot. -/
def quiet : Action → Bool
  | free _ | destroy _ _ | reap _ | schedule _ | resume _ => true
  | alloc _ _ | create _ _ | syscall _ _ => false

/-- The state an operation leaves, also when it is refused. Only the scheduler can fault. -/
def perform [Memory M] (k : State M) : Action → Except Fault (State M)
  | alloc parent cpu => .ok ((State.alloc parent cpu).run k).2
  | create image cpu => .ok ((State.create image cpu).run k).2
  | free s => .ok (k.free s)
  | destroy cpu s => .ok (k.destroy cpu s).2
  | reap cpu => .ok (k.reap cpu).2
  | syscall cpu tf => .ok (k.syscall cpu tf).2
  | schedule cpu => Prod.snd <$> k.scheduleNext cpu
  | resume cpu => Prod.snd <$> k.resume cpu

end Action

namespace State

variable {M : Type} [Memory M]

/-- **What an operation does** that is in order, and the state it leaves. -/
inductive Done (ncpu : Nat) (k : State M) : Action → State M → Prop
  | alloc {cpu : Nat} (hcpu : cpu < ncpu) (parent : Option EnvId) :
      Done ncpu k (.alloc parent cpu) ((State.alloc parent cpu).run k).2
  | create {cpu : Nat} (hcpu : cpu < ncpu) (image : Image) :
      Done ncpu k (.create image cpu) ((State.create image cpu).run k).2
  | destroy {cpu : Nat} {s : Slot} (hcpu : cpu < ncpu) (hs : (k.env s).status ≠ .free) :
      Done ncpu k (.destroy cpu s) (k.destroy cpu s).2
  | syscall {cpu : Nat} (hcpu : cpu < ncpu) (tf : TrapFrame) :
      Done ncpu k (.syscall cpu tf) (k.syscall cpu tf).2
  /-- A slot is given back. -/
  | gone {a : Action} {s : Slot} : a.quiet = true → (k.env s).status ≠ .free →
      Done ncpu k a (k.free s)
  /-- An environment gets a CPU. -/
  | ran {a : Action} {cpu : Nat} {s : Slot} : a.quiet = true → cpu < ncpu →
      (k.runQueue cpu).contains s → (k.env s).status.canRun = true → Done ncpu k a (k.running cpu s)
  /-- There is nothing to do. -/
  | still {a : Action} : a.quiet = true → Done ncpu k a k

/-- The table was set up for `ncpu` CPUs on a memory `m₀`, and operations that were in order have
led to the state. -/
inductive Reached (policy : Policy) (ncpu : Nat) (m₀ : M) : State M → Prop
  | init {k : State M} : (fresh m₀).init policy ncpu = .ok k → Reached policy ncpu m₀ k
  | step {k k' : State M} {a : Action} : Reached policy ncpu m₀ k → a.Proper ncpu k →
      a.perform k = .ok k' → Reached policy ncpu m₀ k'

/-- The state operations lead to, one after the other, each of which has to be in order. -/
def after (ncpu : Nat) (k : State M) : List Action → Except Fault (State M)
  | [] => .ok k
  | a :: l =>
    if a.Proper ncpu k then
      match a.perform k with
      | .ok k' => k'.after ncpu l
      | .error e => .error e
    else
      .error (.failed none)

/-- The state operations lead to once the table is set up. -/
def ran (policy : Policy) (ncpu : Nat) (m₀ : M) (l : List Action) : Except Fault (State M) :=
  match (fresh m₀).init policy ncpu with
  | .ok k => k.after ncpu l
  | .error e => .error e

theorem Reached.after {policy : Policy} {ncpu : Nat} {m₀ : M} {l : List Action} :
    ∀ {k k' : State M}, Reached policy ncpu m₀ k → k.after ncpu l = .ok k' →
      Reached policy ncpu m₀ k' := by
  induction l with
  | nil =>
    intro k k' h hk
    cases hk
    exact h
  | cons a l ih =>
    intro k k' h hk
    unfold State.after at hk
    split at hk
    · next ha =>
      split at hk
      · next hperform => exact ih (h.step ha hperform) hk
      · cases hk
    · cases hk

/-- **What a list of operations leads to is reached.** -/
theorem reached_of_ran {policy : Policy} {ncpu : Nat} {m₀ : M} {l : List Action} {k : State M}
    (h : ran policy ncpu m₀ l = .ok k) : Reached policy ncpu m₀ k := by
  unfold ran at h
  split at h
  · next hinit => exact (Reached.init hinit).after h
  · cases h

/-! ## Effects -/

/-- **What a CPU does on its own**: for the environment it runs, and to the slots of its slice. -/
inductive Move (cpu : Nat) (k : State M) : State M → Prop
  /-- On behalf of the environment it runs. -/
  | change {k' : State M} : Change cpu k k' → Move cpu k k'
  /-- The environment it runs destroys itself or a descendant. -/
  | destroy {s : Slot} : k.Governs cpu s → Move cpu k (k.destroy cpu s).2
  /-- What was said is shown. -/
  | hush : Move cpu k k.hush
  /-- There is no directory for a new environment. -/
  | refuse {e : MemoryError} {mem : M} : Memory.createSpace k.memory = .error e mem →
      Move cpu k { k with memory := mem }
  /-- A free slot is taken for an environment without a parent. -/
  | occupy {s : Slot} {dir : PageDir} {mem : M} : (k.runQueue cpu).freeHead = some s →
      Memory.createSpace k.memory = .ok dir mem → Move cpu k (k.occupy cpu s none dir mem)
  /-- A program is loaded. -/
  | load {s : Slot} {image : Image} {entry : Nat} {mem : M} : (k.runQueue cpu).contains s →
      (k.env s).status ≠ .free → Memory.loadImage (k.env s).pgdir image k.memory = .ok entry mem →
      Move cpu k { k with memory := mem }
  /-- A program cannot be loaded. -/
  | spoil {s : Slot} {image : Image} {e : MemoryError} {mem : M} : (k.runQueue cpu).contains s →
      (k.env s).status ≠ .free → Memory.loadImage (k.env s).pgdir image k.memory = .error e mem →
      Move cpu k { k with memory := mem }
  /-- An environment is ready to start. -/
  | launch {s : Slot} (entry : Nat) : (k.runQueue cpu).contains s → (k.env s).status ≠ .free →
      Move cpu k (k.launch s entry)
  /-- A slot is given back. -/
  | drop {s : Slot} : (k.runQueue cpu).contains s → (k.env s).status ≠ .free →
      Move cpu k (k.free s)
  /-- An environment gets the CPU. -/
  | run {s : Slot} : (k.runQueue cpu).contains s → (k.env s).status.canRun = true →
      Move cpu k (k.running cpu s)

/-- A sequence of moves of a CPU. -/
abbrev Moves (cpu : Nat) : State M → State M → Prop := Relation.ReflTransGen (Move cpu)

/-- **What is done to the state**, by a CPU that takes part or to a slot from outside. -/
inductive Effect (ncpu : Nat) (k : State M) : State M → Prop
  | move {cpu : Nat} {k' : State M} : cpu < ncpu → Move cpu k k' → Effect ncpu k k'
  | deliver {cpu : Nat} {target value : UInt32} {srcva : Nat} {perm : UInt32} {receiver : Slot}
      {k' : State M} : cpu < ncpu → Delivery k cpu target value srcva perm receiver k' →
      Effect ncpu k k'
  | alloc {cpu : Nat} {s : Slot} {parent : Option EnvId} {dir : PageDir} {mem : M} : cpu < ncpu →
      (k.runQueue cpu).freeHead = some s → Memory.createSpace k.memory = .ok dir mem →
      Effect ncpu k (k.occupy cpu s parent dir mem)
  | free {s : Slot} : (k.env s).status ≠ .free → Effect ncpu k (k.free s)
  | destroy {cpu : Nat} {s : Slot} : (k.env s).status ≠ .free → Effect ncpu k (k.destroy cpu s).2

/-- A sequence of effects. -/
abbrev Effects (ncpu : Nat) : State M → State M → Prop := Relation.ReflTransGen (Effect ncpu)

variable {k k' : State M} {cpu ncpu : Nat}

theorem Changes.moves (h : Changes cpu k k') : Moves cpu k k' :=
  Relation.ReflTransGen.mono (fun _ _ => Move.change) _ _ h

theorem Moves.effects (hcpu : cpu < ncpu) (h : Moves cpu k k') : Effects ncpu k k' :=
  Relation.ReflTransGen.mono (fun _ _ => Effect.move hcpu) _ _ h

/-- Destroying an environment for the one a CPU runs is the CPU's own business. -/
theorem Destruction.moves {tf : TrapFrame} {victim : Slot} {next : Next}
    (h : Destruction k cpu tf victim next k') : Moves cpu k k' := by
  obtain ⟨s, text, k₁, hc, hraw, rfl, hend⟩ := h.ends
  have hsave : Move cpu k (k.save s tf) := .change (.amend (.save tf hc))
  have hsay : Move cpu (k.save s tf) ((k.save s tf).say .debug Log.Target.calls text) :=
    .change (.speak _ _ _)
  have hgoverns : ((k.save s tf).say .debug Log.Target.calls text).Governs cpu victim :=
    (sameNames_say _ _ _ _).governs.2 ⟨_, hraw⟩
  have hdestroy := Relation.ReflTransGen.tail (.tail (.single hsave) hsay) (Move.destroy hgoverns)
  rcases hend with ⟨-, hk'⟩ | ⟨-, hcur, hk'⟩
  · rw [hk']
    exact hdestroy
  · rw [hk']
    exact .tail hdestroy (.change (.amend (.save _ hcur)))

/-- **A system call is a sequence of moves** of its CPU, or the delivery of a message. -/
theorem syscall_moves_or_sending (cpu : Nat) (tf : TrapFrame) (k : State M) :
    Moves cpu k (k.syscall cpu tf).2 ∨
      ∃ s receiver, Sending k cpu tf s receiver (k.syscall cpu tf).1 (k.syscall cpu tf).2 := by
  rcases syscall_cases cpu tf k with h | ⟨victim, h⟩ | h
  · exact .inl h.moves
  · exact .inl h.moves
  · exact .inr h

/-- **Every system call is a sequence of effects.** -/
theorem effects_syscall (hcpu : cpu < ncpu) (tf : TrapFrame) (k : State M) :
    Effects ncpu k (k.syscall cpu tf).2 := by
  rcases syscall_moves_or_sending cpu tf k with h | ⟨s, receiver, h⟩
  · exact h.effects hcpu
  · obtain ⟨k₁, hd, hk'⟩ := h.ends
    have hsave : Move cpu k (k.save s tf) := .change (.amend (.save tf h.current))
    have hresult : Move cpu k₁ (k₁.setResult s 0) :=
      .change (.amend (.save _ ((hd.current cpu).trans h.current)))
    rw [hk']
    exact .tail (.tail (.single (.move hcpu hsave)) (.deliver hcpu hd)) (.move hcpu hresult)

end State

end Exokernel
