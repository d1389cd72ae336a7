import Mathlib.Control.Monad.Writer
import Exokernel.Machine.Boot
import Exokernel.Proofs.Outcome
/-!
# The moments of a run

What a machine does is put together from strokes: an access to a register or a port, a turn of a waiting
loop, a request to the kernel. The code that enters the kernel and the code that starts processors only
say which strokes are made, so they run as well in `Seen`, which notes what the machine is like after
each. `Recounts` says of such a run which moments it passes and where it ends. `Notes` says that noting
does not disturb: without what is noted the computation is the one that is run otherwise.
-/

namespace Exokernel

namespace SpinLock

variable {l : SpinLock} {i i' : Interrupts} {acting cpu : CpuIndex}

/-- **A free lock** is taken at once. -/
theorem ends_request_free (hfree : l.holder = none) :
    Ends (request acting cpu) (l, i) fun r t =>
      r = .ok true ∧ t = ({ l with holder := some cpu }, i.push acting cpu) := by
  simp only [request, Ends.bind_iff, Ends.modify_iff, Ends.get_iff, Ends.ite_iff, hfree]
  refine ⟨nofun, fun _ => ?_⟩
  unfold Ends take
  rw [hfree]
  exact ⟨rfl, rfl⟩

/-- **The lock is given back** by the CPU that holds it, if the pair of disabled interrupts can be
ended. -/
theorem ends_release_held (hheld : l.holder = some cpu) (hpop : i.pop acting cpu = .ok i') :
    Ends (release acting cpu) (l, i) fun r t =>
      r = .ok ⟨⟩ ∧ t = ({ l with holder := none }, i') := by
  simp only [release, Ends.bind_iff, Ends.modify_iff, Ends.get_iff, Ends.ite_iff, hheld, hpop]
  exact ⟨fun hne => absurd rfl hne, fun _ => ⟨rfl, rfl⟩⟩

end SpinLock

namespace Machine

variable {M α β : Type}

/-! ## Going through -/

/-- The computation goes through, to an answer and a machine that satisfy `Q`. -/
def Completes (x : Act M α) (m : Machine M) (Q : α → Machine M → Prop) : Prop :=
  ∃ a m', x m = .ok a m' ∧ Q a m'

namespace Completes

variable {x : Act M α} {m : Machine M} {Q Q' : α → Machine M → Prop}

theorem pure {a : α} (h : Q a m) : Completes (pure a) m Q := ⟨a, m, rfl, h⟩

theorem get {Q : Machine M → Machine M → Prop} (h : Q m m) : Completes get m Q := ⟨m, m, rfl, h⟩

theorem thisCpu {Q : CpuIndex → Machine M → Prop} (h : Q m.acting m) : Completes thisCpu m Q :=
  ⟨m.acting, m, rfl, h⟩

theorem cpuSet {Q : CpuSet → Machine M → Prop} (h : Q m.cpus m) : Completes cpuSet m Q :=
  ⟨m.cpus, m, rfl, h⟩

theorem modify {f : Machine M → Machine M} {Q : PUnit → Machine M → Prop} (h : Q ⟨⟩ (f m)) :
    Completes (modify f) m Q := ⟨⟨⟩, f m, rfl, h⟩

theorem of_ends (h : Ends x m fun r t => ∃ a, r = .ok a ∧ Q a t) : Completes x m Q :=
  Ends.ok_iff.1 h

theorem imp (h : Completes x m Q) (himp : ∀ a m', Q a m' → Q' a m') : Completes x m Q' := by
  obtain ⟨a, m', hx, hQ⟩ := h
  exact ⟨a, m', hx, himp a m' hQ⟩

/-- **One after the other.** -/
theorem bind {f : α → Act M β} {Q : β → Machine M → Prop}
    (h : Completes x m fun a m' => Completes (f a) m' Q) : Completes (x >>= f) m Q := by
  obtain ⟨a, m₁, hx, b, m₂, hf, hQ⟩ := h
  refine ⟨b, m₂, ?_, hQ⟩
  change EStateM.bind x f m = _
  unfold EStateM.bind
  rw [hx]
  exact hf

end Completes

/-! ## Noting the moments -/

/-- **A moment of a run**: what the machine is like after a stroke, and whether that stroke was a request
to the kernel. -/
structure Moment (M : Type) where
  machine : Machine M
  asked : Bool

/-- A computation on a machine that notes the moments it passes, oldest first. -/
abbrev Seen (M : Type) : Type → Type := WriterT (List (Moment M)) (Act M)

/-- One stroke, after which the machine is noted. -/
def stroke (x : Act M α) (asked : Bool := false) : Seen M α := .mk do
  let a ← x
  pure (a, [⟨← get, asked⟩])

instance : MonadLog (Seen M) where
  say r := stroke (say r)

instance : MonadAwait (Seen M) where
  await test := do awaitWithin test ((← get).bench.patience + 1)

/-- All is noted but what a CPU looks at. -/
instance : MonadMachine M (Seen M) where
  thisCpu := do pure (← get).acting
  standFor cpu := stroke (standFor cpu)
  cpuSet := do pure (← get).cpus
  atLock x := stroke (atLock x)
  askKernel r := stroke (askKernel r) true
  pause := stroke pause
  publish cpu stackTop := stroke (publish cpu stackTop)
  leaveWith cpu frame := stroke (leaveWith cpu frame)

/-- A block of registers, with every access noted. -/
def seenRegisters (r : Registers (Act M)) : Registers (Seen M) where
  read offset := stroke (r.read offset)
  write offset value := stroke (r.write offset value)

/-- A platform, with all it is used for noted. -/
def seenPlatform (p : Platform (Act M)) : Platform (Seen M) where
  outb port value := stroke (p.outb port value)
  inb port := stroke (p.inb port)
  storePhys paddr value := stroke (p.storePhys paddr value)
  delay us := stroke (p.delay us)

/-! ## What is recounted -/

/-- Run from `m`, the computation goes through, and the moments it passes, its answer and the machine it
leads to satisfy `R`. -/
def Recounts (x : Seen M α) (m : Machine M) (R : List (Moment M) → α → Machine M → Prop) : Prop :=
  ∃ l a m', x.run m = .ok (a, l) m' ∧ R l a m'

namespace Recounts

variable {x : Seen M α} {m : Machine M} {R R' : List (Moment M) → α → Machine M → Prop}

theorem imp (h : Recounts x m R) (himp : ∀ l a m', R l a m' → R' l a m') : Recounts x m R' := by
  obtain ⟨l, a, m', hx, hR⟩ := h
  exact ⟨l, a, m', hx, himp l a m' hR⟩

theorem pure {a : α} (h : R [] a m) : Recounts (pure a) m R := ⟨[], a, m, rfl, h⟩

theorem get {R : List (Moment M) → Machine M → Machine M → Prop} (h : R [] m m) : Recounts get m R :=
  ⟨[], m, m, rfl, h⟩

theorem thisCpu {R : List (Moment M) → CpuIndex → Machine M → Prop} (h : R [] m.acting m) :
    Recounts thisCpu m R :=
  ⟨[], m.acting, m, rfl, h⟩

theorem cpuSet {R : List (Moment M) → CpuSet → Machine M → Prop} (h : R [] m.cpus m) :
    Recounts cpuSet m R :=
  ⟨[], m.cpus, m, rfl, h⟩

/-- **A stroke** that goes through leads to the one moment after it. -/
theorem stroke {y : Act M α} {asked : Bool}
    (h : Completes y m fun a m' => R [⟨m', asked⟩] a m') : Recounts (stroke y asked) m R := by
  obtain ⟨a, m', hy, hR⟩ := h
  refine ⟨[⟨m', asked⟩], a, m', ?_, hR⟩
  change EStateM.bind y _ m = _
  unfold EStateM.bind
  rw [hy]
  rfl

/-- **One after the other**: the moments of the second part follow those of the first. -/
theorem bind {f : α → Seen M β} {R : List (Moment M) → β → Machine M → Prop}
    (h : Recounts x m fun l a m₁ => Recounts (f a) m₁ fun l' b m' => R (l ++ l') b m') :
    Recounts (x >>= f) m R := by
  obtain ⟨l, a, m₁, hx, l', b, m', hf, hR⟩ := h
  have hrest : EStateM.map (fun p => (p.1, l ++ p.2)) (f a).run m₁ = .ok (b, l ++ l') m' := by
    unfold EStateM.map
    rw [hf]
  refine ⟨l ++ l', b, m', ?_, hR⟩
  change EStateM.bind x.run _ m = _
  unfold EStateM.bind
  rw [hx]
  exact hrest

end Recounts

/-! ## Noting does not disturb -/

/-- **Without what is noted** the computation `x` is `y`. -/
def Notes (x : Seen M α) (y : Act M α) : Prop := Prod.fst <$> x.run = y

namespace Notes

variable {x : Seen M α} {y : Act M α}

/-- A recorded run is a run. -/
theorem run (h : Notes x y) {m m' : Machine M} {a : α} {l : List (Moment M)}
    (hx : x.run m = .ok (a, l) m') : y m = .ok a m' := by
  subst h
  change EStateM.map Prod.fst x.run m = _
  unfold EStateM.map
  rw [hx]

/-- What is recounted of a run is so without the moments, too. -/
theorem completes (h : Notes x y) {m : Machine M} {R : List (Moment M) → α → Machine M → Prop}
    (hx : Recounts x m R) : Completes y m fun a m' => ∃ l, R l a m' := by
  obtain ⟨l, a, m', hrun, hR⟩ := hx
  exact ⟨a, m', h.run hrun, l, hR⟩

theorem pure (a : α) : Notes (pure a : Seen M α) (pure a) := rfl

theorem throw (e : Fault) : Notes (throw e : Seen M α) (throw e) := rfl

theorem get : Notes (get : Seen M (Machine M)) get := rfl

theorem thisCpu : Notes (thisCpu : Seen M CpuIndex) thisCpu := rfl

theorem cpuSet : Notes (cpuSet : Seen M CpuSet) cpuSet := rfl

theorem stroke (y : Act M α) (asked : Bool) : Notes (stroke y asked) y := by
  funext m
  change EStateM.map Prod.fst (EStateM.bind y _) m = _
  unfold EStateM.map EStateM.bind
  cases y m <;> rfl

/-- **One after the other.** -/
theorem bind {f : α → Seen M β} {g : α → Act M β} (hx : Notes x y) (hf : ∀ a, Notes (f a) (g a)) :
    Notes (x >>= f) (y >>= g) := by
  obtain rfl := hx
  obtain rfl : (fun a => Prod.fst <$> (f a).run) = g := funext hf
  change Prod.fst <$> (x.run >>= fun p => (fun q => (q.1, p.2 ++ q.2)) <$> (f p.1).run) = _
  simp only [map_bind, Functor.map_map, bind_map_left]

theorem ite {p : Prop} [Decidable p] {x' : Seen M α} {y' : Act M α} (h : Notes x y)
    (h' : Notes x' y') : Notes (if p then x else x') (if p then y else y') := by
  split
  · exact h
  · exact h'

/-- A check comes first. -/
theorem check {p : Prop} [Decidable p] (e : Fault) (h : Notes x y) :
    Notes (if p then do MonadExcept.throw e; x else x) (if p then do MonadExcept.throw e; y else y) :=
  ite (bind (throw e) fun _ => h) h

theorem forM {f : β → Seen M PUnit} {g : β → Act M PUnit} (h : ∀ b, Notes (f b) (g b)) (l : List β) :
    Notes (l.forM f) (l.forM g) := by
  induction l with
  | nil => exact pure _
  | cons b l ih => exact bind (h b) fun _ => ih

theorem awaitWithin {x : Seen M Bool} {y : Act M Bool} (h : Notes x y) (n : Nat) :
    Notes (awaitWithin x n) (awaitWithin y n) := by
  induction n with
  | zero => exact throw _
  | succ n ih => exact bind h fun _ => ite (pure _) ih

theorem await {x : Seen M Bool} {y : Act M Bool} (h : Notes x y) : Notes (await x) (await y) :=
  bind get fun _ => awaitWithin h _

/-! ### The lock -/

theorem acquire (cpu : CpuIndex) : Notes (acquire cpu : Seen M PUnit) (acquire cpu) :=
  bind thisCpu fun _ => bind (stroke _ _) fun _ =>
    ite (pure _) (await (bind (stroke _ _) fun _ => stroke _ _))

theorem release (cpu : CpuIndex) : Notes (release cpu : Seen M PUnit) (release cpu) :=
  bind thisCpu fun _ => stroke _ _

/-! ### Entries -/

theorem leave (cpu : CpuIndex) (d : Dispatch) :
    Notes (Machine.run cpu d : Seen M Exit) (Machine.run cpu d) :=
  bind (bind (release cpu) fun _ => stroke _ _) fun _ => bind (stroke _ _) fun _ => pure _

theorem schedule (cpu : CpuIndex) : Notes (schedule cpu : Seen M Exit) (schedule cpu) := by
  refine bind (stroke _ _) fun r => ?_
  cases r with
  | ok d => exact leave cpu d
  | error e => exact bind (stroke _ _) fun _ => bind (release cpu) fun _ => pure _

theorem enterScheduler (cpu : CpuIndex) :
    Notes (enterScheduler cpu : Seen M Exit) (enterScheduler cpu) :=
  bind (stroke _ _) fun _ => bind (acquire cpu) fun _ => schedule cpu

theorem syscallEntry [Memory M] (cpu : CpuIndex) (tf : TrapFrame) :
    Notes (syscallEntry cpu tf : Seen M Exit) (syscallEntry cpu tf) := by
  refine bind (stroke _ _) fun _ => bind (acquire cpu) fun _ => bind (stroke _ _) fun gone =>
    ite (schedule cpu) (bind (stroke _ _) fun next => ?_)
  cases next with
  | schedule => exact schedule cpu
  | resume =>
    refine bind (stroke _ _) fun d => ?_
    cases d with
    | some d => exact leave cpu d
    | none => exact schedule cpu

/-! ### Starting processors -/

section Starting

variable (r : Registers (Act M)) (p : Platform (Act M))

/-- A register of a local controller is written. -/
theorem command (offset : Nat) (value : UInt32) :
    Notes (LocalApic.write (seenRegisters r) offset value) (LocalApic.write r offset value) :=
  bind (stroke _ _) fun _ => bind (stroke _ _) fun _ => pure _

theorem sendStartup (addr destination : UInt32) :
    Notes (LocalApic.startProcessor.sendStartup (seenRegisters r) (seenPlatform p) addr destination)
      (LocalApic.startProcessor.sendStartup r p addr destination) :=
  bind (command r _ _) fun _ => bind (command r _ _) fun _ => stroke _ _

theorem startProcessor (apicId : UInt8) (addr : UInt32) :
    Notes (LocalApic.startProcessor (seenRegisters r) (seenPlatform p) apicId addr)
      (LocalApic.startProcessor r p apicId addr) := by
  refine check _ (check _ ?_)
  refine bind (stroke _ _) fun _ => bind (stroke _ _) fun _ => ?_
  refine bind (stroke _ _) fun _ => bind (stroke _ _) fun _ => ?_
  refine bind (command r _ _) fun _ => bind (command r _ _) fun _ => bind (stroke _ _) fun _ => ?_
  refine bind (command r _ _) fun _ => bind (stroke _ _) fun _ => ?_
  exact bind (sendStartup r p _ _) fun _ => sendStartup r p _ _

theorem startOther (cpu : CpuIndex) (stackTop : Nat) :
    Notes (startOther (seenRegisters r) (seenPlatform p) cpu stackTop)
      (startOther r p cpu stackTop) := by
  refine bind (stroke _ _) fun _ => bind cpuSet fun _ => ?_
  refine bind (startProcessor r p _ _) fun _ => bind (await ?_) fun _ => stroke _ _
  exact bind cpuSet fun _ => ite (pure _) (bind (stroke _ _) fun _ => pure _)

theorem startOthers (me : CpuIndex) (stackTop : CpuIndex → Act M Nat) :
    Notes (startOthers (seenRegisters r) (seenPlatform p) me fun i => Machine.stroke (stackTop i))
      (startOthers r p me stackTop) :=
  bind cpuSet fun _ =>
    forM (fun i => bind (stroke (stackTop i) _) fun top => startOther r p i top) _

end Starting

end Notes

end Machine

end Exokernel
