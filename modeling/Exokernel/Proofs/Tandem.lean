import Exokernel.Proofs.Calls
/-!
# Two runs side by side

What a CPU does in one state it does in another one as well that looks the same to it. `Alike` says
of two computations that they end with the same result, in states that go together; a `Pairing` says
which states do. Two states of a pairing agree in memory, in what the CPU's run queue says and in the
slots the CPU may write to; there the list of free slots may go on in one of them and end in the
other. Of the other slots they agree in what a call can read, and neither run touches those.
-/

namespace Exokernel

variable {ε σ α β : Type}

/-- **Two computations go alike**: started in `s` and in `t` they end with the same result, in states
that satisfy `Q`. -/
def Alike (x y : EStateM ε σ α) (s t : σ) (Q : Except ε α → σ → σ → Prop) : Prop :=
  Ends x s fun r s' => Ends y t fun r' t' => r' = r ∧ Q r s' t'

namespace Alike

variable {x y : EStateM ε σ α} {s t : σ} {Q : Except ε α → σ → σ → Prop}

theorem pure {a : α} (h : Q (.ok a) s t) : Alike (pure a) (pure a) s t Q := ⟨rfl, h⟩

theorem throw {e : ε} (h : Q (.error e) s t) : Alike (throw e) (throw e) s t Q := ⟨rfl, h⟩

theorem modify {f g : σ → σ} {Q : Except ε PUnit → σ → σ → Prop} (h : Q (.ok ⟨⟩) (f s) (g t)) :
    Alike (modify f) (modify g) s t Q :=
  ⟨rfl, h⟩

theorem set {s' t' : σ} {Q : Except ε PUnit → σ → σ → Prop} (h : Q (.ok ⟨⟩) s' t') :
    Alike (set s') (set t') s t Q :=
  ⟨rfl, h⟩

/-- Each reads its own state. -/
theorem get_bind {f g : σ → EStateM ε σ α} (h : Alike (f s) (g t) s t Q) :
    Alike (get >>= f) (get >>= g) s t Q :=
  h

/-- **One after the other.** -/
theorem bind {f g : α → EStateM ε σ β} {Q : Except ε β → σ → σ → Prop}
    (h : Alike x y s t fun r s' t' =>
      match r with
      | .ok a => Alike (f a) (g a) s' t' Q
      | .error e => Q (.error e) s' t') :
    Alike (x >>= f) (y >>= g) s t Q := by
  refine Ends.bind_iff.2 (Ends.imp h fun r s' hy => ?_)
  cases r with
  | ok a =>
    -- how the second computation began is known, so what follows can be looked at in both
    cases hyt : y t with
    | ok b t' =>
      obtain ⟨hb, hrest⟩ := hy.of_ok hyt
      cases hb
      refine Ends.imp hrest fun r s'' hr => Ends.bind_iff.2 ?_
      unfold Ends
      rw [hyt]
      exact hr
    | error e t' => cases (hy.of_error hyt).1
  | error e =>
    refine Ends.bind_iff.2 (Ends.imp hy fun r' t' hr' => ?_)
    obtain ⟨rfl, hQ⟩ := hr'
    exact ⟨rfl, hQ⟩

/-- Each of the two parts keeps what goes together, however it ends. -/
theorem andThen {f g : α → EStateM ε σ β} {H : σ → σ → Prop} (h : Alike x y s t fun _ => H)
    (hf : ∀ a s' t', H s' t' → Alike (f a) (g a) s' t' fun _ => H) :
    Alike (x >>= f) (y >>= g) s t fun _ => H := by
  refine .bind (Ends.imp h fun r s' hy => hy.imp fun r' t' hr' => ⟨hr'.1, ?_⟩)
  cases r with
  | ok a => exact hf a s' t' hr'.2
  | error e => exact hr'.2

theorem map {f : α → β} {Q : Except ε β → σ → σ → Prop}
    (h : Alike x y s t fun r s' t' => Q (r.map f) s' t') : Alike (f <$> x) (f <$> y) s t Q := by
  refine Ends.map_iff.2 (Ends.imp h fun r s' hy => Ends.map_iff.2 (hy.imp fun r' t' hr' => ?_))
  obtain ⟨rfl, hQ⟩ := hr'
  exact ⟨rfl, hQ⟩

theorem ite {p : Prop} [Decidable p] {x' y' : EStateM ε σ α} (hpos : p → Alike x y s t Q)
    (hneg : ¬ p → Alike x' y' s t Q) :
    Alike (if p then x else x') (if p then y else y') s t Q := by
  split
  · next hp => exact hpos hp
  · next hp => exact hneg hp

/-- Two computations that go alike end alike. -/
theorem exists_ends (h : Alike x y s t Q) :
    (∃ a s' t', x s = .ok a s' ∧ y t = .ok a t' ∧ Q (.ok a) s' t') ∨
      ∃ e s' t', x s = .error e s' ∧ y t = .error e t' ∧ Q (.error e) s' t' := by
  cases hx : x s with
  | ok a s' =>
    have hy := Ends.of_ok h hx
    cases hyt : y t with
    | ok b t' =>
      obtain ⟨hb, hQ⟩ := hy.of_ok hyt
      cases hb
      exact .inl ⟨a, s', t', rfl, rfl, hQ⟩
    | error e t' => cases (hy.of_error hyt).1
  | error e s' =>
    have hy := Ends.of_error h hx
    cases hyt : y t with
    | ok b t' => cases (hy.of_ok hyt).1
    | error e' t' =>
      obtain ⟨he, hQ⟩ := hy.of_error hyt
      cases he
      exact .inr ⟨e, s', t', rfl, rfl, hQ⟩

end Alike

namespace Op

variable {M : Type} {k l : State M} {Q : Except KernelError α → State M → State M → Prop}

theorem alike_ofExcept {o : Except KernelError α} (h : Q o k l) :
    Alike (ofExcept o) (ofExcept o) k l Q := by
  cases o <;> exact ⟨rfl, h⟩

theorem alike_ofOption {e : KernelError} {o : Option α} (hsome : ∀ a, o = some a → Q (.ok a) k l)
    (hnone : o = none → Q (.error e) k l) : Alike (ofOption e o) (ofOption e o) k l Q := by
  cases o with
  | none => exact ⟨rfl, hnone rfl⟩
  | some a => exact ⟨rfl, hsome a rfl⟩

theorem alike_attempt {x y : Op M α}
    {Q : Except KernelError (Except KernelError α) → State M → State M → Prop}
    (h : Alike x y k l fun r k' l' => Q (.ok r) k' l') : Alike x.attempt y.attempt k l Q := by
  refine ends_attempt.2 (Ends.imp h fun r k' hy => ends_attempt.2 (hy.imp fun r' l' hr' => ?_))
  obtain ⟨rfl, hQ⟩ := hr'
  exact ⟨rfl, hQ⟩

/-- Operations that go alike have the same result, and leave states that go together. -/
theorem run_of_alike {x y : Op M α} {H : State M → State M → Prop}
    (h : Alike x y k l fun _ => H) : (y.run l).1 = (x.run k).1 ∧ H (x.run k).2 (y.run l).2 := by
  unfold run
  rcases h.exists_ends with ⟨a, k', l', hk, hl, hH⟩ | ⟨e, k', l', hk, hl, hH⟩ <;>
    · rw [hk, hl]
      exact ⟨rfl, hH⟩

/-- **Memory does the same** where it is the same. -/
theorem alike_onMemory {op : EStateM MemoryError M α} (hmem : l.memory = k.memory)
    (hok : ∀ a mem, op k.memory = .ok a mem →
      Q (.ok a) { k with memory := mem } { l with memory := mem })
    (herror : ∀ e mem, op k.memory = .error e mem →
      Q (.error (.memory e)) { k with memory := mem } { l with memory := mem }) :
    Alike (onMemory op) (onMemory op) k l Q := by
  refine ends_onMemory.2 ⟨fun a mem h => ends_onMemory.2 ⟨?_, ?_⟩, fun e mem h =>
    ends_onMemory.2 ⟨?_, ?_⟩⟩ <;> rw [hmem, h]
  · rintro _ _ ⟨rfl, rfl⟩
    exact ⟨rfl, hok a mem h⟩
  · exact nofun
  · exact nofun
  · rintro _ _ ⟨rfl, rfl⟩
    exact ⟨rfl, herror e mem h⟩

end Op

/-! ## States that go together -/

/-- The slot with the link to the next free one changed by `cut`. -/
def Env.relinked (cut : Option Slot → Option Slot) (e : Env) : Env :=
  { e with nextFree := cut e.nextFree }

/-- The slot once it is given back, with the link to what was the first free slot. -/
def Env.vacated (e : Env) (head : Option Slot) : Env :=
  { e with pgdir := PageDir.null, status := .free, inbox := {}, parent := none, nextFree := head }

/-- Nothing is different that the environment of another slot could tell. -/
structure Env.Resembles (e e' : Env) : Prop where
  lastId : e'.lastId = e.lastId
  parent : e'.parent = e.parent
  free : e'.status = .free ↔ e.status = .free
  dying : e'.status = .dying ↔ e.status = .dying
  pgdir : e'.pgdir = e.pgdir
  inbox : e'.inbox = e.inbox

theorem Env.resembles_relinked (cut : Option Slot → Option Slot) (e : Env) :
    e.Resembles (e.relinked cut) :=
  ⟨rfl, rfl, .rfl, .rfl, rfl, rfl⟩

theorem Env.Resembles.id {e e' : Env} (h : e.Resembles e') : e'.id = e.id := by
  unfold Env.id
  rw [h.lastId]
  by_cases hfree : e.status = .free
  · rw [if_pos hfree, if_pos (h.free.2 hfree)]
  · rw [if_neg hfree, if_neg (mt h.free.1 hfree)]

namespace State

variable {M : Type}

/-- **Two states a CPU is not to tell apart**, with the slots it may write to. A link to a free slot in
one of them may be cut in the other, but not a link to a slot of these. -/
structure Pairing (M : Type) where
  cpu : Nat
  /-- The slots the CPU may write to. -/
  here : Slot → Prop
  /-- What becomes of a link to a free slot. -/
  cut : Option Slot → Option Slot
  left : State M
  right : State M
  place : right.queueOf cpu = left.queueOf cpu
  there : ∀ s, ¬ here s → (left.env s).Resembles (right.env s)
  cut_none : cut none = none
  cut_some : ∀ s, here s → cut (some s) = some s

/-- **States the CPU does not tell apart**, once it has done something in both of the pairing. They agree
in memory, in the CPU's run queue and in the slots it may write to, and the same was said; of all
else, either is as it was. -/
structure Pairing.Holds (p : Pairing M) (k l : State M) : Prop where
  policy_left : k.policy = p.left.policy
  policy_right : l.policy = p.right.policy
  queue : ∃ current head,
    k.queue (p.left.queueOf p.cpu) =
        { p.left.queue (p.left.queueOf p.cpu) with current := current, freeHead := head } ∧
      l.queue (p.left.queueOf p.cpu) =
        { p.right.queue (p.left.queueOf p.cpu) with current := current, freeHead := p.cut head }
  queues : ∀ c, c ≠ p.left.queueOf p.cpu → k.queue c = p.left.queue c ∧ l.queue c = p.right.queue c
  here : ∀ s, p.here s → l.env s = (k.env s).relinked p.cut
  there : ∀ s, ¬ p.here s → k.env s = p.left.env s ∧ l.env s = p.right.env s
  memory : l.memory = k.memory
  said : ∃ said, k.journal = p.left.journal ++ said ∧ l.journal = p.right.journal ++ said

/-- Giving a slot of a CPU back, step by step. -/
theorem free_eq [Memory M] {k : State M} {s : Slot} {cpu : Nat} (hcpu : (k.env s).cpu.val = cpu) :
    k.free s =
      (({ k.say .debug Log.Target.table ("free env " ++ EnvId.textOrZero (k.env s).lastId) with
          memory := Memory.destroySpace (k.env s).pgdir k.memory } : State M).setEnv s
        ((k.env s).vacated (k.runQueue cpu).freeHead)).setQueue (k.queueOf cpu)
        { k.runQueue cpu with
          current :=
            if (k.runQueue cpu).current = some s then none else (k.runQueue cpu).current,
          freeHead := some s } := by
  subst hcpu
  rfl

namespace Pairing.Holds

variable {p : Pairing M} {k l : State M} {s : Slot} (h : p.Holds k l)

include h

theorem queueOf_left : k.queueOf p.cpu = p.left.queueOf p.cpu := by
  simp only [queueOf, h.policy_left]

theorem queueOf_right : l.queueOf p.cpu = p.left.queueOf p.cpu := by
  rw [← p.place]
  simp only [queueOf, h.policy_right]

theorem runQueue : ∃ current head,
    k.runQueue p.cpu =
        { p.left.queue (p.left.queueOf p.cpu) with current := current, freeHead := head } ∧
      l.runQueue p.cpu =
        { p.right.queue (p.left.queueOf p.cpu) with current := current, freeHead := p.cut head } := by
  unfold State.runQueue
  rw [h.queueOf_left, h.queueOf_right]
  exact h.queue

theorem current : l.current p.cpu = k.current p.cpu := by
  obtain ⟨current, head, hk, hl⟩ := h.runQueue
  unfold State.current
  rw [hk, hl]

theorem freeHead : (l.runQueue p.cpu).freeHead = p.cut (k.runQueue p.cpu).freeHead := by
  obtain ⟨current, head, hk, hl⟩ := h.runQueue
  rw [hk, hl]

/-- Of every slot they agree in what a call can read. -/
theorem resembles (s : Slot) : (k.env s).Resembles (l.env s) := by
  by_cases hs : p.here s
  · rw [h.here s hs]
    exact Env.resembles_relinked p.cut _
  · rw [(h.there s hs).1, (h.there s hs).2]
    exact p.there s hs

theorem currentId : l.currentId p.cpu = k.currentId p.cpu := by
  unfold State.currentId
  rw [h.current]
  cases k.current p.cpu with
  | none => rfl
  | some s => exact (h.resembles s).id

theorem reaches (caller : EnvId) :
    ∀ (n : Nat) (id : EnvId), l.reaches caller n id = k.reaches caller n id := by
  intro n
  induction n with
  | zero => intro id; rfl
  | succ n ih =>
    intro id
    simp only [State.reaches, (h.resembles id.slot).id, (h.resembles id.slot).parent]
    cases (k.env id.slot).parent with
    | none => rfl
    | some parent => simp only [ih parent]

/-- **A word names the same slot in both.** -/
theorem resolve (raw : UInt32) (check : Bool) :
    l.resolve p.cpu raw check = k.resolve p.cpu raw check := by
  unfold State.resolve
  cases EnvId.ofRaw? raw with
  | none => simp only [h.current]
  | some id =>
    have hd : l.isSelfOrDescendant p.cpu id = k.isSelfOrDescendant p.cpu id := by
      unfold isSelfOrDescendant
      rw [h.currentId]
      cases k.currentId p.cpu with
      | none => rfl
      | some caller => exact h.reaches caller _ id
    have hslot := h.resembles id.slot
    simp only [hslot.free, hslot.dying, hslot.lastId, hd]

/-- A run queue that was the same is the same, if no link is cut. -/
theorem queue_eq {q : CpuIndex} (hq : p.right.queue q = p.left.queue q) (hcut : ∀ t, p.cut t = t) :
    l.queue q = k.queue q := by
  by_cases hown : q = p.left.queueOf p.cpu
  · obtain ⟨current, head, hk, hl⟩ := h.queue
    rw [← hown] at hk hl
    rw [hk, hl, hq, hcut]
  · obtain ⟨hk, hl⟩ := h.queues q hown
    rw [hk, hl, hq]

theorem journal_eq (hjournal : p.right.journal = p.left.journal) : l.journal = k.journal := by
  obtain ⟨said, hk, hl⟩ := h.said
  rw [hk, hl, hjournal]

/-! ### What keeps them together -/

theorem say (level : Log.Level) (target message : String) :
    p.Holds (k.say level target message) (l.say level target message) := by
  obtain ⟨said, hk, hl⟩ := h.said
  let more : List Log.Record := [{ level, target, message }]
  have hkeep : k.journal ++ more = p.left.journal ++ (said ++ more) ∧
      l.journal ++ more = p.right.journal ++ (said ++ more) := by
    rw [hk, hl, List.append_assoc, List.append_assoc]
    exact ⟨rfl, rfl⟩
  exact { h with said := ⟨said ++ more, hkeep⟩ }

theorem setMemory (mem : M) : p.Holds { k with memory := mem } { l with memory := mem } :=
  { h with memory := rfl }

theorem setEnv (hs : p.here s) {e e' : Env} (he : e' = e.relinked p.cut) :
    p.Holds (k.setEnv s e) (l.setEnv s e') := by
  refine { h with here := fun t ht => ?_, there := fun t ht => ?_ }
  · rw [env_setEnv, env_setEnv]
    split
    · exact he
    · exact h.here t ht
  · have hne : t ≠ s := by
      rintro rfl
      exact ht hs
    rw [env_setEnv_ne _ _ hne, env_setEnv_ne _ _ hne]
    exact h.there t ht

/-- A slot is changed, and it does not matter where its link leads. -/
theorem mapEnv (hs : p.here s) {f : Env → Env}
    (hf : f ((k.env s).relinked p.cut) = (f (k.env s)).relinked p.cut) :
    p.Holds (k.mapEnv s f) (l.mapEnv s f) := by
  refine h.setEnv hs ?_
  rw [h.here s hs, hf]

theorem setQueue {current current' head head' : Option Slot} (hcurrent : current' = current)
    (hhead : head' = p.cut head) :
    p.Holds
      (k.setQueue (k.queueOf p.cpu)
        { k.runQueue p.cpu with current := current, freeHead := head })
      (l.setQueue (l.queueOf p.cpu)
        { l.runQueue p.cpu with current := current', freeHead := head' }) := by
  obtain ⟨_, _, hk, hl⟩ := h.runQueue
  rw [hk, hl, h.queueOf_left, h.queueOf_right, hcurrent, hhead]
  refine { h with queue := ⟨current, head, ?_, ?_⟩, queues := fun c hc => ?_ }
  · rw [queue_setQueue_self]
  · rw [queue_setQueue_self]
  · rw [queue_setQueue_ne _ _ hc, queue_setQueue_ne _ _ hc]
    exact h.queues c hc

/-! ### What a call does to a slot -/

theorem save (hs : p.here s) (tf : TrapFrame) : p.Holds (k.save s tf) (l.save s tf) :=
  h.mapEnv hs (f := fun e => { e with frame := tf }) rfl

theorem setResult (hs : p.here s) (w : UInt32) : p.Holds (k.setResult s w) (l.setResult s w) :=
  h.mapEnv hs rfl

theorem conclude (hs : p.here s) (c : Completion) : p.Holds (k.conclude s c) (l.conclude s c) := by
  cases c with
  | value v => exact h.setResult hs _
  | yielded => exact h.setResult hs _
  | exited => exact h

theorem launch (hs : p.here s) (entry : Nat) : p.Holds (k.launch s entry) (l.launch s entry) :=
  h.mapEnv hs rfl

/-- **The same slot is taken**, and what was behind it comes next. -/
theorem occupy (hs : p.here s) (parent : Option EnvId) (dir : PageDir) (mem : M) :
    p.Holds (k.occupy p.cpu s parent dir mem) (l.occupy p.cpu s parent dir mem) := by
  have hl : l.env s = (k.env s).relinked p.cut := h.here s hs
  have hnew : occupied (l.env s) s parent dir =
      (occupied (k.env s) s parent dir).relinked p.cut := by
    rw [hl]
    simp only [occupied, Env.relinked, p.cut_none]
  have hset := (h.setMemory mem).setEnv hs hnew
  unfold State.occupy
  rw [hl] at hset ⊢
  exact say (hset.setQueue h.current rfl) _ _ _

variable [Memory M]

/-- **The same slot is given back**, if it is one of the CPU's own. -/
theorem free (hs : p.here s) (hcpu : (k.env s).cpu.val = p.cpu) :
    p.Holds (k.free s) (l.free s) := by
  have hl : l.env s = (k.env s).relinked p.cut := h.here s hs
  have hcpu' : (l.env s).cpu.val = p.cpu := by
    rw [hl]
    exact hcpu
  have hcurrent : (if (l.runQueue p.cpu).current = some s then none else (l.runQueue p.cpu).current) =
      if (k.runQueue p.cpu).current = some s then none else (k.runQueue p.cpu).current := by
    rw [show (l.runQueue p.cpu).current = (k.runQueue p.cpu).current from h.current]
  have hnew : (l.env s).vacated (l.runQueue p.cpu).freeHead =
      ((k.env s).vacated (k.runQueue p.cpu).freeHead).relinked p.cut := by
    rw [hl, h.freeHead]
    rfl
  have hsaid := h.say .debug Log.Target.table ("free env " ++ EnvId.textOrZero (k.env s).lastId)
  have hset := (hsaid.setMemory (Memory.destroySpace (k.env s).pgdir k.memory)).setEnv hs hnew
  rw [free_eq hcpu, free_eq hcpu', h.memory]
  rw [hl] at hset ⊢
  exact hset.setQueue hcurrent (p.cut_some s hs).symm

end Pairing.Holds

end State

end Exokernel
