import Mathlib.Data.List.Find
import Exokernel.Kernel.View
import Exokernel.Proofs.Accord
import Exokernel.Proofs.Entries
import Exokernel.Proofs.Refusals
import Exokernel.Proofs.Rounds
/-!
# One CPU under either policy

For a single CPU the policies differ in how much of the table it has: all of it, or the first slice.
Two tables that were set up so go on alike (`InStep`) until the slice has no free slot left. The same
slots are taken, for what is free in the slice hangs on both lists in the same order; the list of the
whole table only goes on behind it. And the same environments are scheduled, for the round over the
whole table meets nothing behind the slice that waits for the CPU.
-/

namespace Exokernel

/-- What follows a request that is met goes on where that left off. -/
theorem Request.bind_of_ok {M α β : Type} {r : Request M α} {f : α → Request M β} {k k' : State M}
    {a : α} (h : r k = .ok (a, k')) : (r >>= f) k = f a k' :=
  congrArg (fun x : Except Fault (α × State M) => x >>= fun p => f p.1 p.2) h

/-! ## Errands -/

/-- What the only CPU has the kernel do. -/
inductive Errand where
  | alloc (parent : Option EnvId)
  | create (image : Image)
  | destroy (s : Slot)
  | reap
  | resolve (raw : UInt32) (check : Bool)
  | receive (dstva : Nat)
  | send (target value : UInt32) (srcva : Nat) (perm : UInt32)
  | syscall (tf : TrapFrame)
  | schedule
  | resume

/-- What the kernel answers. -/
inductive Errand.Report where
  | slot (r : Except KernelError Slot)
  | id (r : Except KernelError EnvId)
  | disposal (d : Disposal)
  | reaped (b : Bool)
  | done (r : Except KernelError Unit)
  | next (n : Next)
  | scheduled (r : Except NothingRunnable Dispatch)
  | resumed (d : Option Dispatch)

namespace Errand

variable {M : Type} [Memory M]

/-- The errand as a request of CPU 0. -/
def request : Errand → Request M Report
  | alloc parent => .slot <$> Request.alloc parent 0
  | create image => .id <$> Request.create image 0
  | destroy s => .disposal <$> Request.destroy 0 s
  | reap => .reaped <$> Request.reap 0
  | resolve raw check => .slot <$> Request.resolve 0 raw check
  | receive dstva => .done <$> Request.ipcRecv 0 dstva
  | send target value srcva perm => .done <$> Request.ipcTrySend 0 target value srcva perm
  | syscall tf => .next <$> Request.syscall 0 tf
  | schedule => .scheduled <$> Request.scheduleNext 0
  | resume => .resumed <$> Request.resume 0

/-- The table is set up for one CPU, and the errands follow one after the other. -/
def runAll (policy : Policy) (es : List Errand) : Request M (List Report) := do
  let _ ← Request.init policy 1
  es.mapM request

omit [Memory M] in
/-- What is to be destroyed is there. -/
def Proper (k : State M) : Errand → Prop
  | destroy s => (k.env s).status ≠ .free
  | _ => True

/-- The errand is refused for want of a free slot. A call for a child tells its caller so. -/
def Refused (k : State M) : Errand → Prop
  | alloc parent => ((State.alloc parent 0).run k).1 = .error .noFreeSlot
  | create image => ((State.create image 0).run k).1 = .error .noFreeSlot
  | syscall tf => tf.eax = Call.exofork.number ∧ k.answer 0 tf = some (.error .noFreeSlot)
  | _ => False

instance (k : State M) : DecidablePred fun e : Errand => e.Proper k
  | destroy _ => inferInstanceAs (Decidable (_ ≠ _))
  | alloc _ | create _ | reap | resolve _ _ | receive _ | send _ _ _ _ | syscall _ | schedule
  | resume => .isTrue trivial

instance (k : State M) : DecidablePred fun e : Errand => e.Refused k
  | alloc _ | create _ => inferInstanceAs (Decidable (_ = _))
  | syscall _ => inferInstanceAs (Decidable (_ ∧ _))
  | destroy _ | reap | resolve _ _ | receive _ | send _ _ _ _ | schedule | resume => .isFalse id

/-- **There is a slot for whoever asks for one**, and what is to be destroyed is there, each time it is
the turn of an errand. -/
def Supplied (k : State M) : List Errand → Prop
  | [] => True
  | e :: es => e.Proper k ∧ ¬ e.Refused k ∧
    match e.request k with
    | .ok (_, k') => Supplied k' es
    | .error _ => True

instance decidableSupplied : (k : State M) → (es : List Errand) → Decidable (Supplied k es)
  | _, [] => .isTrue trivial
  | k, e :: es =>
    have : Decidable (match e.request k with
        | .ok (_, k') => Supplied k' es
        | .error _ => True) :=
      match e.request k with
      | .ok (_, k') => decidableSupplied k' es
      | .error _ => .isTrue trivial
    inferInstanceAs (Decidable (_ ∧ _ ∧ _))

end Errand

namespace State

variable {M : Type} {k l : State M} {policy : Policy} {ncpu : Nat} {m₀ : M} {s : Slot}

/-! ## Links of occupied slots -/

/-- **What is occupied hangs on no list.** -/
def Unlinked (k : State M) : Prop := ∀ s, (k.env s).status ≠ .free → (k.env s).nextFree = none

namespace Unlinked

variable {k' : State M}

theorem stays (h : Unlinked k) (he : ∀ s, Env.Stays (k.env s) (k'.env s)) : Unlinked k' := by
  intro s hs
  rw [(he s).nextFree]
  exact h s (mt (he s).free.2 hs)

theorem setEnv (h : Unlinked k) {e : Env} (he : Env.Stays (k.env s) e) : Unlinked (k.setEnv s e) :=
  h.stays (stays_setEnv k he)

theorem occupy (h : Unlinked k) (cpu : Nat) (s : Slot) (parent : Option EnvId) (dir : PageDir)
    (mem : M) : Unlinked (k.occupy cpu s parent dir mem) := by
  intro t ht
  rw [env_occupy] at ht ⊢
  split
  · rfl
  · next hne => exact h t (by rwa [if_neg hne] at ht)

variable [Memory M]

theorem free (h : Unlinked k) (s : Slot) : Unlinked (k.free s) := by
  intro t ht
  rw [env_free] at ht ⊢
  by_cases hts : t = s
  · rw [if_pos hts] at ht
    exact absurd rfl ht
  · rw [if_neg hts] at ht ⊢
    exact h t ht

theorem destroy (h : Unlinked k) (cpu : Nat) (hs : (k.env s).status ≠ .free) :
    Unlinked (k.destroy cpu s).2 := by
  rcases destroy_cases k cpu s with ⟨-, hk⟩ | ⟨-, hk⟩
  · rw [hk]
    exact h.setEnv (Env.Alike.of_occupied hs .dying nofun nofun _ _).toStays
  · rw [hk]
    exact h.free s

theorem move {cpu : Nat} (h : Unlinked k) (hsound : Sound policy ncpu k) (hcpu : cpu < ncpu)
    (hk : Move cpu k k') : Unlinked k' := by
  cases hk with
  | change hk =>
    cases hk with
    | speak => exact h
    | touch => exact h
    | amend he => exact h.setEnv (hsound.alike_of_amends hcpu he).toStays
    | fork => exact (h.occupy _ _ _ _ _).setEnv (Env.Alike.of_registers _ _ _).toStays
  | destroy hs => exact h.destroy cpu (hsound.governs_ne_free hcpu hs)
  | hush | refuse | load | spoil => exact h
  | occupy => exact h.occupy _ _ _ _ _
  | launch _ _ hs => exact h.setEnv (Env.Alike.of_occupied hs .runnable nofun nofun _ _).toStays
  | drop => exact h.free _
  | run _ hrun => exact h.stays (stays_running k cpu (Status.ne_free_of_canRun hrun))

theorem effects (h : Unlinked k) (hsound : Sound policy ncpu k) (hk : Effects ncpu k k') :
    Unlinked k' := by
  induction hk with
  | refl => exact h
  | tail hpast hlast ih =>
    have hbefore := hsound.effects hpast
    cases hlast with
    | move hcpu hk => exact ih.move hbefore hcpu hk
    | deliver hcpu hk => exact ih.stays fun s => (hbefore.alike_of_delivery hcpu hk s).toStays
    | alloc => exact ih.occupy _ _ _ _ _
    | free => exact ih.free _
    | destroy hs => exact ih.destroy _ hs

end Unlinked

/-! ## The two tables -/

/-- The only CPU has the first run queue. -/
theorem Sound.runQueue_first (h : Sound policy 1 k) : k.runQueue 0 = k.queue 0 := by
  have hplace : k.queueOf 0 = 0 := h.queueOf_self (c := 0) Nat.one_pos
  rw [State.runQueue, hplace]

/-- The table once it is set up for one CPU. -/
def setUp (policy : Policy) (m₀ : M) : State M :=
  ((fresh m₀).divide policy 1).say .info Log.Target.table
    ("sched: " ++ policy.name ++ " policy over " ++ toString 1 ++ " cpu(s)")

theorem init_one (policy : Policy) (m₀ : M) : (fresh m₀).init policy 1 = .ok (setUp policy m₀) := by
  cases policy <;> rfl

theorem request_init_one (policy : Policy) (m₀ : M) :
    Request.init policy 1 (fresh m₀) = .ok (policy, setUp policy m₀) := by
  unfold Request.init
  rw [init_one]
  rfl

theorem sound_setUp (policy : Policy) (m₀ : M) : Sound policy 1 (setUp policy m₀) :=
  (sound_divide ⟨Nat.le_refl 1, by decide, fun _ => rfl⟩).say _ _ _

theorem unlinked_setUp (policy : Policy) (m₀ : M) : Unlinked (setUp policy m₀) := fun s hs =>
  absurd (status_divide policy 1 m₀ s) hs

theorem queue_setUp (policy : Policy) (m₀ : M) :
    (setUp policy m₀).queue 0 = RunQueue.forCpu policy 0 :=
  (queue_divide (fresh m₀) 0).trans (if_pos Nat.one_pos)

/-- Each slot of the one queue has a link to the next. -/
theorem env_setUp_global (m₀ : M) (s : Slot) : (setUp .global m₀).env s =
    { cpu := 0, nextFree := if h : s.val + 1 < slotCount then some ⟨s.val + 1, h⟩ else none } := by
  have hin : ∀ t, (RunQueue.forCpu .global ⟨0, cpuLimit_pos⟩).contains t := fun t =>
    RunQueue.contains_iff.2 ⟨Nat.zero_le _, (Nat.zero_add slotCount).symm ▸ t.isLt⟩
  rw [setUp, env_say, env_divide]
  simp only [ownerUnder, blankEnv]
  split
  · rw [if_pos (hin _)]
    rfl
  · rfl

/-- So has each slot of the first CPU's slice, up to the end of the slice. -/
theorem env_setUp_perCpu (m₀ : M) (s : Slot) : (setUp .perCpu m₀).env s =
    { cpu := 0,
      nextFree :=
        if h : s.val + 1 < sliceSize then some ⟨s.val + 1, Nat.lt_trans h (by decide)⟩
        else none } := by
  rw [setUp, env_say, env_divide]
  simp only [ownerUnder, Nat.lt_one_iff, Nat.div_eq_zero_iff]
  by_cases hs : s.val < sliceSize
  · have hcpu : (⟨s.val / sliceSize, slice_lt s⟩ : CpuIndex) = 0 :=
      Fin.ext (Nat.div_eq_of_lt hs)
    have hin : ∀ t, (RunQueue.forCpu .perCpu 0).contains t ↔ t.val < sliceSize := fun t => by
      simp [RunQueue.contains_iff, RunQueue.forCpu]
    have hlt : s.val + 1 < slotCount := Nat.lt_of_le_of_lt hs (by decide)
    rw [if_pos (.inr hs), hcpu]
    simp only [blankEnv, hin, hlt, dif_pos]
    rfl
  · rw [if_neg (by simpa [sliceSize] using hs), env_fresh, dif_neg (by omega)]
    rfl

/-- The link, if it stays in the first slice. -/
def withinSlice (t : Option Slot) : Option Slot := t.filter fun s => s.val < sliceSize

theorem withinSlice_some (s : Slot) :
    withinSlice (some s) = if s.val < sliceSize then some s else none := by
  simp only [withinSlice, Option.filter_some, decide_eq_true_eq]

/-- **The whole table and the first slice of it**, with one CPU. Links that lead out of the slice are
cut. -/
def tables (m₀ : M) : Pairing M where
  cpu := 0
  here s := s.val < sliceSize
  cut := withinSlice
  left := setUp .global m₀
  right := setUp .perCpu m₀
  place := rfl
  there s _ := by
    rw [env_setUp_global, env_setUp_perCpu]
    exact ⟨rfl, rfl, .rfl, .rfl, rfl, rfl⟩
  cut_none := rfl
  cut_some s hs := (withinSlice_some s).trans (if_pos hs)

theorem holds_tables (m₀ : M) : (tables m₀).Holds (setUp .global m₀) (setUp .perCpu m₀) where
  policy_left := rfl
  policy_right := rfl
  queue := by
    have hplace : (tables m₀).left.queueOf (tables m₀).cpu = 0 := rfl
    have hleft : (tables m₀).left.queue 0 = RunQueue.forCpu .global 0 := queue_setUp .global m₀
    have hright : (tables m₀).right.queue 0 = RunQueue.forCpu .perCpu 0 := queue_setUp .perCpu m₀
    rw [hplace, hleft, hright]
    exact ⟨none, some 0, hleft, hright⟩
  queues _ _ := ⟨rfl, rfl⟩
  here s hs := by
    have hs : s.val < sliceSize := hs
    have hlt : s.val + 1 < slotCount := Nat.lt_of_le_of_lt hs (by decide)
    have hcut : (tables m₀).cut = withinSlice := rfl
    rw [env_setUp_global, env_setUp_perCpu, dif_pos hlt, Env.relinked, hcut, withinSlice_some]
    by_cases hnext : s.val + 1 < sliceSize
    · rw [dif_pos hnext, if_pos hnext]
    · rw [dif_neg hnext, if_neg hnext]
  there _ _ := ⟨rfl, rfl⟩
  memory := rfl
  said := ⟨[], (List.append_nil _).symm, (List.append_nil _).symm⟩

/-- **The two tables after the same errands.** -/
structure InStep (m₀ : M) (k l : State M) : Prop where
  holds : (tables m₀).Holds k l
  whole : Sound .global 1 k
  sliced : Sound .perCpu 1 l
  unlinked : Unlinked k

theorem inStep_setUp (m₀ : M) : InStep m₀ (setUp .global m₀) (setUp .perCpu m₀) :=
  ⟨holds_tables m₀, sound_setUp .global m₀, sound_setUp .perCpu m₀, unlinked_setUp .global m₀⟩

namespace InStep

variable (h : InStep m₀ k l)

include h

/-- Environments are in the slice only. -/
theorem lt_of_ne_free (hs : (k.env s).status ≠ .free) : s.val < sliceSize := by
  by_contra hge
  have hstray : ownerUnder .perCpu 1 s = none :=
    if_neg fun hlt => hge ((Nat.div_lt_one_iff (by decide)).1 hlt)
  exact hs ((h.holds.resembles s).free.1 (h.sliced.stray s hstray))

/-- In the slice, only links are different. -/
theorem env_eq (hs : s.val < sliceSize) : l.env s = (k.env s).relinked withinSlice :=
  h.holds.here s hs

/-- Environments are the same. -/
theorem env_eq_of_ne_free (hs : (k.env s).status ≠ .free) : l.env s = k.env s := by
  have hnone : (k.env s).nextFree = none := h.unlinked s hs
  rw [h.env_eq (h.lt_of_ne_free hs), Env.relinked, hnone]
  change { k.env s with nextFree := none } = k.env s
  rw [← hnone]

theorem status_eq (s : Slot) : (l.env s).status = (k.env s).status := by
  by_cases hs : (k.env s).status = .free
  · rw [hs, (h.holds.resembles s).free.2 hs]
  · rw [h.env_eq_of_ne_free hs]

/-- The tables show the same. -/
theorem view_eq : l.view = k.view := by
  refine Vector.ext fun n hn => ?_
  rw [view, view, Vector.getElem_map, Vector.getElem_map]
  change (l.env ⟨n, hn⟩).view = (k.env ⟨n, hn⟩).view
  by_cases hs : (k.env ⟨n, hn⟩).status = .free
  · rw [Env.view, Env.view, if_pos hs, if_pos ((h.status_eq _).trans hs)]
  · rw [h.env_eq_of_ne_free hs]

/-- Every slot is the CPU's. -/
theorem cpu_eq (s : Slot) : (k.env s).cpu.val = 0 := by
  rw [h.whole.owner 0 s rfl]
  rfl

theorem governs : (tables m₀).Governs k := fun s hs =>
  ⟨h.lt_of_ne_free (h.whole.governs_ne_free Nat.one_pos hs), h.cpu_eq s⟩

/-- As long as the slice has a free slot, that is the first one of the whole table too. -/
theorem room (hfree : (l.runQueue 0).freeHead ≠ none) : (tables m₀).Room k := by
  intro s hs
  refine ⟨?_, h.cpu_eq s⟩
  by_contra hge
  refine hfree (h.holds.freeHead.trans ?_)
  rw [hs]
  exact (withinSlice_some s).trans (if_neg hge)

/-! ### Scheduling -/

/-- Both slices start at the first slot, and one is shorter. -/
theorem start_eq : (l.runQueue 0).start = (k.runQueue 0).start := by
  rw [h.whole.runQueue_first, h.sliced.runQueue_first, h.whole.start_eq 0 Nat.one_pos,
    h.sliced.start_eq 0 Nat.one_pos]
  rfl

theorem len_le : (l.runQueue 0).len ≤ (k.runQueue 0).len := by
  rw [h.whole.runQueue_first, h.sliced.runQueue_first, h.whole.len_eq 0 Nat.one_pos,
    h.sliced.len_eq 0 Nat.one_pos]
  decide

theorem lastSlot_eq : l.lastSlot 0 = k.lastSlot 0 := by
  have hcurrent : (l.runQueue 0).current = (k.runQueue 0).current := h.holds.current
  unfold lastSlot RunQueue.idle
  rw [hcurrent, h.start_eq]

/-- Nobody waits behind the slice. -/
theorem waits_iff (t : Slot) : (l.runQueue 0).contains t ∧ l.Waits 0 t ↔ k.Waits 0 t := by
  unfold Waits RunQueue.idle
  rw [h.status_eq, h.start_eq]
  refine ⟨And.right, fun hwaits => ⟨?_, hwaits⟩⟩
  have hlt : t.val < sliceSize := h.lt_of_ne_free (by rw [hwaits.2]; exact nofun)
  rw [h.sliced.runQueue_first, h.sliced.contains_iff Nat.one_pos]
  exact (h.sliced.division.owns_iff Nat.one_pos).2 (.inr (Nat.div_eq_of_lt hlt))

/-- **The same is picked.** -/
theorem select_eq : l.select 0 = k.select 0 := by
  have hlast := h.sliced.contains_lastSlot Nat.one_pos
  have hround : ((l.runQueue 0).round (l.runQueue 0).len (l.lastSlot 0)).find? (l.Waits 0) =
      ((k.runQueue 0).round (k.runQueue 0).len (k.lastSlot 0)).find? (k.Waits 0) := by
    rw [← RunQueue.filter_round h.start_eq h.len_le hlast, h.lastSlot_eq, List.find?_filter]
    refine List.find?_congr fun t _ => ?_
    rw [decide_eq_decide, decide_eq_true_iff]
    exact h.waits_iff t
  have hidle : (l.runQueue 0).idle = (k.runQueue 0).idle := h.start_eq
  rw [h.sliced.select_eq Nat.one_pos, h.whole.select_eq Nat.one_pos, hround, h.lastSlot_eq, hidle]
  simp only [h.status_eq]

/-- The whole table is in the one queue. -/
theorem contains_whole (s : Slot) : (k.runQueue 0).contains s := by
  rw [h.whole.runQueue_first, h.whole.contains_iff Nat.one_pos]
  rfl

end InStep

/-! ## Requests in both tables -/

variable [Memory M]

/-- **A request is met alike** in both tables, with the same answer. -/
def Meets {α : Type} (m₀ : M) (r : Request M α) (k l : State M) : Prop :=
  ∃ a k' l', r k = .ok (a, k') ∧ r l = .ok (a, l') ∧ (tables m₀).Holds k' l' ∧
    Effects 1 k k' ∧ Effects 1 l l'

namespace Meets

variable {α β : Type} {r : Request M α}

theorem map (f : α → β) (h : Meets m₀ r k l) : Meets m₀ (f <$> r) k l := by
  obtain ⟨a, k', l', hk, hl, hrest⟩ := h
  refine ⟨f a, k', l', ?_, ?_, hrest⟩
  · exact congrArg (fun x => x >>= fun y => Except.ok (f y.1, y.2)) hk
  · exact congrArg (fun x => x >>= fun y => Except.ok (f y.1, y.2)) hl

theorem requires {p : State M → Prop} [DecidablePred p] (hk : p k) (hl : p l) (h : Meets m₀ r k l) :
    Meets m₀ (Request.requires p >>= fun _ => r) k l := by
  unfold Meets
  rw [Machine.requires_bind, Machine.requires_bind, if_pos hk, if_pos hl]
  exact h

theorem served (h : Meets m₀ r k l) : Meets m₀ (Request.served 0 >>= fun _ => r) k l :=
  h.requires (.inr cpuLimit_pos) (.inr cpuLimit_pos)

theorem ofOp {op : Op M α} (h : Alike op op k l fun _ => (tables m₀).Holds)
    (hk : Effects 1 k (op.run k).2) (hl : Effects 1 l (op.run l).2) :
    Meets m₀ (Request.ofOp op) k l := by
  obtain ⟨hresult, hholds⟩ := Op.run_of_alike h
  refine ⟨(op.run k).1, (op.run k).2, (op.run l).2, rfl, ?_, hholds, hk, hl⟩
  rw [← hresult]
  rfl

theorem ofState {f : State M → α × State M} (hresult : (f l).1 = (f k).1)
    (hholds : (tables m₀).Holds (f k).2 (f l).2) (hk : Effects 1 k (f k).2)
    (hl : Effects 1 l (f l).2) : Meets m₀ (Request.ofState f) k l := by
  refine ⟨(f k).1, (f k).2, (f l).2, rfl, ?_, hholds, hk, hl⟩
  rw [← hresult]
  rfl

theorem read {f : State M → α} (hresult : f l = f k) (hholds : (tables m₀).Holds k l) :
    Meets m₀ (Request.read f) k l :=
  ofState (f := fun k => (f k, k)) hresult hholds .refl .refl

end Meets

/-! ### Messages outside a system call -/

theorem effects_ipcRecv {cpu : Nat} (hcpu : cpu < ncpu) (k : State M) (dstva : Nat) :
    Effects ncpu k ((ipcRecv cpu dstva).run k).2 := by
  refine Op.of_ends (ends_ipcRecv.imp fun r k' h => ?_)
  cases r with
  | ok =>
    obtain ⟨-, s, hs, rfl⟩ := h
    exact .single (.move hcpu (.change (.amend (.listen dstva hs))))
  | error => exact h.proceeds.changes.moves.effects hcpu

theorem effects_ipcTrySend {cpu : Nat} (hcpu : cpu < ncpu) (k : State M) (target value : UInt32)
    (srcva : Nat) (perm : UInt32) :
    Effects ncpu k ((ipcTrySend cpu target value srcva perm).run k).2 := by
  refine Op.of_ends (ends_ipcTrySend.imp fun r k' h => ?_)
  cases r with
  | ok =>
    obtain ⟨receiver, hd⟩ := h
    exact .single (.deliver hcpu hd)
  | error => exact h.proceeds.changes.moves.effects hcpu

/-! ### Where no slot is free -/

section Full

variable {cpu : Nat} (hfree : (k.runQueue cpu).freeHead = none)

include hfree

theorem ends_alloc_of_none (parent : Option EnvId) :
    Ends (alloc parent cpu) k fun r k' => r = .error .noFreeSlot ∧ k' = k := by
  simp only [alloc, Ends.bind_iff, Ends.get_iff, hfree, Ends.throw_iff, and_self]

theorem ends_create_of_none (image : Image) :
    Ends (create image cpu) k fun r k' => r = .error .noFreeSlot ∧ k' = k := by
  refine Ends.bind_iff.2 ((ends_alloc_of_none hfree none).imp fun r k' hr => ?_)
  obtain ⟨rfl, rfl⟩ := hr
  exact ⟨rfl, rfl⟩

theorem ends_exofork_of_none (hc : k.current cpu = some s) :
    Ends (exofork cpu) k fun r k' => r = .error .noFreeSlot ∧ k' = k := by
  simp only [exofork, Ends.bind_iff, Ends.get_iff, hc, Op.ofOption, Ends.pure_iff]
  refine (ends_alloc_of_none hfree (k.env s).id).imp fun r k' hr => ?_
  obtain ⟨rfl, rfl⟩ := hr
  exact ⟨rfl, rfl⟩

end Full

/-- **Where no slot is free the call for a child is refused**, and the caller is told why. -/
theorem Sound.answer_of_no_slot {cpu : Nat} (h : Sound policy ncpu k) (hcpu : cpu < ncpu)
    {tf : TrapFrame} (hc : k.current cpu = some s) (hnumber : tf.eax = Call.exofork.number)
    (hfree : (k.runQueue cpu).freeHead = none) : k.answer cpu tf = some (.error .noFreeSlot) := by
  have hsaved : ((k.save s tf).runQueue cpu).freeHead = none := hfree
  have hcurrent : (k.save s tf).current cpu = some s := hc
  have hends : Ends (perform cpu .exofork tf.args) (k.save s tf) fun r k' =>
      r = .error .noFreeSlot ∧ k' = k.save s tf := by
    refine Ends.map_iff.2 ((ends_exofork_of_none hsaved hcurrent).imp fun r k' hr => ?_)
    obtain ⟨rfl, rfl⟩ := hr
    exact ⟨rfl, rfl⟩
  have hcall : performNumber cpu tf.eax tf.args (k.save s tf) =
      .error .noFreeSlot (k.save s tf) := by
    rw [hnumber, performNumber, Call.ofNumber?_number]
    cases hop : perform cpu .exofork tf.args (k.save s tf) with
    | ok c k' => cases (hends.of_ok hop).1
    | error e k' =>
      obtain ⟨he, rfl⟩ := hends.of_error hop
      cases he
      exact hop
  rw [answer_of_setResult hc (syscall_of_error hc hcall), decodeResult_encodeResult_toCallError]
  · rfl
  · rw [env_save, if_pos rfl]
    exact h.current_ne_free hcpu hc

/-! ### Each errand -/

namespace InStep

variable (h : InStep m₀ k l)

include h

theorem meets_still {α : Type} {r : Request M α} {a : α} (hk : r k = .ok (a, k))
    (hl : r l = .ok (a, l)) : Meets m₀ r k l :=
  ⟨a, k, l, hk, hl, h.holds, .refl, .refl⟩

/-- The same environment gets the CPU, with the same context. -/
theorem meets_ran {α : Type} {r : Request M α} {f : Dispatch → α}
    (hin : (l.runQueue 0).contains s) (hrun : (l.env s).status.canRun = true)
    (hk : r k = .ok (f (k.dispatchOf s), k.running 0 s))
    (hl : r l = .ok (f (l.dispatchOf s), l.running 0 s)) : Meets m₀ r k l := by
  have hrun' : (k.env s).status.canRun = true := by rwa [← h.status_eq]
  have hthere := Status.ne_free_of_canRun hrun'
  have hsee : l.dispatchOf s = k.dispatchOf s := by
    unfold dispatchOf
    rw [h.env_eq_of_ne_free hthere]
  rw [hsee] at hl
  refine ⟨_, _, _, hk, hl, h.holds.running h.governs (h.lt_of_ne_free hthere), ?_, ?_⟩
  · exact .single (.move Nat.one_pos (.run (h.contains_whole s) hrun'))
  · exact .single (.move Nat.one_pos (.run hin hrun))

/-- **Scheduling.** -/
theorem meets_schedule : Meets m₀ (Request.scheduleNext 0) k l := by
  obtain ⟨p, hl, hpicked⟩ :=
    select_of_contains fun s (hs : l.current 0 = some s) => h.sliced.contains_current Nat.one_pos hs
  have hk : k.select 0 = .ok p := h.select_eq.symm.trans hl
  refine .served ?_
  cases p with
  | error e =>
    refine h.meets_still (a := .error e) ?_ ?_
    · simp only [scheduleNext, hk, bind, Except.bind, pure, Except.pure]
    · simp only [scheduleNext, hl, bind, Except.bind, pure, Except.pure]
  | ok s =>
    obtain ⟨hin, hrun⟩ := hpicked s rfl
    refine h.meets_ran (f := .ok) hin hrun ?_ ?_
    · simp only [scheduleNext, hk, bind, Except.bind, dispatch_of_contains (h.contains_whole s), pure,
        Except.pure]
    · simp only [scheduleNext, hl, bind, Except.bind, dispatch_of_contains hin, pure, Except.pure]

/-- **Going on.** -/
theorem meets_resume : Meets m₀ (Request.resume 0) k l := by
  refine .served ?_
  rcases h.sliced.resume_cases Nat.one_pos with ⟨hl, hnot⟩ | ⟨s, hc, hst, hl⟩ <;>
    rcases h.whole.resume_cases Nat.one_pos with ⟨hk, hnot'⟩ | ⟨t, hc', hst', hk⟩
  · exact h.meets_still hk hl
  · exact absurd ((h.status_eq t).trans hst') (hnot t (h.holds.current.trans hc'))
  · exact absurd ((h.status_eq s).symm.trans hst) (hnot' s (h.holds.current.symm.trans hc))
  · obtain rfl : s = t := Option.some.inj (hc.symm.trans (h.holds.current.trans hc'))
    have hrun : (l.env s).status.canRun = true := by
      rw [hst]
      rfl
    exact h.meets_ran (f := some) (h.sliced.contains_current Nat.one_pos hc) hrun hk hl

theorem meets_syscall (tf : TrapFrame) (hgranted : ¬ (Errand.syscall tf).Refused l) :
    Meets m₀ (Request.syscall 0 tf) k l := by
  have hroom : ∀ s, k.current 0 = some s → tf.eax = Call.exofork.number → (tables m₀).Room k :=
    fun s hs hnumber => h.room fun hfree => hgranted
      ⟨hnumber, h.sliced.answer_of_no_slot Nat.one_pos (h.holds.current.trans hs) hnumber hfree⟩
  have hreceiver : ∀ sender receiver k', Sending k 0 tf sender receiver .resume k' →
      receiver.val < sliceSize := by
    intro sender receiver k' hsend
    exact h.lt_of_ne_free (h.whole.resolve_ne_free Nat.one_pos hsend.resolve_eq)
  obtain ⟨hnext, hholds⟩ := h.holds.syscall h.governs hroom hreceiver
  exact .served (.ofState hnext hholds (effects_syscall Nat.one_pos tf k)
    (effects_syscall Nat.one_pos tf l))

/-- **Every errand is met alike**, unless there is no slot for it. -/
theorem meets {e : Errand} (hproper : e.Proper l) (hgranted : ¬ e.Refused l) :
    Meets m₀ e.request k l := by
  have hone : 0 < 1 := Nat.one_pos
  cases e with
  | alloc parent =>
    have hroom := h.room fun hfree => hgranted (Op.ends_iff_run.1 (ends_alloc_of_none hfree parent)).1
    refine .map _ (.served (.ofOp ?_ ?_ ?_))
    · exact h.holds.alike_alloc hroom parent (fun _ _ _ hk' => hk') fun s dir mem hs =>
        h.holds.occupy (hroom s hs).1 parent dir mem
    · exact h.whole.effects_of_done (.alloc hone parent)
    · exact h.sliced.effects_of_done (.alloc hone parent)
  | create image =>
    have hroom := h.room fun hfree => hgranted (Op.ends_iff_run.1 (ends_create_of_none hfree image)).1
    refine .map _ (.served (.ofOp (h.holds.alike_create hroom image) ?_ ?_))
    · exact h.whole.effects_of_done (.create hone image)
    · exact h.sliced.effects_of_done (.create hone image)
  | destroy s =>
    have hthere : (k.env s).status ≠ .free := by rwa [← h.status_eq]
    obtain ⟨hdisposal, hholds⟩ := h.holds.destroy (h.lt_of_ne_free hthere) (h.cpu_eq s)
    have hslot : Request.slot (M := M) s.val = pure s := dif_pos s.isLt
    have hmeets : Meets m₀ (Request.ofState (State.destroy 0 s)) k l :=
      .ofState hdisposal hholds (h.whole.effects_of_done (.destroy hone hthere))
        (h.sliced.effects_of_done (.destroy hone hproper))
    refine .map _ ?_
    unfold Request.destroy
    rw [hslot, pure_bind]
    exact hmeets.requires (.inl (.inr cpuLimit_pos)) (.inl (.inr cpuLimit_pos))
  | reap =>
    obtain ⟨hreaped, hholds⟩ := h.holds.reap h.governs
    refine .map _ (.served (.ofState hreaped hholds ?_ ?_))
    · exact (h.whole.moves_reap hone).effects hone
    · exact (h.sliced.moves_reap hone).effects hone
  | resolve raw check =>
    refine .map _ (.requires (.inl (.inr cpuLimit_pos)) (.inl (.inr cpuLimit_pos)) ?_)
    exact .read (h.holds.resolve raw check) h.holds
  | receive dstva =>
    refine .map _ (.requires (.inl (.inr cpuLimit_pos)) (.inl (.inr cpuLimit_pos)) ?_)
    refine .ofOp (h.holds.alike_ipcRecv h.governs dstva) ?_ ?_
    · exact effects_ipcRecv hone k dstva
    · exact effects_ipcRecv hone l dstva
  | send target value srcva perm =>
    refine .map _ (.served (.ofOp (h.holds.alike_ipcTrySend ?_) ?_ ?_))
    · exact fun receiver k' hd => h.lt_of_ne_free (h.whole.resolve_ne_free hone hd.resolve_eq)
    · exact effects_ipcTrySend hone k target value srcva perm
    · exact effects_ipcTrySend hone l target value srcva perm
  | syscall tf => exact .map _ (h.meets_syscall tf hgranted)
  | schedule => exact .map _ h.meets_schedule
  | resume => exact .map _ h.meets_resume

/-- **One errand keeps the tables in step.** -/
theorem step {e : Errand} (hproper : e.Proper l) (hgranted : ¬ e.Refused l) :
    ∃ report k' l', e.request k = .ok (report, k') ∧ e.request l = .ok (report, l') ∧
      InStep m₀ k' l' := by
  obtain ⟨report, k', l', hk, hl, hholds, heffects, heffects'⟩ := h.meets hproper hgranted
  exact ⟨report, k', l', hk, hl, hholds, h.whole.effects heffects, h.sliced.effects heffects',
    h.unlinked.effects h.whole heffects⟩

omit h in
/-- **So do errands one after the other**, as long as there is a slot for whoever asks for one. -/
theorem run {es : List Errand} (h : InStep m₀ k l) (hes : Errand.Supplied l es) :
    ∃ reports k' l', es.mapM Errand.request k = .ok (reports, k') ∧
      es.mapM Errand.request l = .ok (reports, l') ∧ InStep m₀ k' l' := by
  induction es generalizing k l with
  | nil => exact ⟨[], k, l, rfl, rfl, h⟩
  | cons e es ih =>
    obtain ⟨hproper, hgranted, hrest⟩ := hes
    obtain ⟨report, k₁, l₁, hk, hl, hstep⟩ := h.step hproper hgranted
    rw [hl] at hrest
    obtain ⟨reports, k', l', hk', hl', hend⟩ := ih hstep hrest
    refine ⟨report :: reports, k', l', ?_, ?_, hend⟩
    · rw [List.mapM_cons, Request.bind_of_ok hk, Request.bind_of_ok hk']
      rfl
    · rw [List.mapM_cons, Request.bind_of_ok hl, Request.bind_of_ok hl']
      rfl

end InStep

/-- **The policies agree on one CPU.** The table is set up for one CPU under either policy, on the same
memory, and then CPU 0 has the kernel do the same errands in both: make environments and destroy them,
look up identifiers, pass messages, make system calls, schedule and go on. As long as the slice of the
per-CPU policy has a slot for whoever asks for one, every errand is met in both with the same answer,
the same slots, identifiers, errors and contexts. In the end memory is the same, also one that keeps
count of how it is used; the tables show the same; and the slots of the slice are the same, but for the
link from a free one to the next, which one policy has where it leads out of the slice and the other
has not. -/
theorem policies_agree_on_one_cpu {l₀ : State M} (hinit : (fresh m₀).init .perCpu 1 = .ok l₀)
    {es : List Errand} (hes : Errand.Supplied l₀ es) :
    ∃ reports k l, Errand.runAll .global es (fresh m₀) = .ok (reports, k) ∧
      Errand.runAll .perCpu es (fresh m₀) = .ok (reports, l) ∧ l.memory = k.memory ∧
      (∀ s : Slot, s.val < sliceSize → l.env s = (k.env s).relinked withinSlice) ∧
      (∀ s, (k.env s).status ≠ .free → l.env s = k.env s) ∧ l.view = k.view := by
  obtain rfl : setUp .perCpu m₀ = l₀ := Except.ok.inj ((init_one .perCpu m₀).symm.trans hinit)
  obtain ⟨reports, k, l, hk, hl, hstep⟩ := (inStep_setUp m₀).run hes
  refine ⟨reports, k, l, ?_, ?_, hstep.holds.memory, fun s => hstep.env_eq,
    fun s => hstep.env_eq_of_ne_free, hstep.view_eq⟩
  · exact (Request.bind_of_ok (request_init_one .global m₀)).trans hk
  · exact (Request.bind_of_ok (request_init_one .perCpu m₀)).trans hl

/-- An environment has a child, sends it a message and destroys it, and another one takes its slot. -/
theorem policies_agree_on_one_cpu_family :
    ∃ (l₀ : State Frames) (es : List Errand), (fresh ({} : Frames)).init .perCpu 1 = .ok l₀ ∧
      Errand.Supplied l₀ es ∧ es.length = 11 ∧
      ∃ reports k l, Errand.runAll .global es (fresh ({} : Frames)) = .ok (reports, k) ∧
        Errand.runAll .perCpu es (fresh ({} : Frames)) = .ok (reports, l) ∧ l.memory = k.memory ∧
        l.view = k.view := by
  let call (number : UInt32) (a : Args) : Errand := .syscall (TrapFrame.user.calling number a)
  let es : List Errand :=
    [.create [0x7f], .schedule, call Call.exofork.number {},
      call Call.envSetStatus.number { first := 0x1001, second := 2 }, call Call.yieldCpu.number {},
      .schedule, .receive 0, .schedule, .send 0x1001 42 Layout.noPage 0, .destroy 1, .alloc none]
  have hinit := init_one .perCpu ({} : Frames)
  have hes : Errand.Supplied (setUp .perCpu ({} : Frames)) es := by decide +kernel
  obtain ⟨reports, k, l, hk, hl, hmemory, -, -, hview⟩ := policies_agree_on_one_cpu hinit hes
  exact ⟨_, es, hinit, hes, rfl, reports, k, l, hk, hl, hmemory, hview⟩

/-- The slots of the slice are not the same without that exception. Before any errand the last slot of
the slice has a link to the first one behind it where there is one list for the whole table, and none
where the list ends with the slice. -/
theorem links_differ_at_end_of_slice :
    ¬ ∀ es : List Errand, Errand.Supplied (setUp .perCpu ({} : Frames)) es →
      ∃ reports k l, Errand.runAll .global es (fresh ({} : Frames)) = .ok (reports, k) ∧
        Errand.runAll .perCpu es (fresh ({} : Frames)) = .ok (reports, l) ∧
        ∀ s : Slot, s.val < sliceSize → l.env s = k.env s := by
  intro hsame
  obtain ⟨reports, k, l, hk, hl, hslots⟩ := hsame [] trivial
  have hnone (policy : Policy) : Errand.runAll policy [] (fresh ({} : Frames)) =
      .ok ([], setUp policy ({} : Frames)) := Request.bind_of_ok (request_init_one policy _)
  obtain ⟨-, rfl⟩ := Prod.mk.inj (Except.ok.inj ((hnone .global).symm.trans hk))
  obtain ⟨-, rfl⟩ := Prod.mk.inj (Except.ok.inj ((hnone .perCpu).symm.trans hl))
  have hlast := congrArg Env.nextFree (hslots 63 (by decide))
  rw [env_setUp_perCpu, env_setUp_global] at hlast
  exact absurd hlast (by decide)

end State
end Exokernel
