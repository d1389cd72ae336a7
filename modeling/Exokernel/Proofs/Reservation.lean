import Exokernel.Proofs.Fairness
import Exokernel.Proofs.Filling
import Exokernel.Proofs.Origins
import Exokernel.Proofs.Waiting
/-!
# The idle slots

Nothing in the allocation of slots knows of idle environments. The first slot of a slice is kept for
one because the first environment made on a CPU is put there (`Past.seated_of_boots`) and because that
environment has no parent: it descends from nobody, so a call that destroys it is a call of its own
(`Sound.seated_of_step`). As long as it makes none the slot is never free again, and whatever is made
later is put in a slot that the scheduler's round looks at. It can make one, though, and the next
environment of its CPU is then put in a slot that the round passes over.
-/

namespace Exokernel

/-- Environments are made with a program, make calls, are scheduled and are reaped, and nothing is done
to them from outside. -/
def Action.isRoutine : Action → Bool
  | .create _ _ | .syscall _ _ | .schedule _ | .resume _ | .reap _ => true
  | .alloc _ _ | .free _ | .destroy _ _ => false

namespace Deed

variable {M : Type}

/-- The CPU the deed made an environment on. -/
def madeOn [Memory M] (d : Deed (State M) Action) : Option Nat :=
  match d.act with
  | .create image cpu => if ((State.create image cpu).run d.before).1.isOk then some cpu else none
  | _ => none

/-- The environment in a slot destroys itself. -/
def quits (d : Deed (State M) Action) (s : Slot) : Bool :=
  d.isCall .envDestroy fun cpu tf =>
    d.before.current cpu == some s &&
      (d.before.resolve cpu tf.args.first true).toOption == some s

end Deed

namespace State

variable {M : Type} {k k' : State M} {policy : Policy} {ncpu cpu : Nat} {m₀ : M} {s t : Slot}
  {c : CpuIndex} {a : Action} {tf : TrapFrame}

/-- The slot kept for the idle environment of a CPU. -/
def idleSlot (policy : Policy) (c : CpuIndex) : Slot := (RunQueue.forCpu policy c).idle

/-- One environment was made on each CPU, in any order, and nothing else was done. -/
def Boots [Memory M] (ncpu : Nat) (l : List (Deed (State M) Action)) : Prop :=
  (l.map Deed.madeOn).Perm ((List.range ncpu).map some)

instance [Memory M] (ncpu : Nat) (l : List (Deed (State M) Action)) : Decidable (Boots ncpu l) :=
  inferInstanceAs (Decidable (List.Perm _ _))

/-- Somebody is in the slot whom nobody made. -/
structure Seated (k : State M) (s : Slot) : Prop where
  there : (k.env s).status ≠ .free
  parent : (k.env s).parent = none

/-- Families stay in one slice, and nobody is marked to go. -/
structure Settled (policy : Policy) (ncpu : Nat) (k : State M) : Prop where
  sound : Sound policy ncpu k
  lineage : Lineage policy ncpu k
  undoomed : Undoomed k

/-! ## What stays settled -/

/-- **A CPU that is turned over** goes to a slot of its slice that can run, or nothing happens. -/
theorem Sound.runs_of_pass [Memory M] (h : Sound policy ncpu k) (hcpu : cpu < ncpu)
    (ha : a = .schedule cpu ∨ a = .resume cpu) (hk : a.perform k = .ok k') :
    k' = k ∨ ∃ t, (k.runQueue cpu).contains t ∧ (k.env t).status.canRun = true ∧
      k' = k.running cpu t := by
  rcases ha with rfl | rfl
  · have hperform : Prod.snd <$> k.scheduleNext cpu = .ok k' := hk
    rcases h.scheduleNext_cases hcpu with ⟨e, hpass⟩ | ⟨t, ht, hrun, hpass⟩
    · rw [hpass] at hperform
      cases hperform
      exact .inl rfl
    · rw [hpass] at hperform
      cases hperform
      exact .inr ⟨t, ht, hrun, rfl⟩
  · have hperform : Prod.snd <$> k.resume cpu = .ok k' := hk
    rcases h.resume_cases hcpu with ⟨hgo, -⟩ | ⟨t, ht, hrun, hgo⟩
    · rw [hgo] at hperform
      cases hperform
      exact .inl rfl
    · rw [hgo] at hperform
      cases hperform
      exact .inr ⟨t, h.contains_current hcpu ht, by rw [hrun]; rfl, rfl⟩

namespace Settled

theorem of_init (h : (fresh m₀).init policy ncpu = .ok k) : Settled policy ncpu k := by
  have hvacant := vacant_of_init h
  refine ⟨(filled_of_init h).sound, ⟨fun s id hid => ?_, fun s p hp => ?_⟩, fun s hs => ?_⟩
  · cases (hvacant s).2.1.symm.trans hid
  · cases (hvacant s).2.2.symm.trans hp
  · cases (hvacant s).1.symm.trans hs

variable [Memory M] (h : Settled policy ncpu k)

include h

theorem move (hcpu : cpu < ncpu) (hk : Move cpu k k') : Settled policy ncpu k' where
  sound := h.sound.move hcpu hk
  lineage := h.lineage.move h.sound hcpu hk
  undoomed := h.undoomed.move h.lineage h.sound hcpu hk

theorem moves (hcpu : cpu < ncpu) (hk : Moves cpu k k') : Settled policy ncpu k' := by
  induction hk with
  | refl => exact h
  | tail _ hk ih => exact ih.move hcpu hk

theorem delivery (hcpu : cpu < ncpu) {target value perm : UInt32} {srcva : Nat} {receiver : Slot}
    (hk : Delivery k cpu target value srcva perm receiver k') : Settled policy ncpu k' where
  sound := h.sound.delivery hcpu hk
  lineage := h.lineage.delivery h.sound hcpu hk
  undoomed := h.undoomed.delivery hk

theorem syscall (hcpu : cpu < ncpu) (tf : TrapFrame) :
    Settled policy ncpu (k.syscall cpu tf).2 := by
  rcases syscall_moves_or_sending cpu tf k with hk | ⟨s, receiver, hk⟩
  · exact h.moves hcpu hk
  · obtain ⟨k₁, hd, hk'⟩ := hk.ends
    have hsaved := h.move hcpu (.change (.amend (.save tf hk.current)))
    rw [hk']
    exact (hsaved.delivery hcpu hd).move hcpu
      (.change (.amend (.save _ ((hd.current cpu).trans hk.current))))

/-- **Nothing that CPUs do on their own** unsettles anything. -/
theorem step (ha : a.isRoutine = true) (hstep : Steps ncpu k a k') : Settled policy ncpu k' := by
  obtain ⟨hproper, hk'⟩ := hstep
  cases a with
  | alloc | free | destroy => cases ha
  | create image cpu =>
    cases hk'
    exact Op.of_ends ((h.sound.moves_create hproper).imp fun _ _ => h.moves hproper)
  | syscall cpu tf =>
    cases hk'
    exact h.syscall hproper tf
  | reap cpu =>
    cases hk'
    exact h.moves hproper (h.sound.moves_reap hproper)
  | schedule cpu =>
    rcases h.sound.runs_of_pass hproper (.inl rfl) hk' with rfl | ⟨t, ht, hrun, rfl⟩
    · exact h
    · exact h.move hproper (.run ht hrun)
  | resume cpu =>
    rcases h.sound.runs_of_pass hproper (.inr rfl) hk' with rfl | ⟨t, ht, hrun, rfl⟩
    · exact h
    · exact h.move hproper (.run ht hrun)

end Settled

/-! ## Who can be removed -/

theorem Seated.of_stays (h : Seated k s) (hk : Env.Stays (k.env s) (k'.env s)) : Seated k' s :=
  ⟨mt hk.free.1 h.there, hk.parent.trans h.parent⟩

/-- **Who has no parent is under nobody's authority** but its own. -/
theorem Seated.current_of_resolve (h : Seated k s) (hl : Lineage policy ncpu k) {raw : UInt32}
    (hraw : k.resolve cpu raw true = .ok s) : k.current cpu = some s := by
  rcases resolve_cases hraw with hcur | ⟨id, hslot, hid, -, hallowed⟩
  · exact hcur
  · obtain ⟨p, caller, hcur, hcaller, hreaches⟩ := isSelfOrDescendant_iff.1 (hallowed rfl)
    -- there is no parent link to follow, so the descendant is the caller
    have hself : id = caller := by
      refine Decidable.by_contra fun hne => ?_
      have hslots : slotCount = 511 + 1 := rfl
      rw [hslots, reaches, if_neg hne, hslot] at hreaches
      simp [hid, h.parent] at hreaches
    have hplace : p = s := by rw [← hl.slot_of_id hcaller, ← hself, hslot]
    rw [hcur, hplace]

variable [Memory M]

/-- Making an environment touches no slot that is taken. -/
theorem Sound.env_create (h : Sound policy ncpu k) (hcpu : cpu < ncpu) (image : Image)
    (hs : (k.env s).status ≠ .free) : ((State.create image cpu).run k).2.env s = k.env s := by
  have hne : ∀ {t : Slot}, (k.runQueue cpu).freeHead = some t → s ≠ t := by
    rintro t ht rfl
    exact hs (h.head (h.queueOf_lt hcpu) ht).2
  have htaken : ∀ {t : Slot} {dir : PageDir} {mem : M}, s ≠ t →
      (k.occupy cpu t none dir mem).env s = k.env s := fun hst => by rw [env_occupy, if_neg hst]
  refine Op.of_ends (P := fun k' => k'.env s = k.env s) ?_
  refine ends_create (fun _ => rfl) (fun e mem _ => rfl) (fun t dir mem e mem' ht _ _ => ?_)
    fun t dir mem entry mem' ht _ _ => ?_
  · rw [env_free, if_neg (hne ht)]
    exact htaken (hne ht)
  · rw [State.launch, env_mapEnv, if_neg (hne ht)]
    exact htaken (hne ht)

/-- **Whoever has no parent stays until it destroys itself.** -/
theorem Settled.seated_of_step (h : Settled policy ncpu k) (hseat : Seated k s)
    (ha : a.isRoutine = true) (hstep : Steps ncpu k a k')
    (hquits : (⟨k, a⟩ : Deed (State M) Action).quits s = false) : Seated k' s := by
  obtain ⟨hproper, hk'⟩ := hstep
  cases a with
  | alloc | free | destroy => cases ha
  | create image cpu =>
    cases hk'
    refine hseat.of_stays ?_
    rw [h.sound.env_create hproper image hseat.there]
    exact .refl _
  | syscall cpu tf =>
    cases hk'
    refine hseat.of_stays ?_
    rcases syscall_cases cpu tf k with hchanges | ⟨victim, hkill⟩ | ⟨p, receiver, hsend⟩
    · exact (Retains.changes h.sound hproper hchanges).2 hseat.there
    · refine Retains.destruction hkill ?_ hseat.there
      rintro rfl
      obtain ⟨p, -, -, -, hraw, -⟩ := hkill.ends
      have hraw : k.resolve cpu tf.args.first true = .ok s :=
        ((sameNames_frame k p tf).resolve cpu _ true).symm.trans hraw
      have hcur := hseat.current_of_resolve h.lineage hraw
      have : (⟨k, .syscall cpu tf⟩ : Deed (State M) Action).quits s = true :=
        Deed.isCall_iff.2 ⟨cpu, tf, rfl, hkill.number, by simp [hcur, hraw, Except.toOption]⟩
      cases hquits.symm.trans this
    · obtain ⟨k₁, hmessage, hk₁⟩ := hsend.ends
      have hsaved := h.move hproper (.change (.amend (.save tf hsend.current)))
      have hput : Retains s (k.save p tf) k₁ :=
        fun _ => (hsaved.sound.alike_of_delivery hproper hmessage s).toStays
      rw [hk₁]
      exact ((Retains.save k p tf).trans hput).trans (.save k₁ p _) hseat.there
  | reap cpu =>
    cases hk'
    unfold State.reap
    split
    · next t _ =>
      rw [if_neg (h.undoomed t)]
      exact hseat
    · exact hseat
  | schedule cpu =>
    rcases h.sound.runs_of_pass hproper (.inl rfl) hk' with rfl | ⟨t, -, hrun, rfl⟩
    · exact hseat
    · exact hseat.of_stays (stays_running k cpu (Status.ne_free_of_canRun hrun) s)
  | resume cpu =>
    rcases h.sound.runs_of_pass hproper (.inr rfl) hk' with rfl | ⟨t, -, hrun, rfl⟩
    · exact hseat
    · exact hseat.of_stays (stays_running k cpu (Status.ne_free_of_canRun hrun) s)

/-! ## Booting -/

/-- The environments that were made, and nothing else, fill the table. -/
theorem Past.exists_filled {l : List (Deed (State M) Action)} (h : Past policy ncpu m₀ l k)
    (hmade : ∀ d ∈ l, d.madeOn ≠ none) :
    ∃ f, Filled policy ncpu f k ∧ ∀ c : CpuIndex, some c.val ∈ l.map Deed.madeOn → share f c ≠ [] := by
  induction h with
  | start hinit => exact ⟨[], filled_of_init hinit, fun c hc => absurd hc List.not_mem_nil⟩
  | @step l k k' a hbefore hstep ih =>
    obtain ⟨hhere, hrest⟩ := List.forall_mem_cons.1 hmade
    obtain ⟨f, hfilled, hshares⟩ := ih hrest
    obtain ⟨hproper, hk'⟩ := hstep
    cases a with
    | alloc | free | destroy | reap | syscall | schedule | resume => exact absurd rfl hhere
    | create image cpu =>
      cases hk'
      have hqueue := hfilled.sound.queueOf_lt hproper
      have hends := Op.ends_iff_run.1 (hfilled.ends_create hqueue image)
      have hmadeOn : (⟨k, .create image cpu⟩ : Deed (State M) Action).madeOn = some cpu := by
        unfold Deed.madeOn at hhere ⊢
        dsimp only at hhere ⊢
        split
        · rfl
        · next hfailed => exact absurd (if_neg hfailed) hhere
      cases hr : ((State.create image cpu).run k).1 with
      | error e =>
        unfold Deed.madeOn at hmadeOn
        simp [hr, Except.isOk, Except.toBool] at hmadeOn
      | ok id =>
        rw [hr] at hends
        obtain ⟨p, mem, -, -, hfilled'⟩ := hends
        refine ⟨_, hfilled', fun c hc => ?_⟩
        rw [share_append]
        rw [List.map_cons, hmadeOn, List.mem_cons, Option.some.injEq] at hc
        rcases hc with hc | hc
        · rw [(hfilled.sound.queueOf_eq_iff hproper).2 hc, share_singleton_self]
          exact List.append_ne_nil_of_right_ne_nil _ nofun
        · exact List.append_ne_nil_of_left_ne_nil (hshares c hc) _

/-- **The first environment of each CPU is in its idle slot.** -/
theorem Past.seated_of_boots {l : List (Deed (State M) Action)} (h : Past policy ncpu m₀ l k)
    (hboots : Boots ncpu l) (hc : c.val < ncpu) : Seated k (idleSlot policy c) := by
  have hmade : ∀ d ∈ l, d.madeOn ≠ none := by
    intro d hd hnone
    have := hboots.subset (List.mem_map_of_mem hd)
    rw [hnone] at this
    simp at this
  obtain ⟨f, hfilled, hshares⟩ := h.exists_filled hmade
  have hmem : some c.val ∈ l.map Deed.madeOn :=
    hboots.symm.subset (List.mem_map_of_mem (List.mem_range.2 hc))
  obtain ⟨p, rest, hshare⟩ := List.exists_cons_of_ne_nil (hshares c hmem)
  obtain ⟨s, hs, hready⟩ := hfilled.ready c hc 0 p (by rw [hshare]; rfl)
  rw [RunQueue.slotAt_zero (Nat.pos_iff_ne_zero.1 (RunQueue.len_forCpu_pos policy c))] at hs
  rw [idleSlot, Option.some.inj hs]
  exact ⟨by rw [hready.status]; exact nofun, hready.parent⟩

/-! ## The idle slot stays reserved -/

variable {later boot : List (Deed (State M) Action)}

omit [Memory M] in
theorem bare_of_isRoutine (ha : a.isRoutine = true) : a.bare = false := by
  cases a with
  | alloc => cases ha
  | create | free | destroy | reap | syscall | schedule | resume => rfl

/-- **Every history of what CPUs do on their own is settled.** -/
theorem Past.settled {l : List (Deed (State M) Action)} (h : Past policy ncpu m₀ l k)
    (hroutine : ∀ d ∈ l, d.act.isRoutine = true) : Settled policy ncpu k := by
  induction h with
  | start hinit => exact .of_init hinit
  | step _ hstep ih =>
    obtain ⟨ha, hrest⟩ := List.forall_mem_cons.1 hroutine
    exact (ih hrest).step ha hstep

theorem isRoutine_of_boots (hboots : Boots ncpu boot) : ∀ d ∈ boot, d.act.isRoutine = true := by
  intro d hd
  have hmem := hboots.subset (List.mem_map_of_mem hd)
  obtain ⟨before, act⟩ := d
  cases act with
  | create => rfl
  | alloc | free | destroy | reap | syscall | schedule | resume =>
    obtain ⟨n, -, hn⟩ := List.mem_map.1 hmem
    cases hn

/-- **The idle environment stays** along every history in which it does not destroy itself, and its
slot is not taken again. -/
theorem Past.seated (hboots : Boots ncpu boot) (hc : c.val < ncpu) :
    ∀ {later : List (Deed (State M) Action)} {k : State M}, Past policy ncpu m₀ (later ++ boot) k →
      (∀ d ∈ later, d.act.isRoutine = true) →
      (∀ d ∈ later, d.quits (idleSlot policy c) = false) →
      Seated k (idleSlot policy c) ∧ (k.env (idleSlot policy c)).lastId =
          EnvId.nth (idleSlot policy c) (takings (idleSlot policy c) boot) ∧
        ∀ d ∈ later, d.taken ≠ some (idleSlot policy c) := by
  intro later
  induction later with
  | nil =>
    intro k h _ _
    exact ⟨h.seated_of_boots hboots hc, h.lastId _, fun d hd => absurd hd List.not_mem_nil⟩
  | cons d later ih =>
    intro k h hroutine hstays
    obtain ⟨ha, hroutine'⟩ := List.forall_mem_cons.1 hroutine
    obtain ⟨hquits, hstays'⟩ := List.forall_mem_cons.1 hstays
    cases h with
    | step hbefore hstep =>
      obtain ⟨hseat, hid, hnever⟩ := ih hbefore hroutine' hstays'
      have hsettled := Past.settled hbefore (List.forall_mem_append.2
        ⟨hroutine', isRoutine_of_boots hboots⟩)
      cases hsettled.sound.fate hstep (bare_of_isRoutine ha) (idleSlot policy c) with
      | taken _ hfree => exact absurd hfree hseat.there
      | left hnot hleft =>
        exact ⟨hsettled.seated_of_step hseat ha hstep hquits, hleft.lastId.trans hid,
          List.forall_mem_cons.2 ⟨hnot, hnever⟩⟩

/-- **The idle slot stays reserved** while the idle environment does not destroy itself. Nothing that is
made later is put there, so whatever is made in the slice of the CPU is looked at in the scheduler's
round: when it waits, the next pass gives the CPU to it or to another one that waits and comes first. -/
theorem Past.idle_slot_reserved (h : Past policy ncpu m₀ (later ++ boot) k) (hboots : Boots ncpu boot)
    (hroutine : ∀ d ∈ later, d.act.isRoutine = true) (hc : c.val < ncpu)
    (hstays : ∀ d ∈ later, d.quits (idleSlot policy c) = false) :
    (∀ d ∈ later, d.taken ≠ some (idleSlot policy c)) ∧
      (k.env (idleSlot policy c)).status ≠ .free ∧
      (k.env (idleSlot policy c)).lastId =
        EnvId.nth (idleSlot policy c) (takings (idleSlot policy c) boot) ∧
      ∀ d ∈ later, ∀ s, d.taken = some s → Owns policy ncpu c s → (k.env s).status = .runnable →
        k.Waits c.val s ∧
        s ∈ (k.runQueue c.val).round (k.runQueue c.val).len (k.lastSlot c.val) ∧
        ∃ t, ((k.runQueue c.val).round (k.runQueue c.val).len (k.lastSlot c.val)).find?
            (k.Waits c.val) = some t ∧
          k.scheduleNext c.val = .ok (.ok (k.dispatchOf t), k.running c.val t) := by
  obtain ⟨hseat, hid, hnever⟩ := Past.seated hboots hc h hroutine hstays
  refine ⟨hnever, hseat.there, hid, fun d hd s hs howns hst => ?_⟩
  have hsound := (Past.reached h).sound
  have hq := hsound.queueOf_self hc
  have hidle : (k.runQueue c.val).idle = idleSlot policy c := by
    rw [runQueue, hq, RunQueue.idle, hsound.start_eq c hc]
    rfl
  have hwaits : k.Waits c.val s := by
    refine ⟨?_, hst⟩
    rw [hidle]
    rintro rfl
    exact hnever d hd hs
  have hin : (k.runQueue c.val).contains s := by
    rw [runQueue, hq]
    exact (hsound.contains_iff hc).2 howns
  have hmem := (RunQueue.mem_round_iff (hsound.contains_lastSlot hc)).2 hin
  refine ⟨hwaits, hmem, ?_⟩
  obtain ⟨t, hfound⟩ := Option.isSome_iff_exists.1
    ((List.find?_isSome (p := fun t => k.Waits c.val t)).2 ⟨s, hmem, decide_eq_true hwaits⟩)
  exact ⟨t, hfound, hsound.scheduleNext_of_found hc hfound⟩

/-- A program that is made once both CPUs have their idle environments is put behind one of them, and
so is the child it makes. -/
theorem Past.idle_slot_reserved_child :
    ∃ (later boot : List (Deed (State Frames) Action)) (k : State Frames),
      Past .perCpu 2 ({} : Frames) (later ++ boot) k ∧ Boots 2 boot ∧
      (∀ d ∈ later, d.act.isRoutine = true) ∧ (∀ d ∈ later, d.quits (idleSlot .perCpu 0) = false) ∧
      (∃ d ∈ later, d.taken = some 2) ∧ k.Waits 0 2 ∧
      ∃ t, k.scheduleNext 0 = .ok (.ok (k.dispatchOf t), k.running 0 t) := by
  obtain ⟨l, k, h, hseen⟩ := exists_past .perCpu 2 ({} : Frames)
    [.create [0x7f] 0, .create [0x7f] 1, .create [0x7f] 0, .schedule 0, callOf .exofork {},
      callOf .envSetStatus { first := 0x1002, second := 2 }]
    (fun l k => (decide (Boots 2 (l.drop 4)), (l.take 4).all fun d =>
        d.act.isRoutine && !d.quits (idleSlot .perCpu 0),
      (l.take 4).map Deed.taken, (k.env 2).status))
    (b := (true, true, [none, some 2, none, some 1], .runnable)) (by decide +kernel)
  simp only [Prod.mk.injEq, decide_eq_true_eq] at hseen
  obtain ⟨hboots, hall, htaken, hst⟩ := hseen
  have hall : ∀ d ∈ l.take 4, d.act.isRoutine = true ∧ d.quits (idleSlot .perCpu 0) = false := by
    simpa using hall
  have hchild : ∃ d ∈ l.take 4, d.taken = some 2 := by
    have hmem : some (2 : Slot) ∈ (l.take 4).map Deed.taken := by rw [htaken]; decide
    exact List.mem_map.1 hmem
  rw [← List.take_append_drop 4 l] at h
  obtain ⟨-, -, -, hround⟩ := h.idle_slot_reserved (c := 0) hboots (fun d hd => (hall d hd).1)
    (by decide) fun d hd => (hall d hd).2
  obtain ⟨d, hd, hs⟩ := hchild
  obtain ⟨hwaits, -, t, -, hpass⟩ := hround d hd 2 hs rfl hst
  exact ⟨_, _, k, h, hboots, fun d hd => (hall d hd).1, fun d hd => (hall d hd).2, ⟨d, hd, hs⟩,
    hwaits, t, hpass⟩

/-- An idle environment destroys itself, and the next environment is put in its slot. -/
theorem Past.idle_slot_taken :
    ¬ ∀ (later boot : List (Deed (State Frames) Action)) (k : State Frames),
      Past .perCpu 1 ({} : Frames) (later ++ boot) k → Boots 1 boot →
      (∀ d ∈ later, d.act.isOrdinary = true) →
        ∀ d ∈ later, d.taken ≠ some (idleSlot .perCpu 0) := by
  intro hclaim
  obtain ⟨l, k, h, hseen⟩ := exists_past .perCpu 1 ({} : Frames)
    [.create [0x7f] 0, .schedule 0, callOf .envDestroy {}, .create [0x7f] 0]
    (fun l _ => (decide (Boots 1 (l.drop 3)), (l.take 3).all fun d => d.act.isOrdinary,
      (l.take 3).map Deed.taken))
    (b := (true, true, [some 0, none, none])) (by decide +kernel)
  simp only [Prod.mk.injEq, decide_eq_true_eq] at hseen
  obtain ⟨hboots, hall, htaken⟩ := hseen
  rw [← List.take_append_drop 3 l] at h
  have hmem : some (0 : Slot) ∈ (l.take 3).map Deed.taken := by rw [htaken]; decide
  obtain ⟨d, hd, hs⟩ := List.mem_map.1 hmem
  exact hclaim _ _ k h hboots (List.all_eq_true.1 hall) d hd hs

end State

end Exokernel
