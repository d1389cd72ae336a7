import Mathlib.Data.List.Find
import Exokernel.Proofs.Accord
import Exokernel.Proofs.Isolation
import Exokernel.Proofs.Mailboxes
import Exokernel.Proofs.Rounds
/-!
# Scheduling does not depend on the other CPUs

A scheduler pass of one CPU writes to its own slice only: who runs there, and what may run. A call on
another CPU may name an environment of that slice, by an identifier that is stale or not of its
family, but reads nothing of it that scheduling changes, and unless it delivers a message there it
does not change what the pass reads. So the two can be done in either order
(`Past.scheduling_is_independent`), and so can two passes.
-/

namespace Exokernel

/-! ## States that are the same -/

namespace State

variable {M : Type} {k k' : State M}

/-- A state is what it says slot by slot and queue by queue. -/
theorem eq_of_parts (hpolicy : k'.policy = k.policy) (henv : ∀ s, k'.env s = k.env s)
    (hqueue : ∀ q, k'.queue q = k.queue q) (hmemory : k'.memory = k.memory)
    (hjournal : k'.journal = k.journal) : k' = k := by
  have henvs : k'.envs = k.envs := Vector.ext fun n hn => henv ⟨n, hn⟩
  have hqueues : k'.queues = k.queues := Vector.ext fun n hn => hqueue ⟨n, hn⟩
  cases k
  cases k'
  simp only [State.mk.injEq]
  exact ⟨hpolicy, henvs, hqueues, hmemory, hjournal⟩

/-! ## What a pass makes of the state -/

/-- The state in which a CPU is given to what was picked, if there is anything. -/
def passTo (k : State M) (cpu : Nat) : Except NothingRunnable Slot → State M
  | .ok s => k.running cpu s
  | .error _ => k

section PassTo

variable {cpu : Nat} {p : Except NothingRunnable Slot} {s t : Slot} {q : CpuIndex}

@[simp] theorem policy_passTo (k : State M) (cpu : Nat) (p : Except NothingRunnable Slot) :
    (k.passTo cpu p).policy = k.policy := by
  cases p with
  | ok s => exact policy_running k cpu s
  | error e => rfl

@[simp] theorem memory_passTo (k : State M) (cpu : Nat) (p : Except NothingRunnable Slot) :
    (k.passTo cpu p).memory = k.memory := by
  cases p with
  | ok s => exact memory_running k cpu s
  | error e => rfl

/-- Nothing is said. -/
@[simp] theorem journal_passTo (k : State M) (cpu : Nat) (p : Except NothingRunnable Slot) :
    (k.passTo cpu p).journal = k.journal := by
  cases p with
  | ok s =>
    have hsuspend : ∀ (k : State M) last, (k.suspend last s).journal = k.journal := by
      intro k last
      unfold suspend
      cases last with
      | none => rfl
      | some l =>
        dsimp only
        split <;> rfl
    exact hsuspend _ _
  | error e => rfl

theorem queue_passTo_ne (hq : q ≠ k.queueOf cpu) : (k.passTo cpu p).queue q = k.queue q := by
  cases p with
  | ok s => exact (queue_running k cpu s q).trans (if_neg hq)
  | error e => rfl

/-- A queue comes out of a pass as it went in. -/
theorem queue_passTo_congr (hpolicy : k'.policy = k.policy) (hq : k'.queue q = k.queue q) :
    (k'.passTo cpu p).queue q = (k.passTo cpu p).queue q := by
  have hplace : k'.queueOf cpu = k.queueOf cpu := by simp only [queueOf, hpolicy]
  cases p with
  | ok s =>
    change (k'.running cpu s).queue q = (k.running cpu s).queue q
    rw [queue_running, queue_running, hplace, hq]
  | error e => exact hq

/-- A pass leaves a slot alone that neither had the CPU nor gets it. -/
theorem env_passTo_ne (hp : p ≠ .ok t) (hc : k.current cpu ≠ some t) :
    (k.passTo cpu p).env t = k.env t := by
  cases p with
  | ok s =>
    refine (env_running k cpu s t).trans ?_
    rw [if_neg fun hts => hp (congrArg Except.ok hts.symm), if_neg fun hlast => hc hlast.1]
  | error e => rfl

/-- A slot comes out of a pass as it went in. -/
theorem env_passTo_congr (hc : k'.current cpu = k.current cpu) (ht : k'.env t = k.env t) :
    (k'.passTo cpu p).env t = (k.passTo cpu p).env t := by
  cases p with
  | ok s =>
    change (k'.running cpu s).env t = (k.running cpu s).env t
    rw [env_running, env_running, hc]
    by_cases hts : t = s
    · rw [if_pos hts, if_pos hts, ← hts, ht]
    · rw [if_neg hts, if_neg hts, ht]
  | error e => exact ht

end PassTo

/-! ## What a pass reads -/

/-- **Two states agree on a CPU's slice**: they have the same slots there and the same run queue. -/
structure SameSlice (ncpu : Nat) (c : CpuIndex) (k k' : State M) : Prop where
  policy : k'.policy = k.policy
  queue : k'.queue c = k.queue c
  env : ∀ s, Owns .perCpu ncpu c s → k'.env s = k.env s

section Pass

variable {rq : RunQueue} {cpu ncpu : Nat} {s : Slot} {c : CpuIndex}

theorem scan_congr (hs : rq.contains s)
    (henv : ∀ t, rq.contains t → (k'.env t).status = (k.env t).status) (n : Nat) :
    k'.scan rq n s = k.scan rq n s := by
  rw [scan_eq n hs, scan_eq n hs]
  congr 1
  refine List.find?_congr fun t ht => ?_
  rw [henv t (RunQueue.contains_of_mem_round hs ht)]

theorem SameSlice.refl (k : State M) : SameSlice ncpu c k k := ⟨rfl, rfl, fun _ _ => rfl⟩

/-- The slices are where they were. -/
theorem SameSlice.queueOf (h : SameSlice ncpu c k k') (cpu : Nat) : k'.queueOf cpu = k.queueOf cpu := by
  simp only [State.queueOf, h.policy]

variable (h : Sound .perCpu ncpu k) (hc : c.val < ncpu)

include h hc

theorem SameSlice.runQueue (hsame : SameSlice ncpu c k k') : k'.runQueue c = k.runQueue c := by
  unfold State.runQueue
  rw [hsame.queueOf, h.queueOf_self hc, hsame.queue]

theorem SameSlice.current (hsame : SameSlice ncpu c k k') : k'.current c = k.current c :=
  congrArg RunQueue.current (hsame.runQueue h hc)

theorem SameSlice.env_eq (hsame : SameSlice ncpu c k k') (hs : (k.runQueue c).contains s) :
    k'.env s = k.env s := by
  unfold State.runQueue at hs
  rw [h.queueOf_self hc, h.contains_iff hc] at hs
  exact hsame.env s hs

/-- **What is picked** depends on the CPU's own slice only. -/
theorem Sound.select_congr (hsame : SameSlice ncpu c k k') : k'.select c = k.select c := by
  have hstatus : ∀ t, (k.runQueue c).contains t → (k'.env t).status = (k.env t).status :=
    fun t ht => congrArg Env.status (hsame.env_eq h hc ht)
  have hlast := h.contains_lastSlot hc
  have hidle := RunQueue.contains_idle (h.len_ne_zero hc)
  have hfind : [k.lastSlot c, (k.runQueue c).idle].find? (fun s => (k'.env s).status.canRun) =
      [k.lastSlot c, (k.runQueue c).idle].find? fun s => (k.env s).status.canRun := by
    refine List.find?_congr fun t ht => ?_
    simp only [List.mem_cons, List.not_mem_nil, or_false] at ht
    rcases ht with rfl | rfl
    · rw [hstatus _ hlast]
    · rw [hstatus _ hidle]
  unfold lastSlot at hlast hfind
  unfold select
  dsimp only
  rw [hsame.runQueue h hc, scan_congr hlast hstatus, hfind]

omit h hc in
/-- **A pass** of a CPU, as what it picks and what that makes of the state. The same is picked wherever
the CPU's slice is the same. -/
structure Picks (ncpu : Nat) (c : CpuIndex) (k : State M) (p : Except NothingRunnable Slot) :
    Prop where
  owns : ∀ s, p = .ok s → Owns .perCpu ncpu c s
  canRun : ∀ s, p = .ok s → (k.env s).status.canRun = true
  pass : ∀ k', SameSlice ncpu c k k' →
    k'.scheduleNext c = .ok (p.map k.dispatchOf, k'.passTo c p)

theorem Sound.exists_picks : ∃ p, Picks ncpu c k p := by
  obtain ⟨p, hselect, hpicked⟩ := select_of_contains fun s => h.contains_current hc (s := s)
  refine ⟨p, fun s hs => ?_, fun s hs => (hpicked s hs).2, fun k' hsame => ?_⟩
  · have hin := (hpicked s hs).1
    unfold State.runQueue at hin
    rwa [h.queueOf_self hc, h.contains_iff hc] at hin
  · unfold scheduleNext
    rw [h.select_congr hc hsame, hselect]
    cases p with
    | error e => rfl
    | ok s =>
      have hin := (hpicked s rfl).1
      have hin' : (k'.runQueue c).contains s := by rwa [hsame.runQueue h hc]
      have hsee : k'.dispatchOf s = k.dispatchOf s := by
        unfold dispatchOf
        rw [hsame.env_eq h hc hin]
      simp only [bind, Except.bind, dispatch_of_contains hin', hsee]
      rfl

end Pass

/-! ## Families along a run -/

section Families

variable [Memory M] {policy : Policy} {ncpu cpu : Nat} {m₀ : M}

theorem Lineage.moves (h : Lineage policy ncpu k) (hsound : Sound policy ncpu k) (hcpu : cpu < ncpu)
    (hk : Moves cpu k k') : Lineage policy ncpu k' ∧ Sound policy ncpu k' := by
  induction hk with
  | refl => exact ⟨h, hsound⟩
  | tail _ hmove ih => exact ⟨ih.1.move ih.2 hcpu hmove, ih.2.move hcpu hmove⟩

theorem Lineage.syscall (h : Lineage policy ncpu k) (hsound : Sound policy ncpu k) (hcpu : cpu < ncpu)
    (tf : TrapFrame) : Lineage policy ncpu (k.syscall cpu tf).2 := by
  rcases syscall_moves_or_sending cpu tf k with hmoves | ⟨s, receiver, hsend⟩
  · exact (h.moves hsound hcpu hmoves).1
  · obtain ⟨k₁, hd, hk'⟩ := hsend.ends
    have hsaved : Sound policy ncpu (k.save s tf) := hsound.setEnv (.of_registers _ _ _)
    have hdelivered := (h.setEnv (Env.Alike.of_registers _ _ _).toStays).delivery hsaved hcpu hd
    rw [hk']
    exact hdelivered.setEnv (Env.Alike.of_registers _ _ _).toStays

/-- Nobody is given a parent from outside: a parent is who made the child. -/
def GivesNoParent : Action → Prop
  | .alloc parent _ => parent = none
  | _ => True

instance : DecidablePred GivesNoParent
  | .alloc parent _ => inferInstanceAs (Decidable (parent = none))
  | .create _ _ | .free _ | .destroy _ _ | .reap _ | .syscall _ _ | .schedule _ | .resume _ =>
    .isTrue trivial

/-- **Families stay in one slice** where nobody is given a parent from outside. -/
theorem Lineage.done {a : Action} (h : Lineage policy ncpu k) (hsound : Sound policy ncpu k)
    (ha : GivesNoParent a) (hk : Done ncpu k a k') : Lineage policy ncpu k' := by
  cases hk with
  | alloc hcpu parent =>
    obtain rfl : parent = none := ha
    refine Op.of_ends ?_
    exact ends_alloc (fun _ => h) (fun _ _ _ => h.stays fun _ => .refl _) fun s dir mem _ _ =>
      h.occupy (fun _ hp => by cases hp) _ dir mem
  | create hcpu image =>
    exact Op.of_ends ((hsound.moves_create hcpu).imp fun _ _ hk => (h.moves hsound hcpu hk).1)
  | destroy hcpu hs => exact h.destroy _ hs
  | syscall hcpu tf => exact h.syscall hsound hcpu tf
  | gone => exact h.free _
  | ran _ hcpu hs hrun => exact h.stays (stays_running k _ (Status.ne_free_of_canRun hrun))
  | still => exact h

theorem Past.lineage {l : List (Deed (State M) Action)} (h : Past policy ncpu m₀ l k)
    (hl : ∀ d ∈ l, GivesNoParent d.act) : Lineage policy ncpu k := by
  induction h with
  | start hinit =>
    have hvacant := vacant_of_init hinit
    exact ⟨fun s _ hid => (nomatch (hvacant s).2.1.symm.trans hid),
      fun s _ hp => (nomatch (hvacant s).2.2.symm.trans hp)⟩
  | step hpast hstep ih =>
    have hsound := (Past.reached hpast).sound
    have hbefore := ih fun d hd => hl d (List.mem_cons_of_mem _ hd)
    exact hbefore.done hsound (hl _ List.mem_cons_self) (hsound.done hstep.1 hstep.2)

end Families

/-! ## Beside a pass of another CPU -/

section Beside

variable {ncpu : Nat} {i j c : CpuIndex} {p : Except NothingRunnable Slot} {s t : Slot}

namespace Picks

variable (h : Picks ncpu i k p)

include h

/-- Nothing comes and nobody goes. -/
theorem resembles (t : Slot) : (k.env t).Resembles ((k.passTo i p).env t) := by
  cases p with
  | error e => exact ⟨rfl, rfl, .rfl, .rfl, rfl, rfl⟩
  | ok s =>
    change (k.env t).Resembles ((k.running i s).env t)
    have hrun := h.canRun s rfl
    rw [env_running]
    split
    · next hts =>
      rw [hts]
      refine ⟨rfl, rfl, ⟨nofun, fun hfree => ?_⟩, ⟨nofun, fun hdying => ?_⟩, rfl, rfl⟩
      · rw [hfree] at hrun
        cases hrun
      · rw [hdying] at hrun
        cases hrun
    · split
      · next hlast =>
        have hrunning := hlast.2
        exact ⟨rfl, rfl, by simp [hrunning], by simp [hrunning], rfl, rfl⟩
      · exact ⟨rfl, rfl, .rfl, .rfl, rfl, rfl⟩

/-- A slot that is not the CPU's is left alone, whatever the other CPUs did to theirs. -/
theorem env_passTo (hsound : Sound .perCpu ncpu k) (hi : i.val < ncpu)
    (hsame : SameSlice ncpu i k k') (ht : ¬ Owns .perCpu ncpu i t) :
    (k'.passTo i p).env t = k'.env t := by
  refine env_passTo_ne (fun hp => ht (h.owns t hp)) fun hcur => ht ?_
  unfold State.current at hcur
  rw [hsame.runQueue hsound hi] at hcur
  have hcurrent := (hsound.current _ t (hsound.queueOf_lt hi) hcur).1
  rwa [hsound.queueOf_self hi] at hcurrent

/-- The slice of another CPU stays as it is. -/
theorem sameSlice_passTo (hsound : Sound .perCpu ncpu k) (hi : i.val < ncpu) (hij : i ≠ j) :
    SameSlice ncpu j k (k.passTo i p) where
  policy := policy_passTo k i p
  queue := queue_passTo_ne (by rw [hsound.queueOf_self hi]; exact hij.symm)
  env _ hs := h.env_passTo hsound hi (.refl k) fun hs' => hij (hs'.unique hs)

end Picks

/-- **Before and after a pass of another CPU**, as a CPU sees it that may write to all slots but those
of the other one. -/
def Picks.beside (h : Picks ncpu i k p) (j : CpuIndex) : Pairing M where
  cpu := j
  here s := ¬ Owns .perCpu ncpu i s
  cut := id
  left := k
  right := k.passTo i p
  place := by simp only [queueOf, policy_passTo]
  there s _ := h.resembles s
  cut_none := rfl
  cut_some _ _ := rfl

variable (h : Picks ncpu i k p) (hsound : Sound .perCpu ncpu k) (hi : i.val < ncpu)
  (hj : j.val < ncpu) (hij : i ≠ j)

include hsound hi hj hij

theorem Picks.holds_beside : (h.beside j).Holds k (k.passTo i p) where
  policy_left := rfl
  policy_right := rfl
  queue := by
    have hne : k.queueOf j ≠ k.queueOf i := by
      rw [hsound.queueOf_self hi, hsound.queueOf_self hj]
      exact hij.symm
    have hq : (k.passTo i p).queue (k.queueOf j) = k.queue (k.queueOf j) := queue_passTo_ne hne
    refine ⟨((k.passTo i p).queue (k.queueOf j)).current,
      ((k.passTo i p).queue (k.queueOf j)).freeHead, ?_, rfl⟩
    rw [hq]
    rfl
  queues _ _ := ⟨rfl, rfl⟩
  here s hs := h.env_passTo hsound hi (.refl k) hs
  there _ _ := ⟨rfl, rfl⟩
  memory := memory_passTo k i p
  said := ⟨[], (List.append_nil _).symm, (List.append_nil _).symm⟩

/-- **The pass after a call** that went alike with one after the pass: the same is picked, and the state
is the same in the end. -/
theorem Picks.pass_of_holds {l' : State M} (hk : (h.beside j).Holds k' l') :
    k'.scheduleNext i = .ok (p.map k.dispatchOf, l') := by
  have hplace : k.queueOf j = j := hsound.queueOf_self hj
  have hne : i ≠ k.queueOf j := by rwa [hplace]
  have hthere : ∀ t, Owns .perCpu ncpu i t → k'.env t = k.env t ∧ l'.env t = (k.passTo i p).env t :=
    fun t ht => hk.there t fun hnot => hnot ht
  have hsame : SameSlice ncpu i k k' :=
    ⟨hk.policy_left, (hk.queues i hne).1, fun s hs => (hthere s hs).1⟩
  suffices hend : k'.passTo i p = l' by rw [h.pass k' hsame, hend]
  refine eq_of_parts ?_ (fun t => ?_) (fun q => ?_) ?_ ?_
  · rw [policy_passTo, hk.policy_left, hk.policy_right]
    exact (policy_passTo k i p).symm
  · by_cases ht : Owns .perCpu ncpu i t
    · rw [env_passTo_congr (hsame.current hsound hi) (hthere t ht).1, (hthere t ht).2]
    · rw [h.env_passTo hsound hi hsame ht, hk.here t ht]
      rfl
  · by_cases hq : q = i
    · subst hq
      rw [queue_passTo_congr hsame.policy hsame.queue]
      exact (hk.queues q hne).2.symm
    · have hqi : q ≠ k.queueOf i := by rwa [hsound.queueOf_self hi]
      rw [queue_passTo_ne (by rwa [hsame.queueOf])]
      exact (hk.queue_eq (queue_passTo_ne hqi) fun _ => rfl).symm
  · rw [memory_passTo, hk.memory]
  · rw [journal_passTo]
    exact (hk.journal_eq (journal_passTo k i p)).symm

end Beside

/-! ## Messages that arrive -/

section Messages

variable [Memory M] {ncpu cpu : Nat} {policy : Policy} {sender receiver : Slot}

/-- **What could be delivered is delivered** by the call. -/
theorem Delivery.perform_eq {a : Args}
    (h : Delivery k cpu a.first a.second a.third.toNat a.fourth receiver k') :
    perform cpu .ipcTrySend a k = .ok (.value 0) k' := by
  suffices hends : Ends (perform cpu .ipcTrySend a) k fun r k₁ =>
      ∃ c, r = .ok c ∧ c = .value 0 ∧ k₁ = k' by
    obtain ⟨_, _, hk, rfl, rfl⟩ := Ends.ok_iff.1 hends
    exact hk
  simp only [perform, perform.done, ipcTrySend, Ends.bind_iff, Ends.get_iff]
  cases h with
  | @word sender offer hcur hr hrecv ho hnone =>
    simp only [hcur, hr, ho, hrecv, Op.ofOption, Op.ofExcept, Ends.pure_iff, not_true_eq_false,
      if_false, Ends.bind_iff]
    cases offer with
    | none => exact ⟨_, rfl, rfl, rfl⟩
    | some x =>
      have hdst := hnone.resolve_left (Option.some_ne_none x)
      simp only [handOver, Ends.bind_iff, Ends.get_iff, hdst, if_false, Ends.pure_iff]
      exact ⟨_, rfl, rfl, rfl⟩
  | page hcur hr hrecv ho hdst hinsert =>
    simp only [hcur, hr, ho, hrecv, Op.ofOption, Op.ofExcept, Ends.pure_iff, not_true_eq_false,
      if_false, Ends.bind_iff, handOver, Ends.get_iff, hdst, if_true, Op.ends_onMemory, hinsert]
    refine ⟨?_, fun _ _ herror => by cases herror⟩
    rintro _ _ ⟨rfl, rfl⟩
    exact ⟨_, rfl, rfl, rfl⟩

/-- A call that is the delivery of a message sends one. -/
theorem Sound.sendsTo_of_sending (h : Sound policy ncpu k) (hcpu : cpu < ncpu) {tf : TrapFrame}
    {next : Next} (hsend : Sending k cpu tf sender receiver next k') :
    Deed.sendsTo ⟨k, .syscall cpu tf⟩ receiver = true := by
  obtain ⟨k₁, hd, -⟩ := hsend.ends
  have hperform : performNumber cpu tf.eax tf.args (k.save sender tf) = .ok (.value 0) k₁ := by
    rw [hsend.number, performNumber, Call.ofNumber?_number]
    exact hd.perform_eq
  have hk := syscall_of_ok hsend.current hperform
  have hsaved : Sound policy ncpu (k.save sender tf) := h.setEnv (.of_registers _ _ _)
  have hthere : (k₁.env sender).status ≠ .free :=
    mt (hsaved.alike_of_delivery hcpu hd sender).free.1 (hsaved.current_ne_free hcpu hsend.current)
  have hanswer : k.answer cpu tf = some (.ok 0) := answer_of_setResult hsend.current hk hthere
  refine Deed.isCall_iff.2 ⟨cpu, tf, rfl, hsend.number, ?_⟩
  simp only [hsend.resolve_eq, hanswer, Except.toOption, BEq.rfl, Option.any_some, Bool.true_and]
  rfl

end Messages

/-! ## Either order -/

/-- **Two requests commute** in a state: in either order both are met, each with the answer it gets in
the other order, and the state is the same in the end. -/
def Commute {M α β : Type} (x : Request M α) (y : Request M β) (k : State M) : Prop :=
  ∃ a b k₁ k₂ k', x k = .ok (a, k₁) ∧ y k₁ = .ok (b, k') ∧ y k = .ok (b, k₂) ∧ x k₂ = .ok (a, k')

theorem request_scheduleNext (k : State M) (c : CpuIndex) :
    Request.scheduleNext c.val k = k.scheduleNext c :=
  Machine.requires_bind.trans (if_pos (.inr c.isLt))

theorem request_syscall [Memory M] (k : State M) (c : CpuIndex) (tf : TrapFrame) :
    Request.syscall c.val tf k = .ok (k.syscall c tf) :=
  Machine.requires_bind.trans (if_pos (.inr c.isLt))

section Commute

variable {ncpu : Nat} {i j : CpuIndex} (h : Sound .perCpu ncpu k) (hi : i.val < ncpu)
  (hj : j.val < ncpu) (hij : i ≠ j)

include h hi hj hij

theorem passTo_comm {p q : Except NothingRunnable Slot} (hp : Picks ncpu i k p)
    (hq : Picks ncpu j k q) : (k.passTo j q).passTo i p = (k.passTo i p).passTo j q := by
  have hthere := hp.sameSlice_passTo h hi hij
  have hhere := hq.sameSlice_passTo h hj hij.symm
  refine eq_of_parts ?_ (fun t => ?_) (fun r => ?_) ?_ ?_
  · simp only [policy_passTo]
  · by_cases ht : Owns .perCpu ncpu i t
    · rw [env_passTo_congr (hhere.current h hi) (hhere.env t ht),
        hq.env_passTo h hj hthere fun ht' => hij (ht.unique ht')]
    · rw [hp.env_passTo h hi hhere ht]
      exact (env_passTo_congr (hthere.current h hj) (hp.env_passTo h hi (.refl k) ht)).symm
  · by_cases hr : r = i
    · subst hr
      have hrj : r ≠ (k.passTo r p).queueOf j := by
        rw [hthere.queueOf, h.queueOf_self hj]
        exact hij
      rw [queue_passTo_congr hhere.policy hhere.queue, queue_passTo_ne hrj]
    · have hri : r ≠ k.queueOf i := by rwa [h.queueOf_self hi]
      rw [queue_passTo_ne (by rwa [hhere.queueOf])]
      exact (queue_passTo_congr hthere.policy (queue_passTo_ne hri)).symm
  · simp only [memory_passTo]
  · simp only [journal_passTo]

/-- **Two passes commute.** -/
theorem Sound.commute_passes :
    Commute (Request.scheduleNext i.val) (Request.scheduleNext j.val) k := by
  obtain ⟨p, hp⟩ := h.exists_picks hi
  obtain ⟨q, hq⟩ := h.exists_picks hj
  have hthere := hp.sameSlice_passTo h hi hij
  have hhere := hq.sameSlice_passTo h hj hij.symm
  refine ⟨p.map k.dispatchOf, q.map k.dispatchOf, k.passTo i p, k.passTo j q,
    (k.passTo i p).passTo j q, ?_, ?_, ?_, ?_⟩
  · rw [request_scheduleNext, hp.pass k (.refl k)]
  · rw [request_scheduleNext, hq.pass _ hthere]
  · rw [request_scheduleNext, hq.pass k (.refl k)]
  · rw [request_scheduleNext, hp.pass _ hhere, passTo_comm h hi hj hij hp hq]

/-- **A pass and a call commute**, unless the call delivers a message to the CPU that schedules. -/
theorem Sound.commute_syscall [Memory M] (hlineage : Lineage .perCpu ncpu k) (tf : TrapFrame)
    (hsend : ∀ s, Deed.sendsTo ⟨k, .syscall j tf⟩ s = true → (k.env s).cpu ≠ i) :
    Commute (Request.scheduleNext i.val) (Request.syscall j.val tf) k := by
  obtain ⟨p, hp⟩ := h.exists_picks hi
  have hne : i ≠ k.queueOf j := by rwa [h.queueOf_self hj]
  have hown : ∀ s, Owns .perCpu ncpu (k.queueOf j) s →
      ¬ Owns .perCpu ncpu i s ∧ (k.env s).cpu.val = j.val := by
    intro s howns
    rw [h.owner _ s howns]
    exact ⟨fun hs => hne (hs.unique howns), h.queueOf_val hj⟩
  have hgoverns : (hp.beside j).Governs k := fun s hs =>
    hown s (hlineage.owns_of_governs h hj hs)
  have hroom : (hp.beside j).Room k := fun s hs => hown s (h.head (h.queueOf_lt hj) hs).1
  have hreceiver : ∀ sender receiver k', Sending k j tf sender receiver .resume k' →
      ¬ Owns .perCpu ncpu i receiver := fun _ receiver _ hs howns =>
    hsend receiver (h.sendsTo_of_sending hj hs) (h.owner i receiver howns)
  obtain ⟨hnext, hholds⟩ :=
    (hp.holds_beside h hi hj hij).syscall hgoverns (fun _ _ _ => hroom) hreceiver
  refine ⟨p.map k.dispatchOf, (k.syscall j tf).1, k.passTo i p, (k.syscall j tf).2,
    ((k.passTo i p).syscall j tf).2, ?_, ?_, ?_, ?_⟩
  · rw [request_scheduleNext, hp.pass k (.refl k)]
  · rw [request_syscall]
    exact congrArg (fun next => Except.ok (next, ((k.passTo i p).syscall j tf).2)) hnext
  · rw [request_syscall]
  · rw [request_scheduleNext]
    exact hp.pass_of_holds h hi hj hij hholds

end Commute

/-- **Scheduling on one CPU is independent of the others.** In every state that comes about when the
table is divided among CPUs, environments are made, CPUs schedule and environments make system calls,
whatever memory is, a scheduler pass of one CPU and a system call on another can be made in either
order, whatever the registers of the call: each ends the same way, and the state is the same in the
end. The one exception is a call that delivers a message to an environment of the CPU that schedules.
Scheduler passes of two CPUs can be made in either order always. -/
theorem Past.scheduling_is_independent [Memory M] {ncpu : Nat} {m₀ : M}
    {l : List (Deed (State M) Action)} (h : Past .perCpu ncpu m₀ l k)
    (hl : ∀ d ∈ l, GivesNoParent d.act) {i j : CpuIndex} (hi : i.val < ncpu) (hj : j.val < ncpu)
    (hij : i ≠ j) :
    (∀ tf : TrapFrame,
      (∀ s, Deed.sendsTo ⟨k, .syscall j tf⟩ s = true → (k.env s).cpu ≠ i) →
        Commute (Request.scheduleNext i.val) (Request.syscall j.val tf) k) ∧
      Commute (Request.scheduleNext i.val) (Request.scheduleNext j.val) k := by
  have hsound := (Past.reached h).sound
  exact ⟨fun tf hsend => hsound.commute_syscall hi hj hij (h.lineage hl) tf hsend,
    hsound.commute_passes hi hj hij⟩

/-- The environment of the second CPU sends to one of the first, which does not wait for a message. The
call is refused, before or after the first CPU has scheduled. -/
theorem Past.scheduling_is_independent_refused :
    ∃ (l : List (Deed (State Frames) Action)) (k : State Frames) (tf : TrapFrame),
      Past .perCpu 2 ({} : Frames) l k ∧ (∀ d ∈ l, GivesNoParent d.act) ∧
        k.resolve 1 tf.args.first false = .ok 1 ∧ (k.env 1).cpu = 0 ∧
        (k.answer 1 tf).any (·.isOk) = false ∧
        Commute (Request.scheduleNext 0) (Request.syscall 1 tf) k ∧
        Commute (Request.scheduleNext 0) (Request.scheduleNext 1) k := by
  let tf := TrapFrame.user.calling Call.ipcTrySend.number
    { first := 0x1001, second := 7, third := UInt32.ofNat Layout.noPage }
  obtain ⟨l, k, h, hseen⟩ := exists_past .perCpu 2 ({} : Frames)
    [.create [0x7f] 0, .create [0x7f] 0, .create [0x7f] 1, .schedule 0, .schedule 1]
    (fun l k => (decide (∀ d ∈ l, GivesNoParent d.act),
      decide ((k.resolve 1 tf.args.first false).toOption = some 1), (k.env 1).cpu,
      (k.answer 1 tf).any (·.isOk)))
    (b := (true, true, 0, false)) (by decide +kernel)
  simp only [Prod.mk.injEq, decide_eq_true_eq] at hseen
  obtain ⟨hl, hraw, hcpu, hanswer⟩ := hseen
  obtain ⟨t, hraw, rfl⟩ := exists_of_map_toOption (f := id) (by rw [hraw]; rfl)
  have hsend : ∀ s, Deed.sendsTo ⟨k, .syscall 1 tf⟩ s = true → (k.env s).cpu ≠ 0 := by
    intro s hs
    obtain ⟨_, _, ⟨rfl, rfl⟩, -, hp⟩ := Deed.isCall_iff.1 hs
    rw [hanswer, Bool.and_false] at hp
    cases hp
  obtain ⟨hcalls, hpasses⟩ :=
    h.scheduling_is_independent hl (i := 0) (j := 1) (by decide) (by decide) (by decide)
  exact ⟨l, k, tf, h, hl, hraw, hcpu, hanswer, hcalls tf hsend, hpasses⟩

end State

end Exokernel
