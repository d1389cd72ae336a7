import Exokernel.Proofs.Histories
import Exokernel.Proofs.Refusals
/-!
# What a deed makes of a slot

A message is asked for by the environment that wants it and delivered by another one, and both are
calls whose caller reads an answer. `Turn` says what any one deed makes of a slot as far as messages
go: its occupant asks for one or is sent one, or neither, and then it may go, or come, or be stopped
and woken by its kin, but its inbox stays as it is.
-/

namespace Exokernel

/-! ## Calls about messages -/

/-- Calls are told apart by their numbers. -/
theorem Call.number_injective : Function.Injective Call.number := fun c d h => by
  have hc := Call.ofNumber?_number c
  rw [h, Call.ofNumber?_number] at hc
  exact (Option.some.inj hc).symm

namespace Deed

variable {M : Type}

/-- The deed is a certain system call, of which something is true. -/
def isCall (d : Deed (State M) Action) (call : Call) (p : Nat → TrapFrame → Bool) : Bool :=
  match d.act with
  | .syscall cpu tf => tf.eax == call.number && p cpu tf
  | _ => false

theorem isCall_iff {d : Deed (State M) Action} {call : Call} {p : Nat → TrapFrame → Bool} :
    d.isCall call p = true ↔
      ∃ cpu tf, d.act = .syscall cpu tf ∧ tf.eax = call.number ∧ p cpu tf = true := by
  unfold isCall
  constructor
  · intro h
    split at h
    · next cpu tf hact =>
      rw [Bool.and_eq_true, beq_iff_eq] at h
      exact ⟨cpu, tf, hact, h⟩
    · cases h
  · rintro ⟨cpu, tf, hact, heax, hp⟩
    simp only [hact, heax, hp, beq_self_eq_true, Bool.and_self]

/-- A call of one number is no call of another. -/
theorem isCall_of_ne {k : State M} {cpu : Nat} {tf : TrapFrame} {call call' : Call}
    (h : tf.eax = call.number) (hne : call' ≠ call) (p : Nat → TrapFrame → Bool) :
    (⟨k, .syscall cpu tf⟩ : Deed (State M) Action).isCall call' p = false := by
  refine Bool.eq_false_iff.2 fun hcall => ?_
  obtain ⟨_, _, ⟨rfl, rfl⟩, heax, -⟩ := isCall_iff.1 hcall
  exact hne (Call.number_injective (heax.symm.trans h))

/-- What is no call is no call of any kind. -/
theorem isCall_of_quiet {k : State M} {a : Action} (h : a.quiet = true) {call : Call}
    (p : Nat → TrapFrame → Bool) : (⟨k, a⟩ : Deed (State M) Action).isCall call p = false := by
  cases a with
  | syscall | alloc | create => cases h
  | free | destroy | reap | schedule | resume => rfl

/-- The environment in a slot, waiting for a message, is made runnable by a call. -/
def wakes (d : Deed (State M) Action) (s : Slot) : Bool :=
  d.isCall .envSetStatus fun cpu tf =>
    (d.before.resolve cpu tf.args.first true).toOption == some s &&
      State.settable? tf.args.second == some .runnable && (d.before.env s).inbox.receiving

variable [Memory M]

/-- A message is sent to the environment in a slot, and the sender reads that it was. -/
def sendsTo (d : Deed (State M) Action) (s : Slot) : Bool :=
  d.isCall .ipcTrySend fun cpu tf =>
    (d.before.resolve cpu tf.args.first false).toOption == some s &&
      (d.before.answer cpu tf).any (·.isOk)

/-- The environment in a slot asks for a message, and reads that its call was performed. -/
def asksAt (d : Deed (State M) Action) (s : Slot) : Bool :=
  d.isCall .ipcRecv fun cpu tf =>
    d.before.current cpu == some s && (d.before.answer cpu tf).any (·.isOk)

end Deed

/-! ## What becomes of a slot -/

/-- The same occupant in the same state, with the same inbox. -/
structure Env.Steady (e e' : Env) : Prop where
  status : e'.status = e.status
  lastId : e'.lastId = e.lastId
  inbox : e'.inbox = e.inbox

theorem Env.Steady.refl (e : Env) : Env.Steady e e := ⟨rfl, rfl, rfl⟩

theorem Env.Steady.of_frame (e : Env) (f : TrapFrame) : Env.Steady e { e with frame := f } :=
  ⟨rfl, rfl, rfl⟩

/-- **What becomes of a slot** when no message is asked for or delivered there. Its occupant goes, or
it gets one with an empty inbox, or its occupant stays with its inbox; and then, if it waits for a
message, it goes on waiting unless it is woken. -/
inductive Env.Passes (woken : Prop) (e e' : Env) : Prop
  | gone : e'.status = .free → Env.Passes woken e e'
  | born : e.status = .free → e'.inbox = {} → Env.Passes woken e e'
  | kept : (e'.status = .free ↔ e.status = .free) → e'.lastId = e.lastId → e'.inbox = e.inbox →
      (¬ woken → e.inbox.receiving = true → e.status = .notRunnable → e'.status = .notRunnable) →
      Env.Passes woken e e'

namespace Env.Passes

variable {woken : Prop} {e e' e₁ e₁' : Env}

theorem of_steady (h : Env.Steady e e') : Env.Passes woken e e' :=
  .kept (by rw [h.status]) h.lastId h.inbox fun _ _ hst => h.status.trans hst

theorem refl (e : Env) : Env.Passes woken e e := of_steady (.refl e)

theorem mono {woken' : Prop} (h : Env.Passes woken e e') (hw : woken → woken') :
    Env.Passes woken' e e' := by
  cases h with
  | gone hfree => exact .gone hfree
  | born hfree hinbox => exact .born hfree hinbox
  | kept hfree hid hinbox hwait => exact .kept hfree hid hinbox fun hn => hwait (mt hw hn)

/-- What stays steady before and after does not matter. -/
theorem between (hbefore : Env.Steady e e₁) (h : Env.Passes woken e₁ e₁')
    (hafter : Env.Steady e₁' e') : Env.Passes woken e e' := by
  cases h with
  | gone hfree => exact .gone (hafter.status.trans hfree)
  | born hfree hinbox => exact .born (hbefore.status.symm.trans hfree) (hafter.inbox.trans hinbox)
  | kept hfree hid hinbox hwait =>
    refine .kept ?_ (hafter.lastId.trans (hid.trans hbefore.lastId))
      (hafter.inbox.trans (hinbox.trans hbefore.inbox)) fun hw hrecv hst => ?_
    · rw [hafter.status, hfree, hbefore.status]
    · rw [hafter.status]
      exact hwait hw (hbefore.inbox ▸ hrecv) (hbefore.status.trans hst)

end Env.Passes

namespace State

variable {M : Type} {k k' : State M} {policy : Policy} {ncpu cpu : Nat} {m₀ : M} {s t : Slot}
  {tf : TrapFrame} {woken : Prop}

theorem steady_save (k : State M) (t s : Slot) (tf : TrapFrame) :
    Env.Steady (k.env s) ((k.save t tf).env s) :=
  rel_setEnv Env.Steady.refl k (.of_frame (k.env t) tf) s

theorem pgdir_save (k : State M) (t s : Slot) (tf : TrapFrame) :
    ((k.save t tf).env s).pgdir = (k.env s).pgdir := by
  rw [env_save]
  split
  · next h => rw [h]
  · rfl

theorem steady_setResult (k : State M) (t s : Slot) (w : UInt32) :
    Env.Steady (k.env s) ((k.setResult t w).env s) :=
  rel_setEnv Env.Steady.refl k (.of_frame (k.env t) _) s

theorem steady_conclude (k : State M) (t s : Slot) (c : Completion) :
    Env.Steady (k.env s) ((k.conclude t c).env s) := by
  cases c with
  | value v => exact steady_setResult k t s _
  | yielded => exact steady_setResult k t s _
  | exited => exact .refl _

theorem passes_occupy (ht : (k.env t).status = .free) (cpu : Nat) (parent : Option EnvId)
    (dir : PageDir) (mem : M) :
    Env.Passes woken (k.env s) ((k.occupy cpu t parent dir mem).env s) := by
  rw [env_occupy]
  split
  · next h =>
    rw [h]
    exact .born ht rfl
  · exact .refl _

/-- Who gets the CPU does not wait, nor does who had it. -/
theorem passes_running (ht : (k.env t).status.canRun = true) :
    Env.Passes woken (k.env s) ((k.running cpu t).env s) := by
  have hstays := stays_running k cpu (Status.ne_free_of_canRun ht) s
  rw [env_running] at hstays ⊢
  split at hstays
  · next h =>
    subst h
    rw [if_pos rfl]
    refine .kept hstays.free rfl rfl fun _ _ hst => ?_
    rw [hst] at ht
    cases ht
  · next h =>
    rw [if_neg h]
    split at hstays
    · next hran =>
      rw [if_pos hran]
      refine .kept hstays.free rfl rfl fun _ _ hst => ?_
      rw [hran.2] at hst
      cases hst
    · next hran =>
      rw [if_neg hran]
      exact .refl _

variable [Memory M]

theorem passes_free (k : State M) (t s : Slot) : Env.Passes woken (k.env s) ((k.free t).env s) := by
  rw [env_free]
  split
  · exact .gone rfl
  · exact .refl _

/-- Destroying an environment marks only one that runs. -/
theorem passes_destroy (k : State M) (cpu : Nat) (t s : Slot) :
    Env.Passes woken (k.env s) ((k.destroy cpu t).2.env s) := by
  rcases destroy_cases k cpu t with ⟨hfar, hk⟩ | ⟨-, hk⟩
  · rw [hk, env_setEnv]
    split
    · next h =>
      rw [h]
      refine .kept ?_ rfl rfl fun _ _ hst => ?_
      · simp [hfar.1]
      · rw [hfar.1] at hst
        cases hst
    · exact .refl _
  · rw [hk]
    exact passes_free k t s

/-- Making an environment, or not. -/
theorem Sound.passes_create (h : Sound policy ncpu k) (hcpu : cpu < ncpu) (image : Image)
    (s : Slot) : Ends (State.create image cpu) k fun _ k' => Env.Passes woken (k.env s) (k'.env s) := by
  refine ends_create (fun _ => .refl _) (fun _ _ _ => .refl _)
    (fun t dir mem e mem' ht _ _ => ?_) fun t dir mem entry mem' ht _ _ => ?_
  · obtain ⟨-, hother, hfree, -, -⟩ := h.free_occupy hcpu ht dir mem mem'
    by_cases hst : s = t
    · rw [hst]
      exact .gone hfree
    · rw [hother s hst]
      exact .refl _
  · have hfree := (h.head (h.queueOf_lt hcpu) ht).2
    rw [launch, env_mapEnv]
    change Env.Passes woken _ (if s = t then _ else (k.occupy cpu t none dir mem).env s)
    split
    · next hst =>
      rw [hst]
      refine .born hfree ?_
      change ((k.occupy cpu t none dir mem).env t).inbox = _
      rw [env_occupy, if_pos rfl]
      rfl
    · exact passes_occupy hfree cpu none dir mem

/-- **A call that is not about messages.** -/
theorem Performs.passes {a : Args} {call : Call} {c : Completion} (h : Performs k cpu a call c k')
    (hsound : Sound policy ncpu k) (hcpu : cpu < ncpu) (hsend : call ≠ .ipcTrySend)
    (hask : call ≠ .ipcRecv) (s : Slot) :
    Env.Passes
      (call = .envSetStatus ∧ k.resolve cpu a.first true = .ok s ∧
        settable? a.second = some .runnable ∧ (k.env s).inbox.receiving = true)
      (k.env s) (k'.env s) := by
  cases h with
  | getEnvId => exact .refl _
  | @envDestroy t text => exact passes_destroy (k.say .debug Log.Target.calls text) cpu t s
  | pageAlloc => exact .refl _
  | pageMap => exact .refl _
  | pageUnmap => exact .refl _
  | @exofork p t dir mem hp ht hdir =>
    have hfree := (hsound.head (hsound.queueOf_lt hcpu) ht).2
    rw [env_forked]
    split
    · next hst =>
      rw [hst]
      exact .born hfree rfl
    · exact .refl _
  | @envSetStatus t st hst ht =>
    rw [env_setEnv]
    split
    · next hs =>
      rw [hs]
      have hocc := hsound.resolve_ne_free hcpu ht
      rcases runnable_or_of_settable hst with rfl | rfl
      · refine .kept (by simp [hocc]) rfl rfl fun hwoken hrecv _ => ?_
        exact absurd ⟨rfl, ht, hst, hrecv⟩ hwoken
      · exact .kept (by simp [hocc]) rfl rfl fun _ _ _ => rfl
    · exact .refl _
  | @envSetUpcall t ht =>
    exact rel_setEnv .refl k (.of_steady ⟨rfl, rfl, rfl⟩) s
  | yieldCpu => exact .refl _
  | ipcTrySend => exact absurd rfl hsend
  | ipcRecv => exact absurd rfl hask
  | getCpuId => exact .refl _

/-! ## One deed -/

/-- **What a deed makes of a slot** as far as messages go, where it leads to the state `k'`. -/
inductive Turn (d : Deed (State M) Action) (s : Slot) (k' : State M) : Prop
  /-- No message is asked for or delivered there. -/
  | passes : d.sendsTo s = false → d.asksAt s = false →
      Env.Passes (d.wakes s = true) (d.before.env s) (k'.env s) → Turn d s k'
  /-- The occupant asks for a message, and waits. -/
  | asked {cpu : Nat} {tf : TrapFrame} : d.act = .syscall cpu tf → d.sendsTo s = false →
      d.asksAt s = true → (d.before.env s).status ≠ .free →
      Env.Steady (listening (d.before.env s) tf.args.first.toNat) (k'.env s) → Turn d s k'
  /-- The occupant is sent a message. -/
  | sent {cpu : Nat} {tf : TrapFrame} {sender : Slot} {next : Next} : d.act = .syscall cpu tf →
      d.sendsTo s = true → d.asksAt s = false → (d.before.env s).status ≠ .free →
      Sending d.before cpu tf sender s next k' → Turn d s k'

/-- A call nobody reads a good answer to is no call about messages. -/
theorem turn_of_unanswered (hanswer : (k.answer cpu tf).any (·.isOk) = false)
    (hs : Env.Steady (k.env s) (k'.env s)) : Turn ⟨k, .syscall cpu tf⟩ s k' := by
  refine .passes ?_ ?_ (.of_steady hs)
  · simp only [Deed.sendsTo, Deed.isCall, hanswer, Bool.and_false]
  · simp only [Deed.asksAt, Deed.isCall, hanswer, Bool.and_false]

namespace Sound

variable {p receiver : Slot} {k₁ : State M} (h : Sound policy ncpu k) (hcpu : cpu < ncpu)
  (hc : k.current cpu = some p)

include h hcpu hc

/-- **Sending** is a turn of the receiver's slot, and of no other. -/
theorem turn_of_delivery (hnumber : tf.eax = Call.ipcTrySend.number)
    (hd : Delivery (k.save p tf) cpu tf.args.first tf.args.second tf.args.third.toNat tf.args.fourth
      receiver k₁)
    (hk : k.syscall cpu tf = (.resume, k₁.setResult p 0)) (s : Slot) :
    Turn ⟨k, .syscall cpu tf⟩ s (k₁.setResult p 0) := by
  have hsaved : Sound policy ncpu (k.save p tf) := h.setEnv (.of_registers _ _ _)
  have hthere : (k₁.env p).status ≠ .free :=
    mt (hsaved.alike_of_delivery hcpu hd p).free.1 (hsaved.current_ne_free hcpu hc)
  have hanswer : k.answer cpu tf = some (.ok 0) := answer_of_setResult hc hk hthere
  have hraw : k.resolve cpu tf.args.first false = .ok receiver := by
    rw [← (sameNames_frame k p tf).resolve]
    exact hd.resolve_eq
  have hask : (⟨k, .syscall cpu tf⟩ : Deed (State M) Action).asksAt s = false :=
    Deed.isCall_of_ne hnumber (nofun : Call.ipcRecv ≠ .ipcTrySend) _
  by_cases hs : receiver = s
  · subst hs
    refine .sent rfl (Deed.isCall_iff.2 ⟨cpu, tf, rfl, hnumber, ?_⟩) hask
      (h.resolve_ne_free hcpu hraw) ⟨hnumber, hc, rfl, k₁, hd, rfl⟩
    simp only [hraw, hanswer, Except.toOption, BEq.rfl, Option.any_some, Bool.true_and]
    rfl
  · refine .passes ?_ hask
      (.between (steady_save k p s tf) (.of_steady ?_) (steady_setResult k₁ p s 0))
    · simp only [Deed.sendsTo, Deed.isCall, hraw, Except.toOption]
      simp [hs]
    · cases hd with
      | word => rw [env_deliver, if_neg (Ne.symm hs)]; exact .refl _
      | page => rw [env_deliver, if_neg (Ne.symm hs)]; exact .refl _

/-- **Asking** is a turn of the caller's slot, and of no other. -/
theorem turn_of_ipcRecv (hnumber : tf.eax = Call.ipcRecv.number)
    (hk₁ : k₁ = (k.save p tf).setEnv p (listening ((k.save p tf).env p) tf.args.first.toNat))
    (hk : k.syscall cpu tf = (.schedule, k₁.setResult p 0)) (s : Slot) :
    Turn ⟨k, .syscall cpu tf⟩ s (k₁.setResult p 0) := by
  have henv : ∀ t, k₁.env t =
      if t = p then listening ((k.save p tf).env p) tf.args.first.toNat
      else (k.save p tf).env t := by
    rw [hk₁]
    exact fun t => env_setEnv _ _ _ _
  have hanswer : k.answer cpu tf = some (.ok 0) := by
    refine answer_of_setResult hc hk ?_
    rw [henv, if_pos rfl]
    exact nofun
  have hsend : (⟨k, .syscall cpu tf⟩ : Deed (State M) Action).sendsTo s = false :=
    Deed.isCall_of_ne hnumber (nofun : Call.ipcTrySend ≠ .ipcRecv) _
  by_cases hs : p = s
  · subst hs
    refine .asked rfl hsend (Deed.isCall_iff.2 ⟨cpu, tf, rfl, hnumber, ?_⟩)
      (h.current_ne_free hcpu hc) ?_
    · simp only [hc, hanswer, BEq.rfl, Option.any_some, Bool.true_and]
      rfl
    · have hsteady := steady_setResult k₁ p p 0
      rw [henv, if_pos rfl, env_save, if_pos rfl] at hsteady
      exact ⟨hsteady.status, hsteady.lastId, hsteady.inbox⟩
  · refine .passes hsend ?_
      (.between (steady_save k p s tf) (.of_steady ?_) (steady_setResult k₁ p s 0))
    · simp only [Deed.asksAt, Deed.isCall, hc]
      simp [hs]
    · rw [henv, if_neg (Ne.symm hs)]
      exact .refl _

omit hc in
/-- **A call that is not about messages.** -/
theorem turn_of_performs {call : Call} {c : Completion} (hnumber : tf.eax = call.number)
    (hp : Performs (k.save p tf) cpu tf.args call c k₁) (hsend : call ≠ .ipcTrySend)
    (hask : call ≠ .ipcRecv) (s : Slot) : Turn ⟨k, .syscall cpu tf⟩ s (k₁.conclude p c) := by
  have hsaved : Sound policy ncpu (k.save p tf) := h.setEnv (.of_registers _ _ _)
  refine .passes (Deed.isCall_of_ne hnumber hsend.symm _) (Deed.isCall_of_ne hnumber hask.symm _)
    (.between (steady_save k p s tf) ((hp.passes hsaved hcpu hsend hask s).mono ?_)
      (steady_conclude k₁ p s c))
  rintro ⟨rfl, hraw, hst, hrecv⟩
  have hraw := ((sameNames_frame k p tf).resolve cpu tf.args.first true).symm.trans hraw
  rw [(steady_save k p s tf).inbox] at hrecv
  refine Deed.isCall_iff.2 ⟨cpu, tf, rfl, hnumber, ?_⟩
  simp only [hraw, hst, hrecv, Except.toOption, BEq.rfl, Bool.and_self]

end Sound

/-- **What a system call makes of a slot.** -/
theorem Sound.turn_syscall (h : Sound policy ncpu k) (hcpu : cpu < ncpu) (tf : TrapFrame)
    (s : Slot) : Turn ⟨k, .syscall cpu tf⟩ s (k.syscall cpu tf).2 := by
  have hnobody : k.current cpu = none → (k.answer cpu tf).any (·.isOk) = false := by
    intro hc
    simp only [answer, hc, Option.any_none]
  have hhandled := handled_syscall cpu tf k
  generalize hk : k.syscall cpu tf = p at hhandled
  obtain ⟨next, k'⟩ := p
  cases hhandled with
  | idle hc => exact turn_of_unanswered (hnobody hc) (.refl _)
  | @refused p e k₁ hc hr =>
    refine turn_of_unanswered ?_ ?_
    · rw [answer_of_refuses hc (h.current_ne_free hcpu hc) hr hk]
      rfl
    · have hafter := steady_setResult k₁ p s (encodeResult (.error e.toCallError))
      rw [hr.env_eq] at hafter
      have hbefore := steady_save k p s tf
      exact ⟨hafter.status.trans hbefore.status, hafter.lastId.trans hbefore.lastId,
        hafter.inbox.trans hbefore.inbox⟩
  | @performed p call c k₁ hc hnumber hp =>
    by_cases hsend : call = .ipcTrySend
    · subst hsend
      cases hp with
      | ipcTrySend hd => exact h.turn_of_delivery hcpu hc hnumber hd hk s
    by_cases hask : call = .ipcRecv
    · subst hask
      cases hp with
      | @ipcRecv t _ ht =>
        obtain rfl : p = t := Option.some.inj (hc.symm.trans ht)
        exact h.turn_of_ipcRecv hcpu hc hnumber rfl hk s
    exact h.turn_of_performs hcpu hnumber hp hsend hask s

/-- **What a step makes of a slot.** -/
theorem Sound.turn {a : Action} (h : Sound policy ncpu k) (hstep : Steps ncpu k a k') (s : Slot) :
    Turn ⟨k, a⟩ s k' := by
  obtain ⟨ha, hk'⟩ := hstep
  cases h.done ha hk' with
  | syscall hcpu tf => exact h.turn_syscall hcpu tf s
  | @alloc cpu hcpu parent =>
    have hends : Ends (State.alloc parent cpu) k fun _ k' =>
        Env.Passes False (k.env s) (k'.env s) :=
      ends_alloc (fun _ => .refl _) (fun _ _ _ => .refl _) fun t dir mem ht _ =>
        passes_occupy (h.head (h.queueOf_lt hcpu) ht).2 cpu parent dir mem
    exact .passes rfl rfl ((Op.of_ends hends).mono False.elim)
  | create hcpu image => exact .passes rfl rfl (Op.of_ends (h.passes_create hcpu image s))
  | destroy _ _ => exact .passes rfl rfl (passes_destroy k _ _ s)
  | gone hquiet _ =>
    exact .passes (Deed.isCall_of_quiet hquiet _) (Deed.isCall_of_quiet hquiet _) (passes_free k _ s)
  | ran hquiet _ _ hrun =>
    exact .passes (Deed.isCall_of_quiet hquiet _) (Deed.isCall_of_quiet hquiet _) (passes_running hrun)
  | still hquiet =>
    exact .passes (Deed.isCall_of_quiet hquiet _) (Deed.isCall_of_quiet hquiet _) (.refl _)

end State

end Exokernel
