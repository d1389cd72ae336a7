import Exokernel.Proofs.Answers
/-!
# The system calls, change by change

Each call but two is a sequence of changes, and the environment that makes it stays the one the CPU
runs. The two are the call that destroys an environment, after which the caller may be gone, and the
one that delivers a message (`Performs.cases`). `handled_syscall` puts the calls between the saving of
the caller's registers and the writing of the result, and `syscall_cases` says what that makes of a
whole system call.
-/

namespace Exokernel

/-- What comes after a call that was not refused. -/
def Completion.next : Completion → Next
  | .value _ => .resume
  | .yielded | .exited => .schedule

namespace State

variable {M : Type} {k k' : State M} {cpu : Nat} {s : Slot} {a : Args} {tf : TrapFrame}

/-- The state in which the registers of a slot's environment are saved. -/
def save (k : State M) (s : Slot) (tf : TrapFrame) : State M :=
  k.setEnv s { k.env s with frame := tf }

theorem env_save (k : State M) (s t : Slot) (tf : TrapFrame) :
    (k.save s tf).env t = if t = s then { k.env s with frame := tf } else k.env t :=
  env_setEnv k s t _

theorem env_setResult (k : State M) (s t : Slot) (w : UInt32) :
    (k.setResult s w).env t =
      if t = s then { k.env s with frame := { (k.env s).frame with eax := w } } else k.env t :=
  env_mapEnv k s t _

/-- The state in which the caller in slot `s` finds how its call ended. -/
def conclude (k : State M) (s : Slot) : Completion → State M
  | .value v => k.setResult s (encodeResult (.ok v))
  | .yielded => k.setResult s 0
  | .exited => k

variable [Memory M]

/-- The CPU makes a sequence of changes and goes on running the same environment. -/
structure Proceeds (cpu : Nat) (k k' : State M) : Prop where
  changes : Changes cpu k k'
  current : k'.current cpu = k.current cpu

theorem Proceeds.refl (k : State M) : Proceeds cpu k k := ⟨.refl, rfl⟩

theorem Proceeds.single (h : Change cpu k k') (hc : k'.current cpu = k.current cpu) :
    Proceeds cpu k k' :=
  ⟨.single h, hc⟩

/-! ## Each call -/

/-- A call that is refused goes on like any other. -/
theorem Refuses.proceeds {e : KernelError} (h : Refuses k cpu e k') : Proceeds cpu k k' := by
  cases h with
  | check => exact .refl k
  | unknown text => exact .single (.speak _ _ _) rfl
  | noSpace h => exact .single (.touch (.noSpace h)) rfl
  | noPage h => exact .single (.touch (.noPage h)) rfl
  | unsupplied hs hva hp hpage h => exact .single (.touch (.unsupplied hs hva hp hpage h)) rfl
  | @unshared _ check _ _ _ _ _ _ hs hpage h =>
    cases check with
    | true => exact .single (.touch (.unshared ⟨_, hs⟩ hpage h)) rfl
    | false => exact .single (.touch (.undelivered hs hpage h)) rfl

/-- An environment is made runnable or not runnable by a call, no more. -/
theorem runnable_or_of_settable {n : UInt32} {st : Status} (h : settable? n = some st) :
    st = .runnable ∨ st = .notRunnable := by
  unfold settable? at h
  split at h
  · exact .inl (Option.some.inj h).symm
  · exact .inr (Option.some.inj h).symm
  · cases h

/-- **A call that is performed** makes a sequence of changes and leaves the caller running, or it
destroys an environment, or it delivers a message. -/
theorem Performs.cases {call : Call} {c : Completion} (h : Performs k cpu a call c k') :
    Proceeds cpu k k' ∧ c ≠ .exited ∨
      (call = .envDestroy ∧
        ∃ victim text, k.resolve cpu a.first true = .ok victim ∧
          k' = (destroy cpu victim (k.say .debug Log.Target.calls text)).2 ∧
          (c = .exited ∨ c = .value 0 ∧ k'.current cpu = k.current cpu)) ∨
      call = .ipcTrySend ∧ c = .value 0 ∧
        ∃ receiver, Delivery k cpu a.first a.second a.third.toNat a.fourth receiver k' := by
  cases h with
  | getEnvId => exact .inl ⟨.refl k, nofun⟩
  | @envDestroy victim text hraw =>
    refine .inr (.inl ⟨rfl, victim, text, hraw, rfl, ?_⟩)
    have hcur : (k.say .debug Log.Target.calls text).current cpu = k.current cpu := rfl
    rw [← hcur]
    cases hd : (destroy cpu victim (k.say .debug Log.Target.calls text)).1 with
    | freedCurrent => exact .inl rfl
    | freed => exact .inr ⟨rfl, current_destroy (by rw [hd]; exact nofun)⟩
    | deferred => exact .inr ⟨rfl, current_destroy (by rw [hd]; exact nofun)⟩
  | pageAlloc hs hva hp hpage h =>
    exact .inl ⟨.single (.touch (.supplied ⟨_, hs⟩ hva hp hpage h)) rfl, nofun⟩
  | pageMap hsrc hdst hsrcva hdstva hp hpage h =>
    exact .inl
      ⟨.single (.touch (.shared ⟨_, hsrc⟩ ⟨_, hdst⟩ hsrcva hdstva hp hpage h)) rfl, nofun⟩
  | pageUnmap hs hva => exact .inl ⟨.single (.touch (.removed ⟨_, hs⟩ hva)) rfl, nofun⟩
  | @exofork p s dir mem hp hs hdir =>
    exact .inl ⟨.single (.fork hp hs hdir) (current_occupy k cpu s (k.env p).id dir mem cpu), nofun⟩
  | envSetStatus hst hs =>
    exact .inl ⟨.single (.amend (.status ⟨_, hs⟩ (runnable_or_of_settable hst))) rfl, nofun⟩
  | envSetUpcall hs => exact .inl ⟨.single (.amend (.upcall _ ⟨_, hs⟩)) rfl, nofun⟩
  | yieldCpu => exact .inl ⟨.refl k, nofun⟩
  | ipcTrySend hd => exact .inr (.inr ⟨rfl, rfl, _, hd⟩)
  | ipcRecv _ hs => exact .inl ⟨.single (.amend (.listen _ hs)) rfl, nofun⟩
  | getCpuId => exact .inl ⟨.refl k, nofun⟩

/-- Who runs where is not part of a message. -/
theorem Delivery.current {target value perm : UInt32} {srcva : Nat} {receiver : Slot}
    (h : Delivery k cpu target value srcva perm receiver k') (c : Nat) :
    k'.current c = k.current c := by
  cases h <;> rfl

/-- A message goes to whom its word names. -/
theorem Delivery.resolve_eq {target value perm : UInt32} {srcva : Nat} {receiver : Slot}
    (h : Delivery k cpu target value srcva perm receiver k') :
    k.resolve cpu target false = .ok receiver := by
  cases h with
  | word _ hr => exact hr
  | page _ hr => exact hr

/-! ## A whole system call -/

/-- **How a system call is handled**: there is nobody to make it; or it is refused and the caller
finds the error; or it is performed on the registers it saved and the caller finds how it ended. -/
inductive Handled (k : State M) (cpu : Nat) (tf : TrapFrame) : Next → State M → Prop
  | idle : k.current cpu = none → Handled k cpu tf .schedule k
  | refused {s : Slot} {e : KernelError} {k' : State M} : k.current cpu = some s →
      Refuses (k.save s tf) cpu e k' →
      Handled k cpu tf .resume (k'.setResult s (encodeResult (.error e.toCallError)))
  | performed {s : Slot} {call : Call} {c : Completion} {k' : State M} : k.current cpu = some s →
      tf.eax = call.number → Performs (k.save s tf) cpu tf.args call c k' →
      Handled k cpu tf c.next (k'.conclude s c)

/-- With an environment there to make it, the call is performed on its saved registers. -/
theorem syscall_of_ok {c : Completion} (hc : k.current cpu = some s)
    (hop : performNumber cpu tf.eax tf.args (k.save s tf) = .ok c k') :
    k.syscall cpu tf = (c.next, k'.conclude s c) := by
  have hop : performNumber cpu tf.eax tf.args (k.mapEnv s fun e => { e with frame := tf }) =
      .ok c k' := hop
  unfold syscall
  simp only [hc, hop]
  cases c <;> rfl

/-- The same of a call that is refused. -/
theorem syscall_of_error {e : KernelError} (hc : k.current cpu = some s)
    (hop : performNumber cpu tf.eax tf.args (k.save s tf) = .error e k') :
    k.syscall cpu tf = (.resume, k'.setResult s (encodeResult (.error e.toCallError))) := by
  have hop : performNumber cpu tf.eax tf.args (k.mapEnv s fun e => { e with frame := tf }) =
      .error e k' := hop
  unfold syscall
  simp only [hc, hop]

/-- **Every system call is handled so**, whatever its registers. -/
theorem handled_syscall (cpu : Nat) (tf : TrapFrame) (k : State M) :
    Handled k cpu tf (k.syscall cpu tf).1 (k.syscall cpu tf).2 := by
  cases hc : k.current cpu with
  | none =>
    unfold syscall
    rw [hc]
    exact .idle hc
  | some s =>
    have hends := @answered_performNumber M (k.save s tf) cpu tf.args _ tf.eax
    cases hop : performNumber cpu tf.eax tf.args (k.save s tf) with
    | error e k' =>
      rw [syscall_of_error hc hop]
      exact .refused hc (hends.of_error hop)
    | ok c k' =>
      obtain ⟨call, hnumber, h⟩ := hends.of_ok hop
      rw [syscall_of_ok hc hop]
      exact .performed hc hnumber h

/-- The system call is the destruction of an environment. -/
structure Destruction (k : State M) (cpu : Nat) (tf : TrapFrame) (victim : Slot) (next : Next)
    (k' : State M) : Prop where
  number : tf.eax = Call.envDestroy.number
  ends : ∃ s text k₁, k.current cpu = some s ∧
    (k.save s tf).resolve cpu tf.args.first true = .ok victim ∧
    k₁ = (destroy cpu victim ((k.save s tf).say .debug Log.Target.calls text)).2 ∧
    (next = .schedule ∧ k' = k₁ ∨
      next = .resume ∧ k₁.current cpu = some s ∧ k' = k₁.setResult s 0)

/-- The system call is the delivery of a message. -/
structure Sending (k : State M) (cpu : Nat) (tf : TrapFrame) (sender receiver : Slot) (next : Next)
    (k' : State M) : Prop where
  number : tf.eax = Call.ipcTrySend.number
  current : k.current cpu = some sender
  next_eq : next = .resume
  ends : ∃ k₁, Delivery (k.save sender tf) cpu tf.args.first tf.args.second tf.args.third.toNat
    tf.args.fourth receiver k₁ ∧ k' = k₁.setResult sender 0

theorem Sending.resolve_eq {sender receiver : Slot} {next : Next}
    (h : Sending k cpu tf sender receiver next k') :
    k.resolve cpu tf.args.first false = .ok receiver := by
  obtain ⟨k₁, hd, -⟩ := h.ends
  rw [← (sameNames_frame k sender tf).resolve]
  exact hd.resolve_eq

/-- **A system call** saves the caller's registers, makes a sequence of changes and leaves the
result in them; or it destroys an environment; or it delivers a message. -/
theorem syscall_cases (cpu : Nat) (tf : TrapFrame) (k : State M) :
    Changes cpu k (k.syscall cpu tf).2 ∨
      (∃ victim, Destruction k cpu tf victim (k.syscall cpu tf).1 (k.syscall cpu tf).2) ∨
      ∃ s receiver, Sending k cpu tf s receiver (k.syscall cpu tf).1 (k.syscall cpu tf).2 := by
  -- the result is written into the frame of the environment that is still running
  have hresult : ∀ {s : Slot} (w : UInt32) {k' : State M}, k.current cpu = some s →
      Proceeds cpu (k.save s tf) k' → Changes cpu k (k'.setResult s w) := fun w k' hc h =>
    .tail (.head (.amend (.save tf hc)) h.changes) (.amend (.save _ (h.current.trans hc)))
  have hhandled := handled_syscall cpu tf k
  generalize k.syscall cpu tf = p at hhandled
  obtain ⟨next, k'⟩ := p
  cases hhandled with
  | idle => exact .inl .refl
  | refused hc h => exact .inl (hresult _ hc h.proceeds)
  | @performed s call c k' hc hnumber h =>
    rcases h.cases with ⟨hgoes, hc'⟩ | ⟨rfl, victim, text, hraw, hk', hend⟩ | ⟨rfl, rfl, receiver, hd⟩
    · refine .inl ?_
      cases c with
      | value v => exact hresult _ hc hgoes
      | yielded => exact hresult _ hc hgoes
      | exited => exact absurd rfl hc'
    · refine .inr (.inl ⟨victim, hnumber, s, text, k', hc, hraw, hk', ?_⟩)
      rcases hend with rfl | ⟨rfl, hcur⟩
      · exact .inl ⟨rfl, rfl⟩
      · exact .inr ⟨rfl, hcur.trans hc, rfl⟩
    · exact .inr (.inr ⟨s, receiver, hnumber, hc, rfl, k', hd, rfl⟩)

/-- **The call that destroys** does so when its first word names an environment the caller has
authority over. -/
theorem destruction_of_resolve {victim : Slot} (hnumber : tf.eax = Call.envDestroy.number)
    (hraw : k.resolve cpu tf.args.first true = .ok victim) :
    Destruction k cpu tf victim (k.syscall cpu tf).1 (k.syscall cpu tf).2 := by
  obtain ⟨s, hc⟩ := exists_current_of_resolve hraw
  have hsaved : (k.save s tf).resolve cpu tf.args.first true = .ok victim :=
    ((sameNames_frame k s tf).resolve cpu _ true).trans hraw
  have hcall : performNumber cpu tf.eax tf.args (k.save s tf) =
      perform cpu .envDestroy tf.args (k.save s tf) := by
    rw [hnumber, performNumber, Call.ofNumber?_number]
  have hends := ends_envDestroy hsaved
  cases hop : perform cpu .envDestroy tf.args (k.save s tf) with
  | error e k' =>
    obtain ⟨_, hr, -⟩ := hends.of_error hop
    cases hr
  | ok c k' =>
    obtain ⟨text, hr, hk'⟩ := hends.of_ok hop
    rw [syscall_of_ok hc (hcall.trans hop)]
    have hsaid : ((k.save s tf).say .debug Log.Target.calls text).current cpu = some s := hc
    have hcur := @current_destroy _ _ ((k.save s tf).say .debug Log.Target.calls text) cpu victim
    refine ⟨hnumber, s, text, k', hc, hsaved, hk', ?_⟩
    cases hd : (destroy cpu victim ((k.save s tf).say .debug Log.Target.calls text)).1 with
    | freedCurrent =>
      rw [hd] at hr
      cases hr
      exact .inl ⟨rfl, rfl⟩
    | freed | deferred =>
      rw [hd] at hr hcur
      cases hr
      refine .inr ⟨rfl, ?_, rfl⟩
      rw [hk', hcur nofun, hsaid]

end State

end Exokernel
