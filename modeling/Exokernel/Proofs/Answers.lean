import Exokernel.Proofs.Changes
/-!
# What each call does

For every call the checks it makes, the answer it gives and the state it leaves: `Performs` when it is
not refused, `Refuses` when it is. A refusal leaves slots and queues as they were, and memory as far
as a failing operation of memory leaves it so. `answered_performNumber` says that there is no third
way for a call to end.
-/

namespace Exokernel

namespace State

variable {M : Type} {k k' : State M} {cpu : Nat} {a : Args}

/-- How a call that destroys an environment ends. -/
def endOf : Disposal → Completion
  | .freedCurrent => .exited
  | .freed | .deferred => .value 0

/-- The slot of the environment that is to wait for a message, with a page wanted at `dstva`. -/
def listening (e : Env) (dstva : Nat) : Env :=
  { e with
    inbox := { e.inbox with receiving := true, dstva := dstva }
    status := .notRunnable
    frame := { e.frame with eax := 0 } }

/-- The slot of a child: a new occupant with the registers of its parent and 0 for a result. -/
theorem env_forked (p s t : Slot) (dir : PageDir) (mem : M) :
    (k.forked cpu p s dir mem).env t =
      if t = s then
        { occupied (k.env s) s (k.env p).id dir with
          frame := { ((k.occupy cpu s (k.env p).id dir mem).env p).frame with eax := 0 } }
      else k.env t := by
  simp only [forked, env_mapEnv]
  split
  · rw [env_occupy k cpu s s, if_pos rfl]
  · next ht => rw [env_occupy, if_neg ht]

variable [Memory M]

/-- **A call that is not refused**: what was checked, how it ends and the state it leaves. -/
inductive Performs (k : State M) (cpu : Nat) (a : Args) : Call → Completion → State M → Prop
  | getEnvId {id : EnvId} : k.currentId cpu = some id →
      Performs k cpu a .getEnvId (.value id.raw) k
  | envDestroy {s : Slot} {text : String} : k.resolve cpu a.first true = .ok s →
      Performs k cpu a .envDestroy (endOf (destroy cpu s (k.say .debug Log.Target.calls text)).1)
        (destroy cpu s (k.say .debug Log.Target.calls text)).2
  | pageAlloc {s : Slot} {perm : Perm} {page : PhysPage} {mem mem' : M} :
      k.resolve cpu a.first true = .ok s → isUserPage a.second.toNat →
      Perm.ofUser? a.third = some perm → Memory.allocPage k.memory = .ok page mem →
      Memory.insert (k.env s).pgdir page a.second.toNat perm mem = .ok () mem' →
      Performs k cpu a .pageAlloc (.value 0) { k with memory := mem' }
  | pageMap {src dst : Slot} {perm : Perm} {page : PhysPage} {mem : M} :
      k.resolve cpu a.first true = .ok src → k.resolve cpu a.third true = .ok dst →
      isUserPage a.second.toNat → isUserPage a.fourth.toNat → Perm.ofUser? a.fifth = some perm →
      k.shareable (k.env src).pgdir a.second.toNat perm = some page →
      Memory.insert (k.env dst).pgdir page a.fourth.toNat perm k.memory = .ok () mem →
      Performs k cpu a .pageMap (.value 0) { k with memory := mem }
  | pageUnmap {s : Slot} : k.resolve cpu a.first true = .ok s → isUserPage a.second.toNat →
      Performs k cpu a .pageUnmap (.value 0)
        { k with memory := Memory.remove (k.env s).pgdir a.second.toNat k.memory }
  | exofork {p s : Slot} {dir : PageDir} {mem : M} : k.current cpu = some p →
      (k.runQueue cpu).freeHead = some s → Memory.createSpace k.memory = .ok dir mem →
      Performs k cpu a .exofork (.value (EnvId.next (k.env s).lastId s).raw)
        (k.forked cpu p s dir mem)
  | envSetStatus {s : Slot} {st : Status} : settable? a.second = some st →
      k.resolve cpu a.first true = .ok s →
      Performs k cpu a .envSetStatus (.value 0) (k.setEnv s { k.env s with status := st })
  | envSetUpcall {s : Slot} : k.resolve cpu a.first true = .ok s →
      Performs k cpu a .envSetUpcall (.value 0)
        (k.setEnv s { k.env s with upcall := a.second.toNat })
  | yieldCpu : Performs k cpu a .yieldCpu .yielded k
  | ipcTrySend {receiver : Slot} {k' : State M} :
      Delivery k cpu a.first a.second a.third.toNat a.fourth receiver k' →
      Performs k cpu a .ipcTrySend (.value 0) k'
  | ipcRecv {s : Slot} :
      ¬ (a.first.toNat < Layout.userTop ∧ a.first.toNat % Layout.pageSize ≠ 0) →
      k.current cpu = some s →
      Performs k cpu a .ipcRecv .yielded (k.setEnv s (listening (k.env s) a.first.toNat))
  | getCpuId : Performs k cpu a .getCpuId (.value (UInt32.ofNat cpu)) k

/-- **A call that is refused**, and what it leaves: a check fails before anything is done, or an
operation of memory does. -/
inductive Refuses (k : State M) (cpu : Nat) : KernelError → State M → Prop
  | check {e : KernelError} : Refuses k cpu e k
  /-- There is no call of that number, which is said. -/
  | unknown (text : String) : Refuses k cpu .invalidArgument (k.say .warn Log.Target.calls text)
  /-- There is no directory for a child. -/
  | noSpace {e : MemoryError} {mem : M} : Memory.createSpace k.memory = .error e mem →
      Refuses k cpu (.memory e) { k with memory := mem }
  /-- There is no new page. -/
  | noPage {e : MemoryError} {mem : M} : Memory.allocPage k.memory = .error e mem →
      Refuses k cpu (.memory e) { k with memory := mem }
  /-- A new page cannot be mapped, and is given back. -/
  | unsupplied {s : Slot} {va : Nat} {raw : UInt32} {perm : Perm} {page : PhysPage}
      {e : MemoryError} {mem mem' : M} :
      k.Governs cpu s → isUserPage va → Perm.ofUser? raw = some perm →
      Memory.allocPage k.memory = .ok page mem →
      Memory.insert (k.env s).pgdir page va perm mem = .error e mem' →
      Refuses k cpu (.memory e) { k with memory := Memory.freePage page mem' }
  /-- A page that is mapped elsewhere cannot be mapped here. -/
  | unshared {raw : UInt32} {check : Bool} {s : Slot} {va : Nat} {perm : Perm} {page : PhysPage}
      {e : MemoryError} {mem : M} :
      k.resolve cpu raw check = .ok s → k.AtHand cpu page →
      Memory.insert (k.env s).pgdir page va perm k.memory = .error e mem →
      Refuses k cpu (.memory e) { k with memory := mem }

/-- The end of a call: it was performed or refused. -/
def Answered (k : State M) (cpu : Nat) (a : Args) (call : Call) :
    Except KernelError Completion → State M → Prop
  | .ok c, k' => Performs k cpu a call c k'
  | .error e, k' => Refuses k cpu e k'

/-! ## The arguments of a call -/

section Arguments

omit [Memory M]

theorem ends_target {raw : UInt32} {Q : Except KernelError Slot → State M → Prop}
    (hok : ∀ s, k.resolve cpu raw true = .ok s → Q (.ok s) k) (herror : ∀ e, Q (.error e) k) :
    Ends (target cpu raw) k Q := by
  simp only [target, Ends.bind_iff, Ends.get_iff, Op.ends_ofExcept]
  cases h : k.resolve cpu raw true with
  | ok s => exact hok s h
  | error e => exact herror e

theorem ends_userPage {va : UInt32} {Q : Except KernelError Nat → State M → Prop}
    (hok : isUserPage va.toNat → Q (.ok va.toNat) k) (herror : ∀ e, Q (.error e) k) :
    Ends (userPage va) k Q := by
  simp only [userPage, Ends.ite_iff, Ends.pure_iff, Ends.throw_iff]
  exact ⟨hok, fun _ => herror _⟩

theorem ends_userPerm {raw : UInt32} {Q : Except KernelError Perm → State M → Prop}
    (hok : ∀ perm, Perm.ofUser? raw = some perm → Q (.ok perm) k) (herror : ∀ e, Q (.error e) k) :
    Ends (userPerm raw) k Q := by
  simp only [userPerm, Op.ends_ofOption]
  exact ⟨hok, fun _ => herror _⟩

end Arguments

/-! ## Each call -/

theorem answered_getEnvId : Ends (perform cpu .getEnvId a) k (Answered k cpu a .getEnvId) := by
  simp only [perform, getEnvId, Ends.map_iff, Ends.bind_iff, Ends.get_iff, Op.ends_ofOption,
    Ends.pure_iff]
  exact ⟨fun _ hid => .getEnvId hid, fun _ => .check⟩

/-- **Destroying an environment**: the one the word names is destroyed, and nothing else is
checked. -/
theorem ends_envDestroy {victim : Slot} (h : k.resolve cpu a.first true = .ok victim) :
    Ends (perform cpu .envDestroy a) k fun r k' =>
      ∃ text, r = .ok (endOf (destroy cpu victim (k.say .debug Log.Target.calls text)).1) ∧
        k' = (destroy cpu victim (k.say .debug Log.Target.calls text)).2 := by
  simp only [perform, envDestroy, target, Ends.bind_iff, Ends.get_iff, Op.ends_ofExcept, h,
    Ends.set_iff]
  -- what is said on the way does not matter for what is done
  generalize ("[" ++ EnvId.textOrZero (k.currentId cpu) ++ "]" ++ _ : String) = text
  cases hd : (destroy cpu victim (k.say .debug Log.Target.calls text)).1 <;>
    exact ⟨text, by rw [hd]; rfl, rfl⟩

theorem answered_envDestroy : Ends (perform cpu .envDestroy a) k (Answered k cpu a .envDestroy) := by
  cases hraw : k.resolve cpu a.first true with
  | error e =>
    simp only [perform, envDestroy, target, Ends.bind_iff, Ends.get_iff, Op.ends_ofExcept, hraw]
    exact .check
  | ok victim =>
    refine (ends_envDestroy hraw).imp fun r k' h => ?_
    obtain ⟨text, rfl, rfl⟩ := h
    exact .envDestroy hraw

theorem answered_pageAlloc : Ends (perform cpu .pageAlloc a) k (Answered k cpu a .pageAlloc) := by
  simp only [perform, perform.done, pageAlloc, Ends.bind_iff]
  refine ends_target (fun s hs => ends_userPage (fun hva => ends_userPerm (fun p hp => ?_) ?_) ?_) ?_
  case refine_1 =>
    simp only [Ends.get_iff, Op.ends_onMemory, Op.ends_attempt]
    refine ⟨fun page mem hpage => ⟨?_, ?_⟩, fun e mem h => .noPage h⟩
    · intro _ mem' h
      exact .pageAlloc hs hva hp hpage h
    · intro e mem' h
      exact .unsupplied ⟨_, hs⟩ hva hp hpage h
  all_goals exact fun e => .check

theorem answered_pageMap : Ends (perform cpu .pageMap a) k (Answered k cpu a .pageMap) := by
  simp only [perform, perform.done, pageMap, Ends.bind_iff]
  refine ends_target (fun src hsrc => ends_target (fun dst hdst => ends_userPage (fun hsrcva =>
    ends_userPage (fun hdstva => ends_userPerm (fun p hp => ?_) ?_) ?_) ?_) ?_) ?_
  case refine_1 =>
    simp only [Ends.get_iff, Op.ends_ofOption, Op.ends_onMemory]
    refine ⟨fun page hpage => ⟨fun _ mem h => ?_, fun e mem h => ?_⟩, fun _ => .check⟩
    · exact .pageMap hsrc hdst hsrcva hdstva hp hpage h
    · exact .unshared hdst (atHand_of_shareable ⟨_, hsrc⟩ hpage) h
  all_goals exact fun e => .check

theorem answered_pageUnmap : Ends (perform cpu .pageUnmap a) k (Answered k cpu a .pageUnmap) := by
  simp only [perform, perform.done, pageUnmap, Ends.bind_iff]
  exact ends_target (fun s hs => ends_userPage (fun hva => .pageUnmap hs hva) fun e => .check)
    fun e => .check

/-- **Making a child.** -/
theorem answered_exofork : Ends (perform cpu .exofork a) k (Answered k cpu a .exofork) := by
  simp only [perform, exofork, Ends.map_iff, Ends.bind_iff, Ends.get_iff, Op.ends_ofOption]
  refine ⟨fun p hp => ends_alloc (fun _ => .check) (fun e mem h => .noSpace h)
    fun s dir mem hs hdir => ?_, fun _ => .check⟩
  have hid : ((k.forked cpu p s dir mem).env s).id = some (EnvId.next (k.env s).lastId s) := by
    rw [env_forked, if_pos rfl]
    rfl
  simp only [Ends.modify_iff, Ends.pure_iff]
  refine ⟨fun id hid' => ?_, fun hn => ?_⟩
  · rw [← Option.some.inj (hid.symm.trans hid')]
    exact .exofork hp hs hdir
  · cases hid.symm.trans hn

theorem answered_envSetStatus :
    Ends (perform cpu .envSetStatus a) k (Answered k cpu a .envSetStatus) := by
  simp only [perform, perform.done, setStatus, Ends.bind_iff, Op.ends_ofOption]
  exact ⟨fun st hst => ends_target (fun s hs => .envSetStatus hst hs) fun e => .check,
    fun _ => .check⟩

theorem answered_envSetUpcall :
    Ends (perform cpu .envSetUpcall a) k (Answered k cpu a .envSetUpcall) := by
  simp only [perform, perform.done, setUpcall, Ends.bind_iff]
  exact ends_target (fun s hs => .envSetUpcall hs) fun e => .check

/-- **Sending a message**: it is delivered, or the sending is refused. -/
theorem ends_ipcTrySend {target value perm : UInt32} {srcva : Nat} :
    Ends (ipcTrySend cpu target value srcva perm) k fun r k' =>
      match r with
      | .ok _ => ∃ receiver, Delivery k cpu target value srcva perm receiver k'
      | .error e => Refuses k cpu e k' := by
  simp only [ipcTrySend, Ends.bind_iff, Ends.get_iff, Op.ends_ofOption,
    Op.ends_ofExcept, Ends.ite_iff, Ends.throw_iff]
  refine ⟨fun sender hsender => ?_, fun _ => .check⟩
  cases hr : k.resolve cpu target false with
  | error e => exact .check
  | ok receiver =>
    refine ⟨fun _ => .check, fun hrecv => ?_⟩
    have hrecv : (k.env receiver).inbox.receiving = true := by simpa using hrecv
    cases ho : k.offered sender srcva perm with
    | error e => exact .check
    | ok offer =>
      cases offer with
      | none => exact ⟨receiver, .word hsender hr hrecv ho (.inl rfl)⟩
      | some x =>
        obtain ⟨page, granted⟩ := x
        simp only [handOver, Ends.bind_iff, Ends.get_iff, Ends.ite_iff, Op.ends_onMemory,
          Ends.pure_iff, Ends.modify_iff]
        refine ⟨fun hdst => ⟨fun _ mem h => ?_, fun e mem h => ?_⟩, fun hdst => ?_⟩
        · exact ⟨receiver, .page hsender hr hrecv ho hdst h⟩
        · exact .unshared hr (atHand_of_offered hsender ho) h
        · exact ⟨receiver, .word hsender hr hrecv ho (.inr hdst)⟩

theorem answered_ipcTrySend : Ends (perform cpu .ipcTrySend a) k (Answered k cpu a .ipcTrySend) := by
  simp only [perform, perform.done, Ends.bind_iff, Ends.pure_iff]
  refine ends_ipcTrySend.imp fun r k' h => ?_
  cases r with
  | ok u =>
    obtain ⟨receiver, hd⟩ := h
    exact .ipcTrySend hd
  | error e => exact h

/-- **Waiting for a message.** -/
theorem ends_ipcRecv {dstva : Nat} :
    Ends (ipcRecv cpu dstva) k fun r k' =>
      match r with
      | .ok _ => ¬ (dstva < Layout.userTop ∧ dstva % Layout.pageSize ≠ 0) ∧
        ∃ s, k.current cpu = some s ∧ k' = k.setEnv s (listening (k.env s) dstva)
      | .error e => Refuses k cpu e k' := by
  simp only [ipcRecv, Ends.ite_iff, Ends.bind_iff, Ends.throw_iff, Ends.get_iff,
    Op.ends_ofOption, Ends.modify_iff]
  exact ⟨fun _ => .check, fun hva => ⟨fun s hs => ⟨hva, s, hs, rfl⟩, fun _ => .check⟩⟩

theorem answered_ipcRecv : Ends (perform cpu .ipcRecv a) k (Answered k cpu a .ipcRecv) := by
  simp only [perform, Ends.bind_iff, Ends.pure_iff]
  refine ends_ipcRecv.imp fun r k' h => ?_
  cases r with
  | ok u =>
    obtain ⟨hva, s, hs, rfl⟩ := h
    exact .ipcRecv hva hs
  | error e => exact h

/-- **Performing a call**, with any arguments. -/
theorem answered_perform (call : Call) : Ends (perform cpu call a) k (Answered k cpu a call) := by
  cases call with
  | getEnvId => exact answered_getEnvId
  | envDestroy => exact answered_envDestroy
  | pageAlloc => exact answered_pageAlloc
  | pageMap => exact answered_pageMap
  | pageUnmap => exact answered_pageUnmap
  | exofork => exact answered_exofork
  | envSetStatus => exact answered_envSetStatus
  | envSetUpcall => exact answered_envSetUpcall
  | yieldCpu => exact .yieldCpu
  | ipcTrySend => exact answered_ipcTrySend
  | ipcRecv => exact answered_ipcRecv
  | getCpuId => exact .getCpuId

/-- **Performing a call by its number**, which may be of no call. -/
theorem answered_performNumber {number : UInt32} :
    Ends (performNumber cpu number a) k fun r k' =>
      match r with
      | .ok c => ∃ call : Call, number = call.number ∧ Performs k cpu a call c k'
      | .error e => Refuses k cpu e k' := by
  unfold performNumber
  cases hcall : Call.ofNumber? number with
  | none => exact .unknown _
  | some call =>
    have hnumber : number = call.number := by
      simpa [eq_comm] using List.find?_some hcall
    refine (answered_perform call).imp fun r k' h => ?_
    cases r with
    | ok c => exact ⟨call, hnumber, h⟩
    | error e => exact h

end State

end Exokernel
