import Exokernel.Proofs.Tandem
/-!
# The calls in two runs

A call made in two states of a pairing ends with the same result in both, in states of the pairing
again: everything a call reads is memory, the CPU's run queue, a slot the CPU may write to or what
the states agree on of the other slots. It writes to slots of the pairing as long as what its
environment governs, a slot that is free to take and the receiver of a message are such
(`alike_perform`). What holds of the calls holds of a whole system call (`syscall`).
-/

namespace Exokernel

namespace State

variable {M : Type} {p : Pairing M} {k l : State M} {a : Args}

/-- **What the CPU's environment may act on** is of the pairing and belongs to the CPU. -/
def Pairing.Governs (p : Pairing M) (k : State M) : Prop :=
  ∀ s, k.Governs p.cpu s → p.here s ∧ (k.env s).cpu.val = p.cpu

/-- So is the slot the CPU would take for a new environment. -/
def Pairing.Room (p : Pairing M) (k : State M) : Prop :=
  ∀ s, (k.runQueue p.cpu).freeHead = some s → p.here s ∧ (k.env s).cpu.val = p.cpu

/-- Saving registers moves no slot. -/
theorem cpu_save (k : State M) (s t : Slot) (tf : TrapFrame) :
    ((k.save s tf).env t).cpu = (k.env t).cpu := by
  rw [env_save]
  split
  · next ht => rw [ht]
  · rfl

theorem Pairing.Governs.save (h : p.Governs k) (s : Slot) (tf : TrapFrame) :
    p.Governs (k.save s tf) := by
  intro t ht
  rw [cpu_save]
  exact h t ((sameNames_frame k s tf).governs.1 ht)

theorem Pairing.Room.save (h : p.Room k) (s : Slot) (tf : TrapFrame) : p.Room (k.save s tf) := by
  intro t ht
  rw [cpu_save]
  exact h t ht

/-- What a CPU destroys of its own is given back at once. -/
theorem destroy_of_own [Memory M] {cpu : Nat} {s : Slot} (hcpu : (k.env s).cpu.val = cpu) :
    k.destroy cpu s = (if k.current cpu = some s then .freedCurrent else .freed, k.free s) := by
  unfold State.destroy
  dsimp only
  rw [if_neg fun hfar => hfar.2 hcpu]
  split <;> rfl

namespace Pairing.Holds

/-! ## The arguments of a call -/

theorem alike_target {Q : Except KernelError Slot → State M → State M → Prop} {raw : UInt32}
    (h : p.Holds k l) (hok : ∀ s, k.resolve p.cpu raw true = .ok s → Q (.ok s) k l)
    (herror : ∀ e, Q (.error e) k l) : Alike (target p.cpu raw) (target p.cpu raw) k l Q := by
  refine .get_bind ?_
  rw [h.resolve]
  refine Op.alike_ofExcept ?_
  cases hs : k.resolve p.cpu raw true with
  | ok s => exact hok s hs
  | error e => exact herror e

theorem alike_userPage {Q : Except KernelError Nat → State M → State M → Prop} {va : UInt32}
    (hok : Q (.ok va.toNat) k l) (herror : ∀ e, Q (.error e) k l) :
    Alike (userPage va) (userPage va) k l Q :=
  .ite (fun _ => .pure hok) fun _ => .throw (herror _)

theorem alike_userPerm {Q : Except KernelError Perm → State M → State M → Prop} {raw : UInt32}
    (hok : ∀ perm, Q (.ok perm) k l) (herror : ∀ e, Q (.error e) k l) :
    Alike (userPerm raw) (userPerm raw) k l Q :=
  Op.alike_ofOption (fun perm _ => hok perm) fun _ => herror _

variable [Memory M]

/-! ## Taking a slot -/

/-- **Taking a slot** goes alike, with the same slot taken. -/
theorem alike_alloc {Q : Except KernelError Slot → State M → State M → Prop} (h : p.Holds k l)
    (hroom : p.Room k) (parent : Option EnvId)
    (herror : ∀ e k' l', p.Holds k' l' → Q (.error e) k' l')
    (hok : ∀ s dir mem, (k.runQueue p.cpu).freeHead = some s →
      Q (.ok s) (k.occupy p.cpu s parent dir mem) (l.occupy p.cpu s parent dir mem)) :
    Alike (alloc parent p.cpu) (alloc parent p.cpu) k l Q := by
  unfold alloc
  refine .get_bind ?_
  rw [h.freeHead]
  cases hhead : (k.runQueue p.cpu).freeHead with
  | none =>
    rw [p.cut_none]
    exact .throw (herror _ _ _ h)
  | some s =>
    rw [p.cut_some s (hroom s hhead).1]
    refine .bind (Op.alike_onMemory h.memory (fun dir mem hdir => ?_) fun e mem _ => ?_)
    · exact .bind (.modify (.pure (hok s dir mem hhead)))
    · exact herror _ _ _ (h.setMemory mem)

omit [Memory M] in
/-- The identifier of a slot's occupant, or of the last one. -/
theorem alike_lastId (h : p.Holds k l) (s : Slot) :
    Alike (do Op.ofOption .badTarget ((← get).env s).lastId)
      (do Op.ofOption .badTarget ((← get).env s).lastId) k l fun _ => p.Holds := by
  refine .get_bind ?_
  rw [(h.resembles s).lastId]
  exact Op.alike_ofOption (fun _ _ => h) fun _ => h

/-- **Making an environment** goes alike. -/
theorem alike_create (h : p.Holds k l) (hroom : p.Room k) (image : Image) :
    Alike (create image p.cpu) (create image p.cpu) k l fun _ => p.Holds := by
  refine .bind (h.alike_alloc hroom none (fun _ _ _ hk' => hk') fun s dir mem hs => ?_)
  obtain ⟨hhere, hcpu⟩ := hroom s hs
  have hnew := h.occupy hhere none dir mem
  have hcpu' : ((k.occupy p.cpu s none dir mem).env s).cpu.val = p.cpu := by
    rw [env_occupy, if_pos rfl]
    exact hcpu
  refine .get_bind ?_
  rw [(hnew.resembles s).pgdir]
  refine .bind (Op.alike_attempt (Op.alike_onMemory hnew.memory (fun entry mem' _ => ?_)
    fun e mem' _ => ?_))
  · exact .bind (.modify (((hnew.setMemory mem').launch hhere entry).alike_lastId s))
  · exact .bind (.modify (.throw ((hnew.setMemory mem').free hhere hcpu')))

/-! ## Each call -/

section Calls

omit [Memory M]

theorem alike_getEnvId (h : p.Holds k l) :
    Alike (getEnvId p.cpu) (getEnvId p.cpu) k l fun _ => p.Holds := by
  refine .get_bind ?_
  rw [h.currentId]
  exact .bind (Op.alike_ofOption (fun id _ => .pure h) fun _ => h)

theorem alike_setStatus (h : p.Holds k l) (hgoverns : p.Governs k) (raw status : UInt32) :
    Alike (setStatus p.cpu raw status) (setStatus p.cpu raw status) k l fun _ => p.Holds := by
  refine .bind (Op.alike_ofOption (fun st _ => ?_) fun _ => h)
  refine .bind (h.alike_target (fun s hs => ?_) fun _ => h)
  exact .modify (h.mapEnv (hgoverns s ⟨_, hs⟩).1 rfl)

theorem alike_setUpcall (h : p.Holds k l) (hgoverns : p.Governs k) (raw entry : UInt32) :
    Alike (setUpcall p.cpu raw entry) (setUpcall p.cpu raw entry) k l fun _ => p.Holds := by
  refine .bind (h.alike_target (fun s hs => ?_) fun _ => h)
  exact .modify (h.mapEnv (hgoverns s ⟨_, hs⟩).1 rfl)

/-- **Waiting for a message** goes alike. -/
theorem alike_ipcRecv (h : p.Holds k l) (hgoverns : p.Governs k) (dstva : Nat) :
    Alike (ipcRecv p.cpu dstva) (ipcRecv p.cpu dstva) k l fun _ => p.Holds := by
  refine .ite (fun _ => .bind (.throw h)) fun _ => .get_bind ?_
  rw [h.current]
  refine .bind (Op.alike_ofOption (fun s hs => ?_) fun _ => h)
  exact .modify (h.mapEnv (hgoverns s (governs_current hs)).1 rfl)

end Calls

omit [Memory M] in
theorem ownCpu {s : Slot} (h : p.Holds k l) (hs : p.here s) (hcpu : (k.env s).cpu.val = p.cpu) :
    (l.env s).cpu.val = p.cpu := by
  rw [h.here s hs]
  exact hcpu

/-- What is destroyed is the CPU's own, so it is not left to another one. -/
theorem destroy {s : Slot} (h : p.Holds k l) (hs : p.here s) (hcpu : (k.env s).cpu.val = p.cpu) :
    (l.destroy p.cpu s).1 = (k.destroy p.cpu s).1 ∧
      p.Holds (k.destroy p.cpu s).2 (l.destroy p.cpu s).2 := by
  rw [destroy_of_own hcpu, destroy_of_own (h.ownCpu hs hcpu), h.current]
  exact ⟨rfl, h.free hs hcpu⟩

theorem alike_envDestroy (h : p.Holds k l) (hgoverns : p.Governs k) (raw : UInt32) :
    Alike (envDestroy p.cpu raw) (envDestroy p.cpu raw) k l fun _ => p.Holds := by
  refine .bind (h.alike_target (fun s hs => ?_) fun _ => h)
  refine .get_bind ?_
  obtain ⟨hhere, hcpu⟩ := hgoverns s ⟨_, hs⟩
  dsimp only
  rw [h.currentId, (h.resembles s).id]
  -- what is said on the way does not matter for what is done
  generalize ("[" ++ EnvId.textOrZero (k.currentId p.cpu) ++ "]" ++ _ : String) = text
  obtain ⟨hdisposal, hdestroy⟩ := (h.say .debug Log.Target.calls text).destroy hhere hcpu
  rw [hdisposal]
  refine .bind (.set ?_)
  cases (State.destroy p.cpu s (k.say .debug Log.Target.calls text)).1 <;> exact .pure hdestroy

/-- **Making a child** goes alike. -/
theorem alike_exofork (h : p.Holds k l) (hgoverns : p.Governs k) (hroom : p.Room k) :
    Alike (exofork p.cpu) (exofork p.cpu) k l fun _ => p.Holds := by
  refine .get_bind ?_
  rw [h.current]
  refine .bind (Op.alike_ofOption (fun parent hparent => ?_) fun _ => h)
  have hhere := (hgoverns parent (governs_current hparent)).1
  dsimp only
  rw [(h.resembles parent).id]
  refine .bind (h.alike_alloc hroom _ (fun _ _ _ hk' => hk') fun s dir mem hs => ?_)
  obtain ⟨hnew, -⟩ := hroom s hs
  have hchild := h.occupy hnew (k.env parent).id dir mem
  have hframe : ((l.occupy p.cpu s (k.env parent).id dir mem).env parent).frame =
      ((k.occupy p.cpu s (k.env parent).id dir mem).env parent).frame := by
    rw [hchild.here parent hhere]
    rfl
  refine .bind (.modify (.get_bind ?_))
  rw [hframe]
  have hforked := hchild.mapEnv hnew (f := fun e =>
    { e with frame :=
      { ((k.occupy p.cpu s (k.env parent).id dir mem).env parent).frame with eax := 0 } }) rfl
  rw [(hforked.resembles s).id]
  exact .bind (Op.alike_ofOption (fun _ _ => .pure hforked) fun _ => hforked)

/-- **A new page** is mapped in both or in none. -/
theorem alike_pageAlloc (h : p.Holds k l) (raw va perm : UInt32) :
    Alike (pageAlloc p.cpu raw va perm) (pageAlloc p.cpu raw va perm) k l fun _ => p.Holds := by
  refine .bind (h.alike_target (fun s hs => ?_) fun _ => h)
  refine .bind (alike_userPage (.bind (alike_userPerm (fun perm => ?_) fun _ => h)) fun _ => h)
  refine .bind (Op.alike_onMemory h.memory (fun page mem _ => ?_) fun e mem _ => h.setMemory mem)
  have hpage := h.setMemory mem
  refine .get_bind ?_
  rw [(hpage.resembles s).pgdir]
  refine .bind (Op.alike_attempt (Op.alike_onMemory rfl (fun _ mem' _ => ?_) fun e mem' _ => ?_))
  · exact .pure (hpage.setMemory mem')
  · exact .bind (.modify (.throw ((hpage.setMemory mem').setMemory _)))

theorem shareable (h : p.Holds k l) (dir : PageDir) (va : Nat) (perm : Perm) :
    l.shareable dir va perm = k.shareable dir va perm := by
  unfold State.shareable
  rw [h.memory]

/-- **A page is shared** in both or in none. -/
theorem alike_pageMap (h : p.Holds k l) (srcRaw srcva dstRaw dstva perm : UInt32) :
    Alike (pageMap p.cpu srcRaw srcva dstRaw dstva perm)
      (pageMap p.cpu srcRaw srcva dstRaw dstva perm) k l fun _ => p.Holds := by
  refine .bind (h.alike_target (fun src _ => ?_) fun _ => h)
  refine .bind (h.alike_target (fun dst _ => ?_) fun _ => h)
  refine .bind (alike_userPage (.bind (alike_userPage ?_ fun _ => h)) fun _ => h)
  refine .bind (alike_userPerm (fun perm => .get_bind ?_) fun _ => h)
  rw [(h.resembles src).pgdir, (h.resembles dst).pgdir, h.shareable]
  refine .bind (Op.alike_ofOption (fun page _ => ?_) fun _ => h)
  exact Op.alike_onMemory h.memory (fun _ mem _ => h.setMemory mem) fun _ mem _ => h.setMemory mem

theorem alike_pageUnmap (h : p.Holds k l) (raw va : UInt32) :
    Alike (pageUnmap p.cpu raw va) (pageUnmap p.cpu raw va) k l fun _ => p.Holds := by
  refine .bind (h.alike_target (fun s _ => ?_) fun _ => h)
  refine .bind (alike_userPage (.modify ?_) fun _ => h)
  rw [(h.resembles s).pgdir, h.memory]
  exact h.setMemory _

theorem offered (h : p.Holds k l) (sender : Slot) (srcva : Nat) (perm : UInt32) :
    l.offered sender srcva perm = k.offered sender srcva perm := by
  unfold State.offered
  simp only [(h.resembles sender).pgdir, h.shareable]

omit [Memory M] in
/-- A message is put into an inbox of the pairing. -/
theorem deliver {receiver : Slot} (h : p.Holds k l) (hhere : p.here receiver) (sender : Slot)
    (value : UInt32) (granted : Perm) :
    p.Holds (k.deliver sender receiver value granted) (l.deliver sender receiver value granted) := by
  unfold State.deliver
  rw [(h.resembles sender).id]
  exact h.mapEnv hhere rfl

/-- **Sending a message** goes alike, if the receiver is of the pairing where the message is
delivered. -/
theorem alike_ipcTrySend (h : p.Holds k l) {target value : UInt32} {srcva : Nat} {perm : UInt32}
    (hreceiver : ∀ receiver k', Delivery k p.cpu target value srcva perm receiver k' →
      p.here receiver) :
    Alike (ipcTrySend p.cpu target value srcva perm) (ipcTrySend p.cpu target value srcva perm) k l
      fun _ => p.Holds := by
  refine .get_bind ?_
  rw [h.current]
  refine .bind (Op.alike_ofOption (fun sender hsender => ?_) fun _ => h)
  dsimp only
  rw [h.resolve]
  refine .bind (Op.alike_ofExcept ?_)
  cases hr : k.resolve p.cpu target false with
  | error e => exact h
  | ok receiver =>
    dsimp only
    rw [(h.resembles receiver).inbox, h.offered]
    refine .ite (fun _ => .bind (.throw h)) fun hrecv => .bind (Op.alike_ofExcept ?_)
    have hrecv : (k.env receiver).inbox.receiving = true := by simpa using hrecv
    cases ho : k.offered sender srcva perm with
    | error e => exact h
    | ok offer =>
      cases offer with
      | none =>
        have hd : Delivery k p.cpu target value srcva perm receiver _ :=
          .word hsender hr hrecv ho (.inl rfl)
        exact .bind (.pure (.modify (h.deliver (hreceiver _ _ hd) sender value _)))
      | some x =>
        obtain ⟨page, granted⟩ := x
        refine .bind (.get_bind ?_)
        dsimp only
        rw [(h.resembles receiver).inbox, (h.resembles receiver).pgdir]
        refine .ite (fun hdst => .bind (Op.alike_onMemory h.memory (fun _ mem hm => ?_) ?_))
          fun hdst => .pure (.modify ?_)
        · have hd : Delivery k p.cpu target value srcva perm receiver _ :=
            .page hsender hr hrecv ho hdst hm
          exact .pure (.modify ((h.setMemory mem).deliver (hreceiver _ _ hd) sender value _))
        · exact fun e mem _ => h.setMemory mem
        · have hd : Delivery k p.cpu target value srcva perm receiver _ :=
            .word hsender hr hrecv ho (.inr hdst)
          exact h.deliver (hreceiver _ _ hd) sender value _

/-- **Performing a call** goes alike in states of a pairing, if what it may write to is of the
pairing: what its environment governs, the slot it would take for a child and the receiver of its
message. -/
theorem alike_perform (h : p.Holds k l) (hgoverns : p.Governs k) {call : Call}
    (hroom : call = .exofork → p.Room k)
    (hreceiver : call = .ipcTrySend → ∀ receiver k',
      Delivery k p.cpu a.first a.second a.third.toNat a.fourth receiver k' → p.here receiver) :
    Alike (perform p.cpu call a) (perform p.cpu call a) k l fun _ => p.Holds := by
  have hdone : ∀ {op : Op M Unit}, Alike op op k l (fun _ => p.Holds) →
      Alike (perform.done op) (perform.done op) k l fun _ => p.Holds := fun hop =>
    hop.andThen fun _ _ _ hk' => .pure hk'
  cases call with
  | getEnvId => exact .map h.alike_getEnvId
  | envDestroy => exact h.alike_envDestroy hgoverns _
  | pageAlloc => exact hdone (h.alike_pageAlloc _ _ _)
  | pageMap => exact hdone (h.alike_pageMap _ _ _ _ _)
  | pageUnmap => exact hdone (h.alike_pageUnmap _ _)
  | exofork => exact .map (h.alike_exofork hgoverns (hroom rfl))
  | envSetStatus => exact hdone (h.alike_setStatus hgoverns _ _)
  | envSetUpcall => exact hdone (h.alike_setUpcall hgoverns _ _)
  | yieldCpu => exact .pure h
  | ipcTrySend => exact hdone (h.alike_ipcTrySend (hreceiver rfl))
  | ipcRecv => exact (h.alike_ipcRecv hgoverns _).andThen fun _ _ _ hk' => .pure hk'
  | getCpuId => exact .pure h

/-- The same of a call by its number, which may be of no call. -/
theorem alike_performNumber (h : p.Holds k l) (hgoverns : p.Governs k) {number : UInt32}
    (hroom : number = Call.exofork.number → p.Room k)
    (hreceiver : number = Call.ipcTrySend.number → ∀ receiver k',
      Delivery k p.cpu a.first a.second a.third.toNat a.fourth receiver k' → p.here receiver) :
    Alike (performNumber p.cpu number a) (performNumber p.cpu number a) k l fun _ => p.Holds := by
  unfold performNumber
  cases hcall : Call.ofNumber? number with
  | none => exact .bind (.modify (.throw (h.say _ _ _)))
  | some call =>
    have hnumber : number = call.number := by
      simpa [eq_comm] using List.find?_some hcall
    refine h.alike_perform hgoverns (fun heq => hroom ?_) fun heq => hreceiver ?_
    · rw [hnumber, heq]
    · rw [hnumber, heq]

/-- **A system call** in states of a pairing ends the same way in both, in states of the pairing. -/
theorem syscall (h : p.Holds k l) (hgoverns : p.Governs k) {tf : TrapFrame}
    (hroom : ∀ s, k.current p.cpu = some s → tf.eax = Call.exofork.number → p.Room k)
    (hreceiver : ∀ sender receiver k',
      Sending k p.cpu tf sender receiver .resume k' → p.here receiver) :
    (l.syscall p.cpu tf).1 = (k.syscall p.cpu tf).1 ∧
      p.Holds (k.syscall p.cpu tf).2 (l.syscall p.cpu tf).2 := by
  cases hc : k.current p.cpu with
  | none =>
    have hc' : l.current p.cpu = none := h.current.trans hc
    unfold State.syscall
    rw [hc, hc']
    exact ⟨rfl, h⟩
  | some s =>
    have hc' : l.current p.cpu = some s := h.current.trans hc
    have hhere := (hgoverns s (governs_current hc)).1
    have hperform := (h.save hhere tf).alike_performNumber (a := tf.args) (hgoverns.save s tf)
      (fun hnumber => (hroom s hc hnumber).save s tf)
      fun hnumber receiver k' hd => hreceiver s receiver _ ⟨hnumber, hc, rfl, k', hd, rfl⟩
    rcases hperform.exists_ends with ⟨c, k', l', hk, hl, hholds⟩ | ⟨e, k', l', hk, hl, hholds⟩
    · rw [syscall_of_ok hc hk, syscall_of_ok hc' hl]
      exact ⟨rfl, hholds.conclude hhere c⟩
    · rw [syscall_of_error hc hk, syscall_of_error hc' hl]
      exact ⟨rfl, hholds.setResult hhere _⟩

/-! ## Handing the CPU over -/

/-- The environment of a dying mark is gone in both or in none. -/
theorem reap (h : p.Holds k l) (hgoverns : p.Governs k) :
    (l.reap p.cpu).1 = (k.reap p.cpu).1 ∧ p.Holds (k.reap p.cpu).2 (l.reap p.cpu).2 := by
  unfold State.reap
  rw [h.current]
  cases hc : k.current p.cpu with
  | none => exact ⟨rfl, h⟩
  | some s =>
    obtain ⟨hhere, hcpu⟩ := hgoverns s (governs_current hc)
    dsimp only
    by_cases hdying : (k.env s).status = .dying
    · rw [if_pos hdying, if_pos ((h.resembles s).dying.2 hdying)]
      exact ⟨rfl, h.free hhere hcpu⟩
    · rw [if_neg hdying, if_neg (mt (h.resembles s).dying.1 hdying)]
      exact ⟨rfl, h⟩

omit [Memory M]

/-- What ran until now is suspended in both or in none. -/
theorem suspend {last : Option Slot} (h : p.Holds k l) (hlast : ∀ t, last = some t → p.here t)
    (s : Slot) : p.Holds (k.suspend last s) (l.suspend last s) := by
  unfold State.suspend
  cases last with
  | none => exact h
  | some t =>
    have hthere := hlast t rfl
    have hstatus : (l.env t).status = (k.env t).status := by
      rw [h.here t hthere]
      rfl
    dsimp only
    rw [hstatus]
    split
    · exact h.mapEnv hthere rfl
    · exact h

/-- **The same environment gets the CPU**, and what had it may run again later. -/
theorem running {s : Slot} (h : p.Holds k l) (hgoverns : p.Governs k) (hhere : p.here s) :
    p.Holds (k.running p.cpu s) (l.running p.cpu s) := by
  have hqueue := h.setQueue (rfl : some s = some s) h.freeHead
  have hlast : ∀ t, (k.runQueue p.cpu).current = some t → p.here t := fun t ht =>
    (hgoverns t (governs_current ht)).1
  have hcur : (l.runQueue p.cpu).current = (k.runQueue p.cpu).current := h.current
  unfold State.running
  dsimp only
  rw [hcur]
  exact (hqueue.suspend hlast s).mapEnv hhere rfl

end Pairing.Holds

end State

end Exokernel
