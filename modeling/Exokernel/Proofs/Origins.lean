import Exokernel.Proofs.Turns
/-!
# Who is who in a history

A slot has one occupant after the other, and an identifier is all the table keeps of one. A history
knows more: when an environment was put into its slot, and which environment had it made. `Occupant`
is an environment a history tells of. Its identifier counts how often the slot was taken until then,
and as long as generations do not start over no two occupants share one (`Occupant.Came.ext`). What
the table says of the occupant of a slot, and of its parent, is what the history says (`Past.known`).
-/

namespace Exokernel

/-! ## Identifiers of a slot, one after the other -/

namespace EnvId

/-- The identifier of the `n`-th occupant of a slot. -/
def nth (s : Slot) : Nat → Option EnvId
  | 0 => none
  | n + 1 => some (next (nth s n) s)

theorem slot_of_nth {s : Slot} {n : Nat} {id : EnvId} (h : nth s n = some id) : id.slot = s := by
  cases n with
  | zero => cases h
  | succ n =>
    obtain rfl := Option.some.inj h
    exact slot_next _ s

/-- **Generations go round**: the first occupant of a slot is of generation 1, and the one that follows
the last generation is again. -/
theorem generation_nth_succ (s : Slot) (n : Nat) :
    ((nth s (n + 1)).map generation).getD 0 = n % (generationLimit - 1) + 1 := by
  induction n with
  | zero => exact generation_next none s
  | succ n ih =>
    show (next (nth s (n + 1)) s).generation = _
    rw [generation_next, ih, nextGeneration]
    simp only [generationLimit]
    split <;> omega

/-- As long as generations do not start over, they count. -/
theorem generation_nth {s : Slot} {n : Nat} (hn : n < generationLimit) :
    ((nth s n).map generation).getD 0 = n := by
  cases n with
  | zero => rfl
  | succ n =>
    rw [generation_nth_succ, Nat.mod_eq_of_lt]
    omega

/-- **An identifier is given out once**, as long as generations do not start over. -/
theorem nth_inj {s t : Slot} {m n : Nat} {id : EnvId} (hm : m < generationLimit)
    (hn : n < generationLimit) (hs : nth s m = some id) (ht : nth t n = some id) :
    s = t ∧ m = n := by
  have hslot : s = t := (slot_of_nth hs).symm.trans (slot_of_nth ht)
  refine ⟨hslot, ?_⟩
  calc m = ((nth s m).map generation).getD 0 := (generation_nth hm).symm
    _ = ((nth t n).map generation).getD 0 := by rw [hs, ht]
    _ = n := generation_nth hn

end EnvId

/-! ## Taking slots -/

/-- The operation takes a slot and puts nothing into it. -/
def Action.bare : Action → Bool
  | alloc _ _ => true
  | _ => false

/-- An occupant stays with the parent it has, or goes. -/
structure Env.Left (e e' : Env) : Prop where
  lastId : e'.lastId = e.lastId
  parent : e'.status ≠ .free → e.status ≠ .free ∧ e'.parent = e.parent

namespace Env.Left

variable {e e' e'' : Env}

theorem of_stays (h : Env.Stays e e') : Env.Left e e' :=
  ⟨h.lastId, fun hs => ⟨mt h.free.2 hs, h.parent⟩⟩

theorem refl (e : Env) : Env.Left e e := of_stays (.refl e)

theorem trans (h : Env.Left e e') (h' : Env.Left e' e'') : Env.Left e e'' := by
  refine ⟨h'.lastId.trans h.lastId, fun hs => ?_⟩
  obtain ⟨hbetween, hparent'⟩ := h'.parent hs
  obtain ⟨hbefore, hparent⟩ := h.parent hbetween
  exact ⟨hbefore, hparent'.trans hparent⟩

end Env.Left

namespace State

variable {M : Type} [Memory M] {k k' : State M} {policy : Policy} {ncpu cpu : Nat} {m₀ : M}
  {s t p : Slot} {tf : TrapFrame}

/-- The slot a CPU takes for a new environment, if it gets one. -/
def supply (k : State M) (cpu : Nat) : Option Slot :=
  ((State.alloc none cpu).run k).1.toOption

theorem supply_iff : k.supply cpu = some s ↔
    (k.runQueue cpu).freeHead = some s ∧ ∃ dir mem, Memory.createSpace k.memory = .ok dir mem := by
  have hends : Ends (State.alloc none cpu) k fun r _ => r.toOption = some s ↔
      (k.runQueue cpu).freeHead = some s ∧
        ∃ dir mem, Memory.createSpace k.memory = .ok dir mem := by
    refine ends_alloc (fun hnone => ?_) (fun e mem hop => ?_) fun t dir mem ht hop => ?_
    · simp [hnone, Except.toOption]
    · simp [hop, Except.toOption]
    · simp [ht, hop, Except.toOption]
  exact Op.ends_iff_run.1 hends

end State

namespace Deed

variable {M : Type}

/-- The environment whose call the deed is. -/
def caller (d : Deed (State M) Action) : Option Slot :=
  match d.act with
  | .syscall cpu _ => d.before.current cpu
  | _ => none

/-- The slot that the deed takes for a new environment, also when its program cannot be loaded. -/
def taken [Memory M] (d : Deed (State M) Action) : Option Slot :=
  match d.act with
  | .alloc _ cpu | .create _ cpu => d.before.supply cpu
  | .syscall cpu tf =>
    if tf.eax = Call.exofork.number ∧ d.caller.isSome then d.before.supply cpu else none
  | _ => none

theorem taken_of_quiet [Memory M] {k : State M} {a : Action} (h : a.quiet = true) (s : Slot) :
    (⟨k, a⟩ : Deed (State M) Action).taken ≠ some s := by
  cases a with
  | syscall | alloc | create => cases h
  | free | destroy | reap | schedule | resume => exact nofun

theorem taken_syscall_iff [Memory M] {k : State M} {cpu : Nat} {tf : TrapFrame} {s : Slot} :
    (⟨k, .syscall cpu tf⟩ : Deed (State M) Action).taken = some s ↔
      tf.eax = Call.exofork.number ∧ (∃ p, k.current cpu = some p) ∧ k.supply cpu = some s := by
  show (if tf.eax = Call.exofork.number ∧ (k.current cpu).isSome then k.supply cpu else none) =
    some s ↔ _
  rw [Option.ite_none_right_eq_some, Option.isSome_iff_exists, and_assoc]

end Deed

namespace State

variable {M : Type} [Memory M] {k k' : State M} {policy : Policy} {ncpu cpu : Nat} {m₀ : M}
  {s t p : Slot} {tf : TrapFrame}

/-- **What becomes of a slot** by a deed that leads to the state `k'`. -/
inductive Fate (d : Deed (State M) Action) (s : Slot) (k' : State M) : Prop
  /-- Its occupant stays or goes, and nobody comes. -/
  | left : d.taken ≠ some s → Env.Left (d.before.env s) (k'.env s) → Fate d s k'
  /-- It is taken for a child of the caller, if there is one. -/
  | taken : d.taken = some s → (d.before.env s).status = .free →
      (k'.env s).lastId = some (EnvId.next (d.before.env s).lastId s) →
      ((k'.env s).status ≠ .free →
        (k'.env s).parent = d.caller.bind fun p => (d.before.env p).id) → Fate d s k'

theorem left_free (k : State M) (t s : Slot) : Env.Left (k.env s) ((k.free t).env s) := by
  rw [env_free]
  split
  · next hst =>
    rw [hst]
    exact ⟨rfl, fun hs => absurd rfl hs⟩
  · exact .refl _

theorem left_destroy (cpu : Nat) (ht : (k.env t).status ≠ .free) (s : Slot) :
    Env.Left (k.env s) ((k.destroy cpu t).2.env s) := by
  rcases destroy_cases k cpu t with ⟨-, hk⟩ | ⟨-, hk⟩
  · rw [hk]
    exact .of_stays (stays_setEnv k (Env.Alike.of_occupied ht .dying nofun nofun _ _).toStays s)
  · rw [hk]
    exact left_free k t s

omit [Memory M] in
theorem left_save (k : State M) (t s : Slot) (tf : TrapFrame) :
    Env.Left (k.env s) ((k.save t tf).env s) :=
  .of_stays (stays_setEnv k (Env.Alike.of_registers _ _ _).toStays s)

omit [Memory M] in
theorem left_conclude (k : State M) (t s : Slot) (c : Completion) :
    Env.Left (k.env s) ((k.conclude t c).env s) := by
  have hresult : ∀ w, Env.Left (k.env s) ((k.setResult t w).env s) := by
    intro w
    exact .of_stays (stays_setEnv k (Env.Alike.of_registers _ _ _).toStays s)
  cases c with
  | value v => exact hresult _
  | yielded => exact hresult _
  | exited => exact .refl _

/-- **A call that makes no child** leaves every slot its occupant, or lets it go. -/
theorem Performs.left {a : Args} {call : Call} {c : Completion} (h : Performs k cpu a call c k')
    (hsound : Sound policy ncpu k) (hcpu : cpu < ncpu) (hcall : call ≠ .exofork) (s : Slot) :
    Env.Left (k.env s) (k'.env s) := by
  have hput : ∀ {t : Slot} {e : Env}, Env.Stays (k.env t) e →
      Env.Left (k.env s) ((k.setEnv t e).env s) := by
    intro t e he
    exact .of_stays (stays_setEnv k he s)
  cases h with
  | getEnvId | pageAlloc | pageMap | pageUnmap | yieldCpu | getCpuId => exact .refl _
  | @envDestroy t text ht =>
    have hsaid : ((k.say .debug Log.Target.calls text).env t).status ≠ .free :=
      hsound.resolve_ne_free hcpu ht
    exact left_destroy cpu hsaid s
  | exofork => exact absurd rfl hcall
  | @envSetStatus t st hst ht =>
    have hocc := hsound.resolve_ne_free hcpu ht
    have hst' : st ≠ .free := by
      rcases runnable_or_of_settable hst with rfl | rfl
      · exact nofun
      · exact nofun
    exact hput ⟨rfl, rfl, rfl, rfl, rfl, by simp [hocc, hst']⟩
  | envSetUpcall => exact hput (Env.Alike.of_registers _ _ _).toStays
  | ipcTrySend hd => exact .of_stays (hsound.alike_of_delivery hcpu hd s).toStays
  | @ipcRecv t _ ht =>
    have hocc := hsound.current_ne_free hcpu ht
    exact hput (Env.Alike.of_occupied hocc .notRunnable nofun nofun _ _).toStays

/-- **Making a child** goes through where there is a slot and a directory for it. -/
theorem syscall_exofork {dir : PageDir} {mem : M} (hnumber : tf.eax = Call.exofork.number)
    (hc : k.current cpu = some p) (hs : (k.runQueue cpu).freeHead = some s)
    (hdir : Memory.createSpace k.memory = .ok dir mem) :
    ∃ w, k.syscall cpu tf = (.resume, ((k.save p tf).forked cpu p s dir mem).setResult p w) := by
  let k₁ := k.save p tf
  have hends : Ends (exofork cpu) k₁ fun r k' =>
      ∃ v, r = .ok v ∧ k' = k₁.forked cpu p s dir mem := by
    have hid : ((k₁.forked cpu p s dir mem).env s).id =
        some (EnvId.next (k₁.env s).lastId s) := by
      rw [env_forked, if_pos rfl]
      rfl
    simp only [exofork, Ends.bind_iff, Ends.get_iff, Op.ends_ofOption]
    refine ⟨fun p' hp' => ?_, fun hnone => ?_⟩
    · obtain rfl : p = p' := Option.some.inj (hc.symm.trans hp')
      refine ends_alloc (fun hnone => ?_) (fun e mem' hop => ?_) fun s' dir' mem' hs' hdir' => ?_
      · cases hs.symm.trans hnone
      · cases hdir.symm.trans hop
      · obtain rfl : s = s' := Option.some.inj (hs.symm.trans hs')
        cases hdir.symm.trans hdir'
        simp only [Ends.modify_iff, Ends.pure_iff]
        refine ⟨fun id _ => ⟨id.raw, rfl, rfl⟩, fun hnone => ?_⟩
        cases hid.symm.trans hnone
    · cases hc.symm.trans hnone
  have hcall : Ends (performNumber cpu tf.eax tf.args) k₁ fun r k' =>
      ∃ v, r = .ok (.value v) ∧ k' = k₁.forked cpu p s dir mem := by
    have hperform : performNumber (M := M) cpu tf.eax tf.args =
        Completion.value <$> exofork cpu := by
      rw [hnumber]
      rfl
    rw [hperform, Ends.map_iff]
    refine hends.imp fun r k' h => ?_
    obtain ⟨v, rfl, rfl⟩ := h
    exact ⟨v, rfl, rfl⟩
  cases hop : performNumber cpu tf.eax tf.args k₁ with
  | ok c k' =>
    obtain ⟨v, hv, rfl⟩ := hcall.of_ok hop
    obtain rfl := Except.ok.inj hv
    exact ⟨_, syscall_of_ok hc hop⟩
  | error e k' =>
    obtain ⟨v, hv, -⟩ := hcall.of_error hop
    cases hv

namespace Sound

variable (h : Sound policy ncpu k) (hcpu : cpu < ncpu)

include h hcpu

/-- **What becomes of a slot by a call.** -/
theorem fate_syscall (tf : TrapFrame) (s : Slot) :
    Fate ⟨k, .syscall cpu tf⟩ s (k.syscall cpu tf).2 := by
  have hregisters : ∀ (k : State M) (p : Slot) (w : UInt32),
      Env.Stays (k.env s) ((k.setResult p w).env s) := by
    intro k p w
    exact stays_setEnv k (Env.Alike.of_registers _ _ _).toStays s
  cases htaken : (⟨k, .syscall cpu tf⟩ : Deed (State M) Action).taken with
  | some t =>
    obtain ⟨hnumber, ⟨p, hc⟩, hsupply⟩ := Deed.taken_syscall_iff.1 htaken
    obtain ⟨ht, dir, mem, hdir⟩ := supply_iff.1 hsupply
    obtain ⟨w, hk⟩ := syscall_exofork hnumber hc ht hdir
    have hresult := hregisters ((k.save p tf).forked cpu p t dir mem) p w
    rw [hk]
    rw [env_forked] at hresult
    by_cases hst : s = t
    · subst hst
      rw [if_pos rfl] at hresult
      refine .taken htaken (h.head (h.queueOf_lt hcpu) ht).2 ?_ fun _ => ?_
      · refine hresult.lastId.trans ?_
        show some (EnvId.next ((k.save p tf).env s).lastId s) = _
        rw [(steady_save k p s tf).lastId]
      · refine hresult.parent.trans ?_
        have hid : ((k.save p tf).env p).id = (k.env p).id := (sameNames_frame k p tf).id p
        show ((k.save p tf).env p).id = (k.current cpu).bind fun p => (k.env p).id
        rw [hc, hid]
        rfl
    · rw [if_neg hst] at hresult
      refine .left (fun heq => hst ?_) ((left_save k p s tf).trans (.of_stays hresult))
      exact (Option.some.inj (htaken.symm.trans heq)).symm
  | none =>
    have hnot : (⟨k, .syscall cpu tf⟩ : Deed (State M) Action).taken ≠ some s := by
      rw [htaken]
      exact nofun
    have hhandled := handled_syscall cpu tf k
    generalize k.syscall cpu tf = answer at hhandled
    obtain ⟨next, k'⟩ := answer
    cases hhandled with
    | idle => exact .left hnot (.refl _)
    | @refused p e k₁ hc hr =>
      have hresult := hregisters k₁ p (encodeResult (.error e.toCallError))
      rw [hr.env_eq] at hresult
      exact .left hnot ((left_save k p s tf).trans (.of_stays hresult))
    | @performed p call c k₁ hc hnumber hp =>
      have hsaved : Sound policy ncpu (k.save p tf) := h.setEnv (.of_registers _ _ _)
      have hcall : call ≠ .exofork := by
        rintro rfl
        cases hp with
        | exofork _ ht hdir =>
          have hsupply : k.supply cpu = some _ := supply_iff.2 ⟨ht, _, _, hdir⟩
          cases htaken.symm.trans (Deed.taken_syscall_iff.2 ⟨hnumber, ⟨p, hc⟩, hsupply⟩)
      have hleft := hp.left hsaved hcpu hcall s
      exact .left hnot ((left_save k p s tf).trans (hleft.trans (left_conclude k₁ p s c)))

/-- **What becomes of a slot when an environment is made.** -/
theorem fate_create (image : Image) (s : Slot) :
    Fate ⟨k, .create image cpu⟩ s ((State.create image cpu).run k).2 := by
  -- a slot that is not taken is left alone
  have hother : ∀ {k' : State M}, k.supply cpu ≠ some s → k'.env s = k.env s →
      Fate ⟨k, .create image cpu⟩ s k' := by
    intro k' hnot henv
    refine .left hnot ?_
    rw [henv]
    exact .refl _
  refine Op.of_ends (P := Fate ⟨k, .create image cpu⟩ s) ?_
  refine ends_create (fun hnone => ?_) (fun e mem hop => ?_)
    (fun t dir mem e mem' ht hdir _ => ?_) fun t dir mem entry mem' ht hdir _ => ?_
  · refine hother (fun hsupply => ?_) rfl
    cases hnone.symm.trans (supply_iff.1 hsupply).1
  · refine hother (fun hsupply => ?_) rfl
    obtain ⟨-, dir, mem', hdir⟩ := supply_iff.1 hsupply
    cases hop.symm.trans hdir
  all_goals
    have htaken : k.supply cpu = some t := supply_iff.2 ⟨ht, dir, mem, hdir⟩
    have hfree := (h.head (h.queueOf_lt hcpu) ht).2
    have hborn : (k.occupy cpu t none dir mem).env t = occupied (k.env t) t none dir := by
      rw [env_occupy, if_pos rfl]
    have hnot : s ≠ t → k.supply cpu ≠ some s := by
      intro hst hsupply
      exact hst (Option.some.inj (hsupply.symm.trans htaken))
  · obtain ⟨-, hrest, hgone, -, -⟩ := h.free_occupy hcpu ht dir mem mem'
    by_cases hst : s = t
    · subst hst
      refine .taken htaken hfree ?_ fun hs => absurd hgone hs
      have hlast := (left_free ({ k.occupy cpu s none dir mem with memory := mem' } : State M) s
        s).lastId
      exact hlast.trans (congrArg Env.lastId hborn)
    · exact hother (hnot hst) (hrest s hst)
  · let k₁ : State M := { k.occupy cpu t none dir mem with memory := mem' }
    by_cases hst : s = t
    · subst hst
      have hlaunched : (k₁.launch s entry).env s =
          { k₁.env s with frame := { (k₁.env s).frame with eip := UInt32.ofNat entry },
                          status := .runnable } := by
        rw [launch, env_mapEnv, if_pos rfl]
      refine .taken htaken hfree ?_ fun _ => ?_
      · rw [hlaunched]
        exact congrArg Env.lastId hborn
      · rw [hlaunched]
        exact congrArg Env.parent hborn
    · refine hother (hnot hst) ?_
      rw [launch, env_mapEnv, if_neg hst]
      exact (env_occupy k cpu t s none dir mem).trans (if_neg hst)

omit hcpu in
/-- **What becomes of a slot in a step.** -/
theorem fate {a : Action} (hstep : Steps ncpu k a k') (ha : a.bare = false) (s : Slot) :
    Fate ⟨k, a⟩ s k' := by
  obtain ⟨hproper, hk'⟩ := hstep
  cases h.done hproper hk' with
  | alloc => cases ha
  | create hcpu image => exact h.fate_create hcpu image s
  | syscall hcpu tf => exact h.fate_syscall hcpu tf s
  | destroy _ hs => exact .left nofun (left_destroy _ hs s)
  | gone hquiet _ => exact .left (Deed.taken_of_quiet hquiet s) (left_free k _ s)
  | @ran a cpu t hquiet _ _ hrun =>
    have hstays := stays_running k cpu (Status.ne_free_of_canRun hrun) s
    exact .left (Deed.taken_of_quiet hquiet s) (.of_stays hstays)
  | still hquiet => exact .left (Deed.taken_of_quiet hquiet s) (.refl _)

omit h hcpu in
/-- A slot that is taken bare gets a new occupant, and every other slot stays as it is. -/
theorem env_alloc (parent : Option EnvId) (cpu : Nat) (s : Slot) :
    (k.supply cpu = some s ∧ ∃ dir,
      ((State.alloc parent cpu).run k).2.env s = occupied (k.env s) s parent dir) ∨
    k.supply cpu ≠ some s ∧ ((State.alloc parent cpu).run k).2.env s = k.env s := by
  refine Op.of_ends (P := fun k' =>
    (k.supply cpu = some s ∧ ∃ dir, k'.env s = occupied (k.env s) s parent dir) ∨
      k.supply cpu ≠ some s ∧ k'.env s = k.env s) ?_
  refine ends_alloc (fun hnone => .inr ⟨fun hsupply => ?_, rfl⟩)
    (fun e mem hop => .inr ⟨fun hsupply => ?_, rfl⟩) fun t dir mem ht hdir => ?_
  · cases hnone.symm.trans (supply_iff.1 hsupply).1
  · obtain ⟨-, dir, mem', hdir⟩ := supply_iff.1 hsupply
    cases hop.symm.trans hdir
  · have hsupply : k.supply cpu = some t := supply_iff.2 ⟨ht, dir, mem, hdir⟩
    rw [env_occupy, hsupply]
    by_cases hst : s = t
    · subst hst
      exact .inl ⟨rfl, dir, if_pos rfl⟩
    · exact .inr ⟨fun heq => hst (Option.some.inj heq).symm, if_neg hst⟩

omit hcpu in
/-- **A step gives a slot its next identifier if it takes the slot**. Otherwise the slot keeps the
identifier it has, and nobody comes. -/
theorem lastId_of_step {a : Action} (hstep : Steps ncpu k a k') (s : Slot) :
    let d : Deed (State M) Action := ⟨k, a⟩
    (d.taken = some s ∧ (k'.env s).lastId = some (EnvId.next (k.env s).lastId s)) ∨
      d.taken ≠ some s ∧ (k'.env s).lastId = (k.env s).lastId ∧
        ((k'.env s).status ≠ .free → (k.env s).status ≠ .free) := by
  cases hbare : a.bare with
  | false =>
    cases h.fate hstep hbare s with
    | left hnot hleft => exact .inr ⟨hnot, hleft.lastId, fun hs => (hleft.parent hs).1⟩
    | taken htaken _ hnext _ => exact .inl ⟨htaken, hnext⟩
  | true =>
    obtain ⟨parent, cpu, rfl⟩ : ∃ parent cpu, a = .alloc parent cpu := by
      cases a with
      | alloc parent cpu => exact ⟨parent, cpu, rfl⟩
      | create | free | destroy | reap | syscall | schedule | resume => cases hbare
    obtain ⟨-, hk'⟩ := hstep
    cases hk'
    rcases env_alloc (k := k) parent cpu s with ⟨htaken, dir, henv⟩ | ⟨hnot, henv⟩
    · refine .inl ⟨htaken, ?_⟩
      rw [henv]
      rfl
    · refine .inr ⟨hnot, ?_⟩
      rw [henv]
      exact ⟨rfl, id⟩

end Sound

/-! ## Occupants -/

/-- How often a slot was taken. -/
def takings (s : Slot) (l : List (Deed (State M) Action)) : Nat :=
  l.countP fun d => d.taken = some s

section Takings

variable {d d' : Deed (State M) Action} {l l' older older' : List (Deed (State M) Action)}

theorem takings_cons (s : Slot) (d : Deed (State M) Action) (l : List (Deed (State M) Action)) :
    takings s (d :: l) = takings s l + if d.taken = some s then 1 else 0 := by
  simp only [takings, List.countP_cons, decide_eq_true_eq]

theorem takings_le (h : l <:+ l') : takings s l ≤ takings s l' :=
  h.sublist.countP_le

/-- Of two pasts that end with the taking of a slot, one inside the other, the longer one has more
takings. -/
theorem eq_of_suffix (hd' : d'.taken = some s) (h : d :: older <:+ d' :: older')
    (hcount : takings s (d' :: older') ≤ takings s (d :: older)) :
    d :: older = d' :: older' := by
  rcases List.suffix_cons_iff.1 h with heq | hinside
  · exact heq
  · have hle : takings s (d :: older) ≤ takings s older' := takings_le hinside
    rw [takings_cons s d' older', if_pos hd'] at hcount
    omega

end Takings

end State

/-- **An environment of a history**: the slot it was put in, and what was done until then, latest
first, with the deed that put it there. -/
structure Occupant (M : Type) where
  slot : Slot
  past : List (Deed (State M) Action)

namespace State

variable {M : Type} {s : Slot}

/-- The occupant of a slot: it came when the slot was free last. -/
def occupant (s : Slot) (l : List (Deed (State M) Action)) : Occupant M :=
  ⟨s, l.dropWhile fun d => (d.before.env s).status ≠ .free⟩

/-- Who is there already did not come just now. -/
theorem occupant_of_occupied {d : Deed (State M) Action} (l : List (Deed (State M) Action))
    (h : (d.before.env s).status ≠ .free) : occupant s (d :: l) = occupant s l :=
  congrArg (Occupant.mk s) (List.dropWhile_cons_of_pos (decide_eq_true h))

/-- Who is there now and was not there before came just now. -/
theorem occupant_of_free {d : Deed (State M) Action} (l : List (Deed (State M) Action))
    (h : (d.before.env s).status = .free) : occupant s (d :: l) = ⟨s, d :: l⟩ :=
  congrArg (Occupant.mk s) (List.dropWhile_cons_of_neg (by simp [h]))

end State

namespace Occupant

variable {M : Type} [Memory M]

/-- The identifier it was given. -/
def id (o : Occupant M) : Option EnvId :=
  EnvId.nth o.slot (State.takings o.slot o.past)

omit [Memory M] in
/-- **Its creator**: the environment whose call put it into its slot, if a call did. -/
def creator (o : Occupant M) : Option (Occupant M) :=
  match o.past with
  | d :: older => d.caller.map fun p => State.occupant p older
  | [] => none

/-- It came in the course of the history. -/
def Came (l : List (Deed (State M) Action)) (o : Occupant M) : Prop :=
  ∃ d older, o.past = d :: older ∧ d.taken = some o.slot ∧ o.past <:+ l

section Came

variable {l l' : List (Deed (State M) Action)} {o o' : Occupant M} {id : EnvId}

theorem Came.mono (h : o.Came l) (hl : l <:+ l') : o.Came l' := by
  obtain ⟨d, older, hpast, htaken, hsuffix⟩ := h
  exact ⟨d, older, hpast, htaken, hsuffix.trans hl⟩

/-- Whoever came was given an identifier. -/
theorem Came.exists_id (h : o.Came l) : ∃ id, o.id = some id := by
  obtain ⟨d, older, hpast, htaken, -⟩ := h
  have hcount : State.takings o.slot o.past = State.takings o.slot older + 1 := by
    rw [hpast, State.takings_cons, if_pos htaken]
  refine ⟨EnvId.next (EnvId.nth o.slot (State.takings o.slot older)) o.slot, ?_⟩
  rw [Occupant.id, hcount]
  rfl

/-- **No two environments have one identifier**, as long as generations do not start over. -/
theorem Came.ext (h : o.Came l) (h' : o'.Came l)
    (hfew : ∀ s, State.takings s l < EnvId.generationLimit) (hid : o.id = some id)
    (hid' : o'.id = some id) : o = o' := by
  obtain ⟨s, past⟩ := o
  obtain ⟨s', past'⟩ := o'
  obtain ⟨d, older, hpast, htaken, hsuffix⟩ := h
  obtain ⟨d', older', hpast', htaken', hsuffix'⟩ := h'
  have hlt : State.takings s past < EnvId.generationLimit :=
    Nat.lt_of_le_of_lt (State.takings_le hsuffix) (hfew s)
  have hlt' : State.takings s' past' < EnvId.generationLimit :=
    Nat.lt_of_le_of_lt (State.takings_le hsuffix') (hfew s')
  obtain ⟨hslot, hcount⟩ : s = s' ∧ State.takings s past = State.takings s' past' :=
    EnvId.nth_inj hlt hlt' hid hid'
  dsimp only at hpast hpast' htaken htaken' hsuffix hsuffix'
  subst hslot hpast hpast'
  -- both pasts are parts of one history, so one is inside the other
  rcases List.suffix_or_suffix_of_suffix hsuffix hsuffix' with hin | hin
  · rw [State.eq_of_suffix htaken' hin (by omega)]
  · rw [State.eq_of_suffix htaken hin (by omega)]

end Came

end Occupant

namespace State

variable {M : Type} [Memory M] {k k' : State M} {policy : Policy} {ncpu cpu : Nat} {m₀ : M}
  {s t p : Slot} {l : List (Deed (State M) Action)}

/-- **The last identifier of a slot** tells how often it was taken. -/
theorem Past.lastId (h : Past policy ncpu m₀ l k) (s : Slot) :
    (k.env s).lastId = EnvId.nth s (takings s l) := by
  induction h with
  | start hinit => exact (vacant_of_init hinit s).2.1
  | step hbefore hstep ih =>
    rw [takings_cons]
    rcases (Past.reached hbefore).sound.lastId_of_step hstep s with
      ⟨htaken, hnext⟩ | ⟨hnot, hsame, -⟩
    · rw [if_pos htaken, hnext, ih]
      rfl
    · rw [if_neg hnot, hsame, ih]
      rfl

/-- Who is there was put into the slot. -/
theorem Past.takings_pos (h : Past policy ncpu m₀ l k) (hs : (k.env s).status ≠ .free) :
    0 < takings s l := by
  induction h with
  | start hinit => exact absurd (vacant_of_init hinit s).1 hs
  | step hbefore hstep ih =>
    rw [takings_cons]
    rcases (Past.reached hbefore).sound.lastId_of_step hstep s with ⟨htaken, -⟩ | ⟨-, -, hthere⟩
    · rw [if_pos htaken]
      exact Nat.succ_pos _
    · exact Nat.add_pos_left (ih (hthere hs)) _

/-- Whoever makes a call is there. -/
theorem Sound.caller_ne_free {d : Deed (State M) Action} (h : Sound policy ncpu d.before)
    (hstep : Steps ncpu d.before d.act k') (hp : d.caller = some p) :
    (d.before.env p).status ≠ .free := by
  obtain ⟨before, act⟩ := d
  cases act with
  | syscall cpu tf => exact h.current_ne_free hstep.1 hp
  | alloc | create | free | destroy | reap | schedule | resume => cases hp

/-- What a slot says of its occupant is what the history says. -/
structure Known (l : List (Deed (State M) Action)) (e : Env) (o : Occupant M) : Prop where
  came : o.Came l
  lastId : e.lastId = o.id
  parent : e.parent = o.creator.bind Occupant.id

/-- **The table tells who is who**: an occupied slot has the identifier of its occupant, and that of
the environment that created it. -/
theorem Past.known (h : Past policy ncpu m₀ l k) (hmade : ∀ d ∈ l, d.act.bare = false) :
    ∀ s, (k.env s).status ≠ .free → Known l (k.env s) (occupant s l) := by
  induction h with
  | start hinit =>
    intro s hs
    exact absurd (vacant_of_init hinit s).1 hs
  | @step l before k act hbefore hstep ih =>
    intro s hs
    have hmade' : ∀ d ∈ l, d.act.bare = false := fun d hd => hmade d (.tail _ hd)
    have hsound := (Past.reached hbefore).sound
    have hlast := Past.lastId hbefore s
    cases hsound.fate hstep (hmade _ (.head _)) s with
    | left hnot hleft =>
      obtain ⟨hocc, hparent⟩ := hleft.parent hs
      have hknown := ih hmade' s hocc
      rw [occupant_of_occupied l hocc]
      exact ⟨hknown.came.mono (List.suffix_cons _ _), hleft.lastId.trans hknown.lastId,
        hparent.trans hknown.parent⟩
    | taken htaken hfree hnext hparent =>
      rw [occupant_of_free l hfree]
      refine ⟨⟨_, l, rfl, htaken, List.suffix_rfl⟩, ?_, ?_⟩
      · rw [hnext, hlast, Occupant.id, takings_cons, if_pos htaken]
        rfl
      · rw [hparent hs]
        show _ = ((Deed.caller ⟨before, act⟩).map fun p => occupant p l).bind Occupant.id
        cases hcaller : Deed.caller (⟨before, act⟩ : Deed (State M) Action) with
        | none => rfl
        | some p =>
          -- the creator was in its slot then, so what the slot says of it is known
          have hthere : (before.env p).status ≠ .free := hsound.caller_ne_free hstep hcaller
          show (before.env p).id = (occupant p l).id
          rw [Env.id_of_not_free hthere]
          exact (ih hmade' p hthere).lastId

/-- **A creator came before its child**, and into another slot. -/
theorem Past.creator_came {o c : Occupant M} (h : Past policy ncpu m₀ l k)
    (hmade : ∀ d ∈ l, d.act.bare = false) (ho : o.Came l) (hc : o.creator = some c) :
    c.Came l ∧ c.past.length < o.past.length ∧ c.slot ≠ o.slot := by
  obtain ⟨d, older, hpast, htaken, newer, rfl⟩ := ho
  rw [hpast] at h hmade ⊢
  obtain ⟨hbefore, k', hstep, -⟩ := Traced.past h
  have hsound := (Past.reached hbefore).sound
  have hmade' : ∀ e ∈ older, e.act.bare = false := fun e he =>
    hmade e (List.mem_append_right _ (.tail _ he))
  rw [Occupant.creator, hpast] at hc
  obtain ⟨p, hcaller, rfl⟩ := Option.map_eq_some_iff.1 hc
  have hthere := hsound.caller_ne_free hstep hcaller
  refine ⟨?_, ?_, ?_⟩
  · have hcame := (Past.known hbefore hmade' p hthere).came
    exact hcame.mono (List.suffix_append_of_suffix (List.suffix_cons _ _))
  · have hle : (occupant p older).past.length ≤ older.length :=
      (List.dropWhile_suffix _).length_le
    show (occupant p older).past.length < older.length + 1
    omega
  · rintro heq
    cases hsound.fate hstep (hmade d (List.mem_append_right _ (.head _))) o.slot with
    | left hnot => exact hnot htaken
    | taken _ hfree =>
      refine hthere ?_
      show (d.before.env (occupant p older).slot).status = .free
      rw [heq]
      exact hfree

end State

end Exokernel
