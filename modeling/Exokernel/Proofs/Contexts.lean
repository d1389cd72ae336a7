import Exokernel.Proofs.Histories
import Exokernel.Proofs.Isolation
import Exokernel.Proofs.Refusals
/-!
# Saved contexts

The registers of an environment that is not in user mode lie in its slot, from its last system call to
the moment it is given a CPU again. In between other environments make calls on any CPU, are stopped
and woken, come and go. `Visit.Context` says what one visit makes of the context in a slot: the
occupant's own call is answered there, a new occupant begins there, and nothing else writes to it. Along
a history a context is therefore told by the latest call of the environment, or else by its beginning.
-/

namespace Exokernel

/-- The word a call that has ended so leaves in its caller's result register. A caller that exits finds
nothing. -/
def resultWord : Except KernelError Completion → Option UInt32
  | .ok (.value v) => some (encodeResult (.ok v))
  | .ok .yielded => some 0
  | .ok .exited => none
  | .error e => some (encodeResult (.error e.toCallError))

/-- The slot has the occupant it had, in the same address space and with the same registers, but for
the result register of an occupant that has called. -/
structure Env.Rests (called : Prop) (e e' : Env) : Prop where
  lastId : e'.lastId = e.lastId
  pgdir : e'.pgdir = e.pgdir
  frame : e'.frame = e.frame ∨ called ∧ ∃ w, e'.frame = { e.frame with eax := w }

theorem Env.Rests.refl (called : Prop) (e : Env) : Env.Rests called e e := ⟨rfl, rfl, .inl rfl⟩

theorem Env.Rests.frame_eq {e e' : Env} (h : Env.Rests False e e') : e'.frame = e.frame :=
  h.frame.resolve_right And.left

theorem Env.Rests.trans {e e' e'' : Env} (h : Env.Rests False e e') (h' : Env.Rests False e' e'') :
    Env.Rests False e e'' :=
  ⟨h'.lastId.trans h.lastId, h'.pgdir.trans h.pgdir, .inl (h'.frame_eq.trans h.frame_eq)⟩

/-- What does not touch identifier, address space and registers does not touch the context. -/
theorem Env.Rests.of_eq {called : Prop} {e e' : Env} (hid : e'.lastId = e.lastId)
    (hdir : e'.pgdir = e.pgdir) (hframe : e'.frame = e.frame) : Env.Rests called e e' :=
  ⟨hid, hdir, .inl hframe⟩

namespace State

variable {M : Type} {k k' : State M} {policy : Policy} {ncpu cpu : Nat} {s t : Slot} {tf : TrapFrame}
  {called : Prop}

/-- Whatever is written into one slot, the others rest. -/
theorem rests_setEnv {e : Env} (he : Env.Rests called (k.env s) e) :
    Env.Rests called (k.env t) ((k.setEnv s e).env t) :=
  rel_setEnv (Env.Rests.refl called) k he t

/-- A CPU that leaves the kernel disturbs no context. -/
theorem rests_leaves {r : Except NothingRunnable Dispatch} (h : Leaves cpu k r k')
    (hocc : (k'.env t).status ≠ .free) :
    (k.env t).status ≠ .free ∧ Env.Rests called (k.env t) (k'.env t) := by
  have hframe := frame_of_leaves h t
  cases h with
  | idle => exact ⟨hocc, .refl _ _⟩
  | user hs hrun =>
    have hstays := stays_running k cpu (Status.ne_free_of_canRun hrun) t
    exact ⟨mt hstays.free.2 hocc, .of_eq hstays.lastId hstays.pgdir hframe⟩

/-- What a CPU leaves the kernel with is the context of the slot it runs from then on. -/
theorem Leaves.dispatched {d : Dispatch} (h : Leaves cpu k (.ok d) k') :
    k'.current cpu = some d.slot ∧ (k'.env d.slot).status = .running ∧
      (k'.env d.slot).frame = d.frame ∧ (k'.env d.slot).pgdir = d.pgdir := by
  have hframe := frame_of_leaves h d.slot
  cases h with
  | @user s hs hrun =>
    have hcur := current_running k cpu s
    have henv : (k.running cpu s).env s = { k.env s with status := .running } := by
      rw [env_running, if_pos rfl]
    exact ⟨hcur, congrArg Env.status henv, hframe, (congrArg Env.pgdir henv :)⟩

variable [Memory M]

theorem rests_free (hocc : ((k.free s).env t).status ≠ .free) :
    (k.env t).status ≠ .free ∧ Env.Rests called (k.env t) ((k.free s).env t) := by
  rw [env_free] at hocc ⊢
  split at hocc
  · exact absurd rfl hocc
  · next h =>
    rw [if_neg h]
    exact ⟨hocc, .refl _ _⟩

omit [Memory M] in
/-- Writing into an occupied slot brings nobody. -/
theorem occupied_of_setEnv {e : Env} (hs : (k.env s).status ≠ .free)
    (hocc : ((k.setEnv s e).env t).status ≠ .free) : (k.env t).status ≠ .free := by
  by_cases ht : t = s
  · rw [ht]
    exact hs
  · rw [env_setEnv, if_neg ht] at hocc
    exact hocc

/-- Who is not destroyed at once is left his context. -/
theorem rests_destroy (hocc : ((k.destroy cpu s).2.env t).status ≠ .free) :
    (k.env t).status ≠ .free ∧ Env.Rests called (k.env t) ((k.destroy cpu s).2.env t) := by
  rcases destroy_cases k cpu s with ⟨hfar, hk⟩ | ⟨-, hk⟩
  · rw [hk] at hocc ⊢
    have hs : (k.env s).status ≠ .free := by
      rw [hfar.1]
      exact nofun
    exact ⟨occupied_of_setEnv hs hocc, rests_setEnv (.of_eq rfl rfl rfl)⟩
  · rw [hk] at hocc ⊢
    exact rests_free hocc

/-! ## Calls -/

/-- The result of the call that the environment in slot `s` makes on a CPU with the registers `tf`. -/
def callResult (k : State M) (cpu : Nat) (s : Slot) (tf : TrapFrame) : Option UInt32 :=
  resultWord ((performNumber cpu tf.eax tf.args).run (k.save s tf)).1

/-- **What a call makes of the context in a slot** that is occupied afterwards: it rests, but for what
the caller finds in its result register, or it is that of the caller's child. -/
theorem Performs.context {a : Args} {call : Call} {c : Completion} (h : Performs k cpu a call c k')
    (hsound : Sound policy ncpu k) (hcpu : cpu < ncpu) (hocc : (k'.env t).status ≠ .free) :
    ((k.env t).status ≠ .free ∧ Env.Rests (k.current cpu = some t) (k.env t) (k'.env t)) ∨
      (k.env t).status = .free ∧ call = .exofork ∧ ∃ p dir mem, k.current cpu = some p ∧
        (k.runQueue cpu).freeHead = some t ∧ Memory.createSpace k.memory = .ok dir mem ∧
        (k'.env t).frame = { (k.env p).frame with eax := 0 } ∧ (k'.env t).pgdir = dir := by
  have hsame : k'.env t = k.env t →
      (k.env t).status ≠ .free ∧ Env.Rests (k.current cpu = some t) (k.env t) (k'.env t) := by
    intro heq
    rw [heq] at hocc ⊢
    exact ⟨hocc, .refl _ _⟩
  cases h with
  | getEnvId | pageAlloc | pageMap | pageUnmap | yieldCpu | getCpuId => exact .inl (hsame rfl)
  | @envDestroy victim text =>
    exact .inl (rests_destroy (k := k.say .debug Log.Target.calls text) hocc)
  | @exofork p s dir mem hp hs hdir =>
    by_cases ht : t = s
    · subst ht
      have hfree := (hsound.head (hsound.queueOf_lt hcpu) hs).2
      have hpt : p ≠ t := by
        rintro rfl
        exact hsound.current_ne_free hcpu hp hfree
      have hparent : (k.occupy cpu t (k.env p).id dir mem).env p = k.env p := by
        rw [env_occupy, if_neg hpt]
      refine .inr ⟨hfree, rfl, p, dir, mem, hp, hs, hdir, ?_, ?_⟩
      · rw [env_forked, if_pos rfl, hparent]
      · rw [env_forked, if_pos rfl]
        rfl
    · refine .inl (hsame ?_)
      rw [env_forked, if_neg ht]
  | envSetStatus _ hs | envSetUpcall hs =>
    have hthere := hsound.resolve_ne_free hcpu hs
    exact .inl ⟨occupied_of_setEnv hthere hocc, rests_setEnv (.of_eq rfl rfl rfl)⟩
  | ipcTrySend hd =>
    have hstays := (hsound.alike_of_delivery hcpu hd t).toStays
    exact .inl ⟨mt hstays.free.2 hocc, .of_eq hstays.lastId hstays.pgdir (frame_of_delivery hd t)⟩
  | @ipcRecv s hva hs =>
    refine .inl ?_
    by_cases ht : t = s
    · subst ht
      rw [env_setEnv_self]
      exact ⟨hsound.current_ne_free hcpu hs, rfl, rfl, .inr ⟨hs, 0, rfl⟩⟩
    · refine hsame ?_
      rw [env_setEnv, if_neg ht]

/-- **What a system call makes of the context in a slot** that is occupied afterwards. -/
inductive CallContext (k : State M) (cpu : Nat) (tf : TrapFrame) (t : Slot) (e : Env) : Prop
  /-- Somebody else calls, or nobody. -/
  | rests : (k.env t).status ≠ .free → k.current cpu ≠ some t → Env.Rests False (k.env t) e →
      CallContext k cpu tf t e
  /-- The caller finds its result in the registers it called with. -/
  | answered {w : UInt32} : k.current cpu = some t → k.callResult cpu t tf = some w →
      e.lastId = (k.env t).lastId → e.pgdir = (k.env t).pgdir → e.frame = { tf with eax := w } →
      CallContext k cpu tf t e
  /-- The caller's child begins with the registers of the call. -/
  | child {p : Slot} {dir : PageDir} {mem : M} : (k.env t).status = .free →
      tf.eax = Call.exofork.number → k.current cpu = some p → (k.runQueue cpu).freeHead = some t →
      Memory.createSpace k.memory = .ok dir mem → e.frame = { tf with eax := 0 } → e.pgdir = dir →
      CallContext k cpu tf t e

omit [Memory M] in
/-- A result is written over whatever the call left in the result register. -/
theorem env_setResult_of_rests {e : Env} {w : UInt32}
    (h : Env.Rests called { e with frame := tf } (k.env s)) :
    ((k.setResult s w).env s).lastId = e.lastId ∧ ((k.setResult s w).env s).pgdir = e.pgdir ∧
      ((k.setResult s w).env s).frame = { tf with eax := w } := by
  rw [env_setResult, if_pos rfl]
  refine ⟨h.lastId, h.pgdir, ?_⟩
  rcases h.frame with heq | ⟨-, w', heq⟩ <;> simp only [heq]

/-- A refusal is all the caller finds, and nobody else finds anything. -/
theorem context_of_refuses {e : KernelError} (hc : k.current cpu = some s)
    (hr : Refuses (k.save s tf) cpu e k')
    (hresult : k.callResult cpu s tf = some (encodeResult (.error e.toCallError)))
    (hocc : ((k'.setResult s (encodeResult (.error e.toCallError))).env t).status ≠ .free) :
    CallContext k cpu tf t ((k'.setResult s (encodeResult (.error e.toCallError))).env t) := by
  by_cases hts : t = s
  · subst hts
    have hself : k'.env t = { k.env t with frame := tf } :=
      (hr.env_eq t).trans (env_setEnv_self k t _)
    have hrests : Env.Rests False { k.env t with frame := tf } (k'.env t) := by
      rw [hself]
      exact .refl _ _
    obtain ⟨hid, hdir, hframe⟩ := env_setResult_of_rests hrests
    exact .answered hc hresult hid hdir hframe
  · have hother : k'.env t = k.env t := (hr.env_eq t).trans (env_setEnv_ne k _ hts)
    rw [env_setResult, if_neg hts, hother] at hocc ⊢
    exact .rests hocc (fun heq => hts (Option.some.inj (heq.symm.trans hc))) (.refl _ _)

/-- A call that is performed answers its caller, and may make it a child. -/
theorem context_of_performs (h : Sound policy ncpu k) (hcpu : cpu < ncpu)
    (hc : k.current cpu = some s) {call : Call} {c : Completion} (hnumber : tf.eax = call.number)
    (hp : Performs (k.save s tf) cpu tf.args call c k')
    (hresult : k.callResult cpu s tf = resultWord (.ok c))
    (hocc : ((k'.conclude s c).env t).status ≠ .free) :
    CallContext k cpu tf t ((k'.conclude s c).env t) := by
  have hsaved : Sound policy ncpu (k.save s tf) := h.setEnv (.of_registers _ _ _)
  have hself : (k.save s tf).env s = { k.env s with frame := tf } := env_setEnv_self k s _
  by_cases hts : t = s
  · subst hts
    -- the caller was there, so what it finds is written over its own registers
    have hrests : (k'.env t).status ≠ .free → ∃ called,
        Env.Rests called { k.env t with frame := tf } (k'.env t) := by
      intro hocc'
      rcases hp.context hsaved hcpu hocc' with ⟨-, hrests⟩ | ⟨hfree, -⟩
      · exact ⟨_, hself ▸ hrests⟩
      · rw [hself] at hfree
        exact absurd hfree (h.current_ne_free hcpu hc)
    have hanswered : ∀ w, resultWord (.ok c) = some w →
        ((k'.setResult t w).env t).status ≠ .free →
        CallContext k cpu tf t ((k'.setResult t w).env t) := by
      intro w hw hocc'
      rw [env_setResult, if_pos rfl] at hocc'
      obtain ⟨called, hrests⟩ := hrests hocc'
      obtain ⟨hid, hdir, hframe⟩ := env_setResult_of_rests hrests
      exact .answered hc (hresult.trans hw) hid hdir hframe
    cases c with
    | value v => exact hanswered _ rfl hocc
    | yielded => exact hanswered 0 rfl hocc
    | exited => exact absurd (hp.gone rfl hc) hocc
  · have hsame : (k'.conclude s c).env t = k'.env t := by
      cases c with
      | value v => exact (env_setResult k' s t _).trans (if_neg hts)
      | yielded => exact (env_setResult k' s t _).trans (if_neg hts)
      | exited => rfl
    have hother : (k.save s tf).env t = k.env t := env_setEnv_ne k _ hts
    have hnot : k.current cpu ≠ some t := fun heq => hts (Option.some.inj (heq.symm.trans hc))
    rw [hsame] at hocc ⊢
    rcases hp.context hsaved hcpu hocc with ⟨hbefore, hrests⟩ |
      ⟨hfree, rfl, p, dir, mem, hp', hs, hdir, hframe, hpgdir⟩
    · rw [hother] at hbefore hrests
      refine .rests hbefore hnot ⟨hrests.lastId, hrests.pgdir, .inl ?_⟩
      exact hrests.frame.resolve_right fun hcalled => hnot hcalled.1
    · obtain rfl : s = p := Option.some.inj (hc.symm.trans hp')
      rw [hother] at hfree
      rw [hself] at hframe
      exact .child hfree hnumber hc hs hdir hframe hpgdir

/-- **Every system call leaves the contexts so.** -/
theorem Sound.context_syscall (h : Sound policy ncpu k) (hcpu : cpu < ncpu) (tf : TrapFrame)
    (hocc : ((k.syscall cpu tf).2.env t).status ≠ .free) :
    CallContext k cpu tf t ((k.syscall cpu tf).2.env t) := by
  cases hc : k.current cpu with
  | none =>
    have hsame : (k.syscall cpu tf).2 = k := by
      unfold syscall
      rw [hc]
    rw [hsame] at hocc ⊢
    exact .rests hocc (by rw [hc]; exact nofun) (.refl _ _)
  | some s =>
    have hends := @answered_performNumber M (k.save s tf) cpu tf.args _ tf.eax
    cases hop : performNumber cpu tf.eax tf.args (k.save s tf) with
    | error e k' =>
      have hresult : k.callResult cpu s tf = some (encodeResult (.error e.toCallError)) := by
        simp only [callResult, Op.run, hop, resultWord]
      rw [syscall_of_error hc hop] at hocc ⊢
      exact context_of_refuses hc (hends.of_error hop) hresult hocc
    | ok c k' =>
      obtain ⟨call, hnumber, hperforms⟩ := hends.of_ok hop
      have hresult : k.callResult cpu s tf = resultWord (.ok c) := by
        simp only [callResult, Op.run, hop]
      rw [syscall_of_ok hc hop] at hocc ⊢
      exact context_of_performs h hcpu hc hnumber hperforms hresult hocc

end State

/-! ## Visits -/

namespace Visit

variable {M : Type}

/-- The environment in a slot makes a system call: the CPU that enters runs it, and it was not marked
to go meanwhile. -/
def calls (k : State M) (s : Slot) : Visit → Bool
  | call cpu _ => k.current cpu.val = some s ∧ (k.env s).status ≠ .dying
  | create _ _ _ | alloc _ _ _ | destroy _ _ | enter _ => false

variable [Memory M]

/-- **How an environment begins**: the registers and the directory a visit gives to the new occupant
of a slot. -/
inductive Begins (k : State M) (s : Slot) : Visit → TrapFrame → PageDir → Prop
  /-- It runs a program, from its entry point. -/
  | created {cpu : CpuIndex} {image : Image} {queue entry : Nat} {dir : PageDir} {mem mem' : M} :
      (k.runQueue queue).freeHead = some s → Memory.createSpace k.memory = .ok dir mem →
      Memory.loadImage dir image mem = .ok entry mem' →
      Begins k s (create cpu image queue) { TrapFrame.user with eip := UInt32.ofNat entry } dir
  /-- It is a child, with the registers its parent called with and 0 for a result. -/
  | forked {cpu : CpuIndex} {tf : TrapFrame} {p : Slot} {dir : PageDir} {mem : M} :
      tf.eax = Call.exofork.number → (call cpu tf).calls k p = true →
      k.current cpu.val = some p → (k.runQueue cpu.val).freeHead = some s →
      Memory.createSpace k.memory = .ok dir mem →
      Begins k s (call cpu tf) { tf with eax := 0 } dir
  /-- It is a slot that was only taken. -/
  | taken {cpu : CpuIndex} {parent : Option EnvId} {queue : Nat} {dir : PageDir} {mem : M} :
      (k.runQueue queue).freeHead = some s → Memory.createSpace k.memory = .ok dir mem →
      Begins k s (alloc cpu parent queue) TrapFrame.user dir

/-- **What a visit makes of the context in a slot** that is occupied afterwards. -/
inductive Context (k : State M) (v : Visit) (s : Slot) (e : Env) : Prop
  /-- Its occupant does not call. -/
  | rests : (k.env s).status ≠ .free → v.calls k s = false → Env.Rests False (k.env s) e →
      Context k v s e
  /-- Its occupant finds the result of its call in the registers it called with. -/
  | answered {cpu : CpuIndex} {tf : TrapFrame} {w : UInt32} : v = call cpu tf → v.calls k s = true →
      (k.env s).status ≠ .free → k.callResult cpu.val s tf = some w → e.lastId = (k.env s).lastId →
      e.pgdir = (k.env s).pgdir → e.frame = { tf with eax := w } → Context k v s e
  /-- Its occupant is new. -/
  | begun : (k.env s).status = .free → v.Begins k s e.frame e.pgdir → Context k v s e

end Visit

namespace State

variable {M : Type} {k k' : State M} {policy : Policy} {ncpu cpu : Nat} {s t : Slot} {tf : TrapFrame}

variable [Memory M] {v : Visit} {x : Option (Except NothingRunnable Dispatch)}

/-- Making an environment disturbs no context, and leaves a new one in the slot it takes. -/
theorem Sound.context_create (h : Sound policy ncpu k) {queue : Nat} (hqueue : queue < ncpu)
    (c : CpuIndex) (image : Image) (s : Slot) :
    Ends (State.create image queue) k fun _ k' => (k'.env s).status ≠ .free →
      (Visit.create c image queue).Context k s (k'.env s) := by
  refine ends_create (fun _ hocc => .rests hocc rfl (.refl _ _))
    (fun _ _ _ hocc => .rests hocc rfl (.refl _ _))
    (fun t dir mem e mem' ht _ _ hocc => ?_) fun t dir mem entry mem' ht hdir hload hocc => ?_
  · obtain ⟨-, hother, hfree, -, -⟩ := h.free_occupy hqueue ht dir mem mem'
    have hst : s ≠ t := by
      rintro rfl
      exact hocc hfree
    rw [hother s hst] at hocc ⊢
    exact .rests hocc rfl (.refl _ _)
  · have henv : (({ k.occupy queue t none dir mem with memory := mem' } : State M).launch t entry).env
        s = if s = t then
          { occupied (k.env t) t none dir with
            frame := { TrapFrame.user with eip := UInt32.ofNat entry }, status := .runnable }
        else k.env s := by
      rw [launch, env_mapEnv]
      change (if s = t then _ else (k.occupy queue t none dir mem).env s) = _
      split
      · change { (k.occupy queue t none dir mem).env t with
          frame := { ((k.occupy queue t none dir mem).env t).frame with eip := UInt32.ofNat entry }
          status := Status.runnable } = _
        rw [env_occupy, if_pos rfl]
        rfl
      · next hst => rw [env_occupy, if_neg hst]
    rw [henv] at hocc ⊢
    by_cases hst : s = t
    · subst hst
      rw [if_pos rfl]
      exact .begun (h.head (h.queueOf_lt hqueue) ht).2 (.created ht hdir hload)
    · rw [if_neg hst] at hocc ⊢
      exact .rests hocc rfl (.refl _ _)

/-- Taking a slot disturbs no context either. -/
theorem Sound.context_alloc (h : Sound policy ncpu k) {queue : Nat} (hqueue : queue < ncpu)
    (c : CpuIndex) (parent : Option EnvId) (s : Slot) :
    Ends (State.alloc parent queue) k fun _ k' => (k'.env s).status ≠ .free →
      (Visit.alloc c parent queue).Context k s (k'.env s) := by
  refine ends_alloc (fun _ hocc => .rests hocc rfl (.refl _ _))
    (fun _ _ _ hocc => .rests hocc rfl (.refl _ _)) fun t dir mem ht hdir hocc => ?_
  rw [env_occupy] at hocc ⊢
  by_cases hst : s = t
  · subst hst
    rw [if_pos rfl]
    exact .begun (h.head (h.queueOf_lt hqueue) ht).2 (.taken ht hdir)
  · rw [if_neg hst] at hocc ⊢
    exact .rests hocc rfl (.refl _ _)

/-- **An entry with a system call** answers the caller unless it was marked to go. -/
theorem Sound.context_trap {c : CpuIndex} {r : Except NothingRunnable Dispatch}
    (h : Sound policy ncpu k) (hhush : k.hush = k) (hc : c.val < ncpu)
    (hk : k.trap c.val tf = .ok (r, k')) (hocc : (k'.env s).status ≠ .free) :
    (Visit.call c tf).Context k s (k'.env s) := by
  rcases trap_cases h hc hk with ⟨t, ht, hdying, hleaves⟩ | ⟨halive, hleaves⟩
  · obtain ⟨hfreed, hlast⟩ : _ ∧ Env.Rests False _ _ := rests_leaves hleaves hocc
    obtain ⟨hbefore, hfirst⟩ : _ ∧ Env.Rests False _ _ := rests_free hfreed
    refine .rests hbefore (decide_eq_false ?_) (hfirst.trans hlast)
    rintro ⟨hs, hnot⟩
    obtain rfl := Option.some.inj (ht.symm.trans hs)
    exact hnot hdying
  · rw [hhush] at hleaves
    obtain ⟨hcalled, hlast⟩ : _ ∧ Env.Rests False _ _ := rests_leaves hleaves hocc
    cases h.context_syscall hc tf hcalled with
    | rests hbefore hnot hfirst =>
      exact .rests hbefore (decide_eq_false fun hcalls => hnot hcalls.1) (hfirst.trans hlast)
    | answered hs hresult hid hdir hframe =>
      exact .answered rfl (decide_eq_true ⟨hs, halive s hs⟩) (h.current_ne_free hc hs) hresult
        (hlast.lastId.trans hid) (hlast.pgdir.trans hdir) (hlast.frame_eq.trans hframe)
    | child hfree hnumber hp hs hdir hframe hpgdir =>
      refine .begun hfree ?_
      rw [hlast.frame_eq, hlast.pgdir]
      change Visit.Begins k s _ ((k.syscall c.val tf).2.env s).frame
        ((k.syscall c.val tf).2.env s).pgdir
      rw [hframe, hpgdir]
      exact .forked hnumber (decide_eq_true ⟨hp, halive _ hp⟩) hp hs hdir

/-- **Every visit leaves the contexts so.** -/
theorem Sound.context_of_visit (h : Sound policy ncpu k) (hhush : k.hush = k) (hv : v.Proper ncpu k)
    (hk : v.effect k = .ok (x, k')) (hocc : (k'.env s).status ≠ .free) :
    v.Context k s (k'.env s) := by
  cases v with
  | create cpu image queue =>
    cases hk
    exact Op.ends_iff_run.1 (h.context_create hv.2 cpu image s) hocc
  | alloc cpu parent queue =>
    cases hk
    exact Op.ends_iff_run.1 (h.context_alloc hv.2 cpu parent s) hocc
  | destroy cpu victim =>
    cases hk
    obtain ⟨hbefore, hrests⟩ := rests_destroy hocc
    exact .rests hbefore rfl hrests
  | enter cpu =>
    obtain ⟨r, -, hpass⟩ := Visit.effect_enter_eq_ok hk
    obtain ⟨hbefore, hrests⟩ := rests_leaves (leaves_pass h hv hpass) hocc
    exact .rests hbefore rfl hrests
  | call cpu tf =>
    obtain ⟨r, -, htrap⟩ := Visit.effect_call_eq_ok hk
    exact h.context_trap hhush hv htrap hocc

/-- What was said has been shown when a visit is over. -/
theorem Sound.hush_of_visit (h : Sound policy ncpu k) (hv : v.Proper ncpu k)
    (hk : v.effect k = .ok (x, k')) : k'.hush = k' := by
  have hleaves : ∀ {cpu : Nat} {k₁ : State M} {r : Except NothingRunnable Dispatch},
      Leaves cpu k₁ r k' → k'.hush = k' := fun hleaves => by cases hleaves <;> rfl
  cases v with
  | create | alloc | destroy =>
    cases hk
    rfl
  | enter cpu =>
    obtain ⟨r, -, hpass⟩ := Visit.effect_enter_eq_ok hk
    exact hleaves (leaves_pass h hv hpass)
  | call cpu tf =>
    obtain ⟨r, -, htrap⟩ := Visit.effect_call_eq_ok hk
    rcases trap_cases h hv htrap with ⟨_, -, -, hk'⟩ | ⟨-, hk'⟩
    · exact hleaves hk'
    · exact hleaves hk'

/-- A visit that ends in user mode ends in the context of the slot its CPU runs from then on. -/
theorem Sound.dispatched_of_visit (h : Sound policy ncpu k) (hv : v.Proper ncpu k)
    {f : TrapFrame} {dir : PageDir} (hk : v.effect k = .ok (x, k'))
    (hx : x.map Exit.of = some (.user f dir)) :
    ∃ s, k'.current v.cpu.val = some s ∧ (k'.env s).status = .running ∧ (k'.env s).frame = f ∧
      (k'.env s).pgdir = dir := by
  have hleaves : ∀ {k₁ : State M} {r : Except NothingRunnable Dispatch}, x = some r →
      Leaves v.cpu.val k₁ r k' → ∃ s, k'.current v.cpu.val = some s ∧
        (k'.env s).status = .running ∧ (k'.env s).frame = f ∧ (k'.env s).pgdir = dir := by
    rintro k₁ r rfl hleaves
    cases r with
    | error e => cases hx
    | ok d =>
      cases hx
      exact ⟨d.slot, hleaves.dispatched⟩
  cases v with
  | create | alloc | destroy =>
    cases hk
    cases hx
  | enter cpu =>
    obtain ⟨r, hr, hpass⟩ := Visit.effect_enter_eq_ok hk
    exact hleaves hr (leaves_pass h hv hpass)
  | call cpu tf =>
    obtain ⟨r, hr, htrap⟩ := Visit.effect_call_eq_ok hk
    rcases trap_cases h hv htrap with ⟨_, -, -, hk'⟩ | ⟨-, hk'⟩
    · exact hleaves hr hk'
    · exact hleaves hr hk'

end State

/-! ## Along a history -/

namespace Machine

open State

variable {M : Type} [Memory M] {policy : Policy} {ncpu : Nat} {m₀ : M} {m m₁ m' : Machine M}
  {l : List (Deed (Machine M) Visit)} {v : Visit} {x : Option Exit} {s : Slot}

/-- The environment in a slot makes a system call. -/
def callsAt (s : Slot) (d : Deed (Machine M) Visit) : Bool := d.act.calls d.before.kernel s

/-- **What a history makes of the context in a slot** that is occupied at its end. The life of its
occupant goes back to a visit that found the slot free, in which it began with the registers `f₀`, and
in the directory it still has. If it has called in its life, its registers are those of its latest call
with the result of that call; otherwise they are `f₀`. -/
structure Remembers (s : Slot) (life : List (Deed (Machine M) Visit)) (birth : Deed (Machine M) Visit)
    (f₀ f : TrapFrame) (dir : PageDir) : Prop where
  occupied : ∀ d ∈ life, (d.before.kernel.env s).status ≠ .free
  free : (birth.before.kernel.env s).status = .free
  begins : birth.act.Begins birth.before.kernel s f₀ dir
  called : ∀ d, life.find? (callsAt s) = some d → ∃ cpu tf w, d.act = .call cpu tf ∧
    d.before.kernel.callResult cpu.val s tf = some w ∧ f = { tf with eax := w }
  uncalled : life.find? (callsAt s) = none → f = f₀

/-- One more visit, and what it makes of the context. -/
theorem Remembers.visit {e : Env} (hcontext : v.Context m.kernel s e)
    (h : (m.kernel.env s).status ≠ .free → ∃ life birth older f₀, l = life ++ birth :: older ∧
      Remembers s life birth f₀ (m.kernel.env s).frame (m.kernel.env s).pgdir) :
    ∃ life birth older f₀, ⟨m, v⟩ :: l = life ++ birth :: older ∧
      Remembers s life birth f₀ e.frame e.pgdir := by
  have hlonger : ∀ {life : List (Deed (Machine M) Visit)} {birth older}, l = life ++ birth :: older →
      (⟨m, v⟩ :: l : List (Deed (Machine M) Visit)) = (⟨m, v⟩ :: life) ++ birth :: older :=
    fun hl => congrArg (List.cons _) hl
  cases hcontext with
  | rests hocc hcalls hrests =>
    obtain ⟨life, birth, older, f₀, hl, hlife⟩ := h hocc
    have hnot : callsAt s (⟨m, v⟩ : Deed (Machine M) Visit) = false := hcalls
    refine ⟨_, birth, older, f₀, hlonger hl, ?_, hlife.free, ?_, ?_, ?_⟩
    · exact List.forall_mem_cons.2 ⟨hocc, hlife.occupied⟩
    · rw [hrests.pgdir]
      exact hlife.begins
    · rw [List.find?_cons, hnot, hrests.frame_eq]
      exact hlife.called
    · rw [List.find?_cons, hnot, hrests.frame_eq]
      exact hlife.uncalled
  | @answered cpu tf w hv hcalls hocc hresult _ hdir hframe =>
    obtain ⟨life, birth, older, f₀, hl, hlife⟩ := h hocc
    have hdoes : callsAt s (⟨m, v⟩ : Deed (Machine M) Visit) = true := hcalls
    refine ⟨_, birth, older, f₀, hlonger hl, ?_, hlife.free, ?_, ?_, ?_⟩
    · exact List.forall_mem_cons.2 ⟨hocc, hlife.occupied⟩
    · rw [hdir]
      exact hlife.begins
    · rw [List.find?_cons, hdoes]
      rintro _ ⟨rfl⟩
      exact ⟨cpu, tf, w, hv, hresult, hframe⟩
    · rw [List.find?_cons, hdoes]
      exact nofun
  | begun hfree hbegins =>
    refine ⟨[], ⟨m, v⟩, l, e.frame, rfl, List.forall_mem_nil _, hfree, hbegins, ?_, fun _ => rfl⟩
    intro d hd
    cases hd

/-- Nothing that was said is still to be shown between two visits. -/
theorem Ran.hush {A : Visit → Prop} {u : CpuIndex → Option Slot} (h : Ran A policy ncpu m₀ m u) :
    m.kernel.hush = m.kernel := by
  have hboth : Sound policy ncpu m.kernel ∧ m.kernel.hush = m.kernel := by
    refine h.invariant (P := fun k => Sound policy ncpu k ∧ k.hush = k) (fun k hk => ?_)
      fun k k' v x hsound _ hv hr => ?_
    · exact ⟨(Reached.init hk).sound.alike rfl rfl fun _ => .refl _, rfl⟩
    · exact ⟨hsound.1.effects (effects_of_visit hsound.1 hv hr), hsound.1.hush_of_visit hv hr⟩
  exact hboth.2

/-- **Every context is the one its history makes of it.** -/
theorem Past.remembers (h : Past policy ncpu m₀ l m) (hocc : (m.kernel.env s).status ≠ .free) :
    ∃ life birth older f₀, l = life ++ birth :: older ∧
      Remembers s life birth f₀ (m.kernel.env s).frame (m.kernel.env s).pgdir := by
  induction h with
  | start hstart =>
    obtain ⟨m, a, hfresh, hinit⟩ := hstart
    obtain ⟨k, hk, hm'⟩ := init_of_onKernel hfresh hinit
    rw [hm'] at hocc
    exact absurd (vacant_of_init hk s).1 hocc
  | @step l m m' v hpast hstep ih =>
    obtain ⟨u, hran⟩ := Past.ran hpast
    obtain ⟨r, hr⟩ := hstep.effect
    exact Remembers.visit (hran.sound.context_of_visit hran.hush hstep.1 hr hocc) ih

/-- **Saved contexts are never corrupted.** Whenever a visit ends in user mode, its CPU is then in the
slot `s` of an environment that runs, in the directory made for that environment when it began, and
with exactly these registers: those of its latest system call with the result of the call in `eax`, if
it has made one in its life, or else those it began with. A child begins with the registers its parent
called with and 0 in `eax`; a program begins with a first frame at its entry point. A visit in which an
environment does not call, whatever other environments do there, leaves it its registers and its
directory. -/
theorem Past.dispatches_what_was_saved (h : Past policy ncpu m₀ l m) (hv : v.Proper ncpu m.kernel)
    (hm₁ : m₁.kernel = m.kernel) (hperform : v.perform m₁ = .ok x m') :
    (∀ f dir, x = some (.user f dir) → ∃ s life birth older f₀,
      m'.kernel.current v.cpu.val = some s ∧ (m'.kernel.env s).status = .running ∧
      ⟨m, v⟩ :: l = life ++ birth :: older ∧ Remembers s life birth f₀ f dir) ∧
      ∀ s, (m.kernel.env s).status ≠ .free → (m'.kernel.env s).status ≠ .free →
        v.calls m.kernel s = false → (m'.kernel.env s).lastId = (m.kernel.env s).lastId ∧
        (m'.kernel.env s).frame = (m.kernel.env s).frame ∧
        (m'.kernel.env s).pgdir = (m.kernel.env s).pgdir := by
  obtain ⟨u, hran⟩ := h.ran
  obtain ⟨r, hr, hx⟩ := Visit.effect_of_perform hperform
  rw [hm₁] at hr
  refine ⟨?_, fun s hbefore hafter hcalls => ?_⟩
  · rintro f dir rfl
    obtain ⟨s, hcur, hstatus, rfl, rfl⟩ := hran.sound.dispatched_of_visit hv hr hx.symm
    have hocc : (m'.kernel.env s).status ≠ .free := by
      rw [hstatus]
      exact nofun
    -- the visit itself is the latest deed of the history the context is read off
    have hafter : Past policy ncpu m₀ (⟨m, v⟩ :: l) m' := h.step ⟨hv, m₁, _, hm₁, hperform⟩
    obtain ⟨life, birth, older, f₀, hl, hlife⟩ := hafter.remembers hocc
    exact ⟨s, life, birth, older, f₀, hcur, hstatus, hl, hlife⟩
  · cases hran.sound.context_of_visit hran.hush hv hr hafter with
    | rests _ _ hrests => exact ⟨hrests.lastId, hrests.frame_eq, hrests.pgdir⟩
    | answered _ hdoes => cases hcalls.symm.trans hdoes
    | begun hfree => exact absurd hfree hbefore

/-- A child that was made runnable gets the CPU when its parent yields, and finds 0 in `eax`. -/
theorem Past.dispatches_what_was_saved_child :
    ∃ (l : List (Deed (Machine Frames) Visit)) (m m' : Machine Frames) (v : Visit) (f : TrapFrame)
      (dir : PageDir) (life older : List (Deed (Machine Frames) Visit))
      (birth : Deed (Machine Frames) Visit) (f₀ : TrapFrame),
      Past .perCpu 1 ({} : Frames) l m ∧ v.Proper 1 m.kernel ∧
        v.perform m = .ok (some (.user f dir)) m' ∧ m'.kernel.current 0 = some 1 ∧
        ⟨m, v⟩ :: l = life ++ birth :: older ∧ Remembers 1 life birth f₀ f dir ∧ f.eax = 0 := by
  let c : CpuIndex := ⟨0, by decide⟩
  let call (n : Call) (a : Args) : Visit := .call c (TrapFrame.user.calling n.number a)
  let v : Visit := call .yieldCpu {}
  obtain ⟨l, m, hpast, hseen⟩ := exists_past .perCpu 1 ({} : Frames)
    [.create c [0x7f] 0, .enter c, call .exofork {},
      call .envSetStatus { first := 4097, second := Status.runnable.number }]
    (fun _ m =>
      match v.perform m with
      | .ok (some (.user f _)) m' => (f.eax, m'.kernel.current 0)
      | .ok (some .monitor) _ | .ok none _ | .error _ _ => (1, none))
    (b := (0, some 1)) (by decide +kernel)
  split at hseen
  · next f dir m' hperform =>
    obtain ⟨heax, hcur⟩ := Prod.mk.inj hseen
    have hv : v.Proper 1 m.kernel := Nat.one_pos
    obtain ⟨s, life, birth, older, f₀, hs, -, hl, hlife⟩ :=
      (hpast.dispatches_what_was_saved hv rfl hperform).1 f dir rfl
    obtain rfl : 1 = s := Option.some.inj (hcur.symm.trans hs)
    exact ⟨l, m, m', v, f, dir, life, older, birth, f₀, hpast, hv, hperform, hcur, hl, hlife, heax⟩
  all_goals cases (Prod.mk.inj hseen).1

end Machine

end Exokernel
