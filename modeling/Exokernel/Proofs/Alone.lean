import Exokernel.Proofs.Fairness
import Exokernel.Proofs.Turning
/-!
# A program that has the kernel to itself

`Alone.exec` is what a program comes to while nobody else runs: each of its calls is handled and
answered before it goes on. The registers it makes a call with are its own business, but for those of
the call, and its view of its page tables may show a table where no page is mapped. `Alone.Succeeds`
says of a part of the user library that it ends without an error and in a course of which something
holds, as long as memory refuses nothing on the way. A call that only memory may refuse is then
performed (`Alone.Going.performs`), and the program goes on running (`Alone.Going.enter`).
-/

namespace Exokernel

open MemoryView PageView Memory

/-- **A program that nobody comes in between.** -/
structure Alone (M : Type) where
  cpu : Nat
  slot : Slot
  /-- The registers of its calls, in order, before the words of the call are put into them. -/
  registers : Nat → TrapFrame
  /-- Whether its view shows a page table for an address. -/
  covered : State M → Nat → Bool

/-- How far such a program has come. -/
structure Course (M : Type) where
  kernel : State M
  /-- The registers of its calls, the latest first. -/
  calls : List TrapFrame := []
  /-- What calls were refused for, the latest first. -/
  refusals : List KernelError := []

namespace Course

variable {M : Type}

/-- **Memory has refused nothing.** -/
def Supplied (r : Course M) : Prop := ∀ short, KernelError.memory short ∉ r.refusals

/-- The registers with which children were asked for. -/
def forks (r : Course M) : List TrapFrame := r.calls.filter (·.eax = Call.exofork.number)

end Course

namespace Alone

variable {M : Type} [Memory M] {α β ε : Type}

omit [Memory M] in
/-- The registers of the next call. -/
def frame (o : Alone M) (c : Call) (args : Args) (r : Course M) : TrapFrame :=
  (o.registers r.calls.length).calling c.number args

/-- A call is made. -/
def enter (o : Alone M) (c : Call) (args : Args) (r : Course M) : Course M :=
  let tf := o.frame c args r
  { kernel := (r.kernel.syscall o.cpu tf).2
    calls := tf :: r.calls
    refusals :=
      match State.performNumber o.cpu tf.eax tf.args (r.kernel.save o.slot tf) with
      | .ok _ _ => r.refusals
      | .error e _ => e :: r.refusals }

/-- **What a program comes to**, with its result. What is in the pages is not followed. -/
def exec (o : Alone M) : Program α → Course M → α × Course M
  | .done a, r => (a, r)
  | .enter c args p, r => o.exec p (o.enter c args r)
  | .result f, r => o.exec (f (r.kernel.env o.slot).frame.eax) r
  | .inbox f, r => o.exec (f (r.kernel.env o.slot).inbox.words) r
  | .tablePresent va f, r => o.exec (f (o.covered r.kernel va)) r
  | .pagePerm va f, r => o.exec (f ((r.kernel.mapping o.slot va).map (·.2))) r
  | .copyPage _ _ p, r => o.exec p r
  | .say _ p, r => o.exec p r

variable {o : Alone M} {r : Course M}

theorem exec_bind (p : Program α) (f : α → Program β) (r : Course M) :
    o.exec (p.bind f) r = o.exec (f (o.exec p r).1) (o.exec p r).2 := by
  induction p generalizing r with
  | done => rfl
  | enter c args p ih => exact ih _
  | result g ih => exact ih _ r
  | inbox g ih => exact ih _ r
  | tablePresent va g ih => exact ih _ r
  | pagePerm va g ih => exact ih _ r
  | copyPage src dst p ih => exact ih r
  | say l p ih => exact ih r

theorem refusals_enter (c : Call) (args : Args) (r : Course M) :
    r.refusals <:+ (o.enter c args r).refusals := by
  unfold enter
  dsimp only
  split
  · exact List.suffix_refl _
  · exact List.suffix_cons _ _

theorem refusals_exec (p : Program α) (r : Course M) :
    r.refusals <:+ (o.exec p r).2.refusals := by
  induction p generalizing r with
  | done => exact List.suffix_refl _
  | enter c args p ih => exact (refusals_enter c args r).trans (ih _)
  | result g ih => exact ih _ r
  | inbox g ih => exact ih _ r
  | tablePresent va g ih => exact ih _ r
  | pagePerm va g ih => exact ih _ r
  | copyPage src dst p ih => exact ih r
  | say l p ih => exact ih r

/-- What memory has not refused in the end it has not refused before. -/
theorem supplied_of_exec {p : Program α} (h : (o.exec p r).2.Supplied) : r.Supplied :=
  fun short hmem => h short ((refusals_exec p r).mem hmem)

/-- **A part of the user library ends without an error**, with a result and a course of which `Q`
holds, unless memory refuses something on the way. -/
def Succeeds (o : Alone M) (x : ExceptT ε Program α) (r : Course M) (Q : α → Course M → Prop) :
    Prop :=
  (o.exec x.run r).2.Supplied → ∃ a, (o.exec x.run r).1 = .ok a ∧ Q a (o.exec x.run r).2

namespace Succeeds

variable {Q : α → Course M → Prop} {x : ExceptT ε Program α}

theorem pure {a : α} (h : Q a r) : o.Succeeds (pure a : ExceptT ε Program α) r Q :=
  fun _ => ⟨a, rfl, h⟩

theorem imp {Q' : α → Course M → Prop} (h : o.Succeeds x r Q) (himp : ∀ a r, Q a r → Q' a r) :
    o.Succeeds x r Q' := fun hsup => by
  obtain ⟨a, ha, hQ⟩ := h hsup
  exact ⟨a, ha, himp a _ hQ⟩

/-- **One part after the other.** -/
theorem bind {f : α → ExceptT ε Program β} {R : β → Course M → Prop} (h : o.Succeeds x r Q)
    (hf : ∀ a r', Q a r' → o.Succeeds (f a) r' R) : o.Succeeds (x >>= f) r R := by
  intro hsup
  have hrun : (x >>= f).run = x.run.bind (ExceptT.bindCont f) := rfl
  rw [hrun, exec_bind] at hsup ⊢
  obtain ⟨a, ha, hQ⟩ := h (supplied_of_exec hsup)
  rw [ha] at hsup ⊢
  exact hf a _ hQ hsup

/-- The program looks at its own pages. -/
theorem look {va : Nat} {f : Option Perm → ExceptT ε Program α}
    (h : o.Succeeds (f ((r.kernel.mapping o.slot va).map (·.2))) r Q) :
    o.Succeeds (do f (← Program.space.pagePerm va)) r Q := h

/-- The program looks for a page table. -/
theorem lookTable {va : Nat} {f : Bool → ExceptT ε Program α}
    (h : o.Succeeds (f (o.covered r.kernel va)) r Q) :
    o.Succeeds (do f (← Program.space.tablePresent va)) r Q := h

/-- **A call and its answer.** -/
theorem perform {c : Call} {args : Args} {Q : UInt32 → Course M → Prop}
    (h : (o.enter c args r).Supplied →
      ∃ v, decodeResult ((o.enter c args r).kernel.env o.slot).frame.eax = .ok v ∧
        Q v (o.enter c args r)) :
    o.Succeeds (Program.syscalls.perform c args) r Q := h

/-- A call whose answer is of no interest. -/
theorem ask {c : Call} {args : Args} {Q : Course M → Prop}
    (h : (o.enter c args r).Supplied →
      ((o.enter c args r).kernel.env o.slot).frame.eax = 0 ∧ Q (o.enter c args r)) :
    o.Succeeds (do let _ ← Program.syscalls.perform c args) r fun _ => Q := by
  refine (perform (Q := fun _ => Q) fun hsup => ?_).bind fun _ _ hQ => pure hQ
  obtain ⟨hzero, hQ⟩ := h hsup
  exact ⟨0, by rw [hzero]; rfl, hQ⟩

/-- What a part comes to is looked at. -/
theorem attempt {f : Except ε α → ExceptT ε Program β} {R : β → Course M → Prop}
    (h : o.Succeeds x r Q) (hf : ∀ a r', Q a r' → o.Succeeds (f (.ok a)) r' R) :
    o.Succeeds (do f (← ExceptT.lift x.run)) r R := by
  intro hsup
  have hrun : (do f (← ExceptT.lift x.run)).run =
      (x.run.bind fun a => .done (.ok a)).bind (ExceptT.bindCont f) := rfl
  rw [hrun, exec_bind, exec_bind] at hsup ⊢
  obtain ⟨a, ha, hQ⟩ := h (supplied_of_exec hsup)
  rw [ha] at hsup ⊢
  exact hf a _ hQ hsup

end Succeeds

end Alone

/-! ## Calls that memory does not refuse -/

namespace State

variable {M : Type} {k : State M} {s : Slot}

theorem upcall_setResult (k : State M) (s u : Slot) (w : UInt32) :
    ((k.setResult s w).env u).upcall = (k.env u).upcall := by
  rw [env_setResult]
  split
  · next hu => rw [hu]
  · rfl

theorem upcall_save (k : State M) (s u : Slot) (tf : TrapFrame) :
    ((k.save s tf).env u).upcall = (k.env u).upcall := by
  rw [env_save]
  split
  · next hu => rw [hu]
  · rfl

theorem upcall_conclude (k : State M) (s u : Slot) (c : Completion) :
    ((k.conclude s c).env u).upcall = (k.env u).upcall := by
  cases c with
  | value v => exact upcall_setResult k s u _
  | yielded => exact upcall_setResult k s u 0
  | exited => rfl

variable [Memory M] {policy : Policy} {ncpu cpu : Nat} {k' : State M} {tf : TrapFrame} {a : Args}
  {call : Call} {c : Completion} {u : Slot}

/-- **Who is there keeps the entry point of its fault handler**, but for the one that is given
another. -/
theorem Sound.upcall_of_performs (hsound : Sound policy ncpu k) (hcpu : cpu < ncpu)
    (hp : Performs (k.save s tf) cpu a call c k') (hcopies : call.copies = true)
    (hset : call ≠ .envSetUpcall) (hu : (k.env u).status ≠ .free) :
    ((k'.conclude s c).env u).upcall = (k.env u).upcall := by
  rw [upcall_conclude, ← upcall_save k s u tf]
  have hsaved : Sound policy ncpu (k.save s tf) := hsound.setEnv (.of_registers _ _ _)
  cases hp with
  | getEnvId | envDestroy | yieldCpu | ipcTrySend | ipcRecv | getCpuId => cases hcopies
  | pageAlloc | pageMap | pageUnmap => rfl
  | exofork _ hhead _ =>
    have hfree := (hsaved.head (hsaved.queueOf_lt hcpu) hhead).2
    rw [env_forked, if_neg]
    rintro rfl
    exact hu ((same_save k s u tf).status ▸ hfree)
  | envSetStatus =>
    rw [env_setEnv]
    split
    · next hut => rw [hut]
    · rfl
  | envSetUpcall => exact absurd rfl hset

/-- The one that is given another. -/
theorem upcall_of_performs (hp : Performs (k.save s tf) cpu a .envSetUpcall c k') :
    ∃ t, k.resolve cpu a.first true = .ok t ∧
      ∀ u, ((k'.conclude s c).env u).upcall = if u = t then a.second.toNat else (k.env u).upcall := by
  cases hp with
  | @envSetUpcall t ht =>
    refine ⟨t, resolve_save k s tf _ ▸ ht, fun u => ?_⟩
    rw [upcall_conclude, env_setEnv]
    split
    · rfl
    · exact upcall_save k s u tf

/-- A status that is set is all that is set. -/
theorem lastId_of_performs (hp : Performs (k.save s tf) cpu a .envSetStatus c k') :
    ((k'.conclude s c).env u).lastId = (k.env u).lastId := by
  rw [← (same_save k s u tf).lastId]
  cases hp with
  | envSetStatus =>
    refine (same_setResult _ s u _).lastId.trans ?_
    rw [env_setEnv]
    split
    · next hut => rw [hut]
    · rfl

/-- **A child has the registers of the call it was made by**, and 0 for the answer. -/
theorem Sound.frame_of_performs (hsound : Sound policy ncpu k) (hcpu : cpu < ncpu)
    (hcur : k.current cpu = some s) (hp : Performs (k.save s tf) cpu a .exofork c k')
    (hbefore : (k.env u).status = .free) (hafter : ((k'.conclude s c).env u).status ≠ .free) :
    ((k'.conclude s c).env u).frame = { tf with eax := 0 } := by
  have hus : u ≠ s := by
    rintro rfl
    exact hsound.current_ne_free hcpu hcur hbefore
  cases hp with
  | @exofork p t dir mem hparent =>
    obtain rfl : s = p := Option.some.inj (hcur.symm.trans hparent)
    have hconcluded := env_setResult ((k.save s tf).forked cpu s t dir mem) s u
      (encodeResult (.ok (EnvId.next ((k.save s tf).env t).lastId t).raw))
    rw [if_neg hus, env_forked] at hconcluded
    rw [conclude, hconcluded] at hafter ⊢
    split
    · next hut =>
      subst hut
      have hself : ((k.save s tf).env s).frame = tf := by rw [env_save, if_pos rfl]
      change { (((k.save s tf).occupy cpu u _ dir mem).env s).frame with eax := 0 } = _
      rw [env_occupy, if_neg (Ne.symm hus), hself]
    · next hut =>
      rw [if_neg hut, (same_save k s u tf).status] at hafter
      exact absurd hbefore hafter

end State

namespace Alone

open State

variable {M : Type} [Memory M] {o : Alone M} {policy : Policy} {ncpu : Nat} {m₀ : M} {r : Course M}
  {c : Call} {args : Args}

/-- **The program runs**, in a state that was reached. -/
structure Going (o : Alone M) (policy : Policy) (ncpu : Nat) (m₀ : M) (r : Course M) : Prop where
  reached : Reached policy ncpu m₀ r.kernel
  runs : r.kernel.Runs ncpu o.cpu o.slot

namespace Going

theorem there (h : o.Going policy ncpu m₀ r) : (r.kernel.env o.slot).status ≠ .free := h.runs.there

/-- The program goes on running where its state says so. -/
theorem enter (h : o.Going policy ncpu m₀ r)
    (hstatus : ((o.enter c args r).kernel.env o.slot).status = .running) :
    o.Going policy ncpu m₀ (o.enter c args r) := by
  obtain ⟨hcpu, hcur, hrunning⟩ := h.runs
  have hreached : Reached policy ncpu m₀ (o.enter c args r).kernel :=
    h.reached.step (a := .syscall o.cpu (o.frame c args r)) hcpu rfl
  refine ⟨hreached, hcpu, ?_, hstatus⟩
  rcases h.reached.sound.current_syscall_cases hcpu o.cpu (o.frame c args r) with hkept | hgone
  · exact hkept.trans hcur
  · obtain ⟨-, t, ht, hfree⟩ := hgone
    obtain rfl : o.slot = t := Option.some.inj (hcur.symm.trans ht)
    cases hstatus.symm.trans hfree

/-- **A call that is refused for want of memory alone is performed.** -/
theorem performs (h : o.Going policy ncpu m₀ r)
    (hsup : (o.enter c args r).Supplied)
    (hshort : Ends (perform o.cpu c args) (r.kernel.save o.slot (o.frame c args r))
      fun result _ => ∀ e, result = .error e → ∃ short, e = .memory short) :
    ∃ completion k', Performs (r.kernel.save o.slot (o.frame c args r)) o.cpu args c completion k' ∧
      (o.enter c args r).kernel = k'.conclude o.slot completion := by
  have hcall : performNumber o.cpu (o.frame c args r).eax (o.frame c args r).args
      (r.kernel.save o.slot (o.frame c args r)) =
      perform o.cpu c args (r.kernel.save o.slot (o.frame c args r)) := by
    unfold frame
    rw [TrapFrame.eax_calling, TrapFrame.args_calling, performNumber, Call.ofNumber?_number]
  cases hop : perform o.cpu c args (r.kernel.save o.slot (o.frame c args r)) with
  | error e k' =>
    obtain ⟨short, rfl⟩ := hshort.of_error hop e rfl
    refine absurd ?_ (hsup short)
    unfold Alone.enter
    dsimp only
    rw [hcall, hop]
    exact List.mem_cons_self
  | ok completion k' =>
    refine ⟨completion, k', (answered_perform c).of_ok hop, ?_⟩
    exact congrArg Prod.snd (syscall_of_ok h.runs.2.1 (hcall.trans hop))

end Going

end Alone

end Exokernel
