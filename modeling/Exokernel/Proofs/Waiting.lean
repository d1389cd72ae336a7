import Exokernel.Proofs.Mailboxes
/-!
# Waiting for a message

Whoever has asked for a message is not runnable, so no CPU turns to it, and sending it one makes it
runnable again. Its mark as receiving and its state are kept apart, though, and a call that makes an
environment runnable looks at neither: an ancestor can wake an environment that waits, which then runs
as if it had been sent something. That is the only way out of the wait but for a message.
-/

namespace Exokernel

/-- Environments are made with a program, make calls and are scheduled, and nothing is done to them
from outside. -/
def Action.isOrdinary : Action → Bool
  | .create _ _ | .syscall _ _ | .schedule _ | .resume _ => true
  | .alloc _ _ | .free _ | .destroy _ _ | .reap _ => false

namespace State

variable {M : Type} [Memory M] {k : State M} {policy : Policy} {ncpu : Nat} {m₀ : M} {s : Slot}
  {d : Deed (State M) Action} {l newer older : List (Deed (State M) Action)}

/-- **The wait goes on** from the asking until a message is sent or the occupant is woken. -/
theorem Past.waiting (h : Past policy ncpu m₀ l k) (hs : (k.env s).status ≠ .free)
    (hlife : lifetime s l = newer ++ d :: older) (hask : d.asksAt s = true)
    (hnewer : ∀ n ∈ newer, n.sendsTo s = false ∧ n.wakes s = false) :
    (k.env s).inbox.receiving = true ∧ (k.env s).status = .notRunnable := by
  induction newer generalizing l k with
  | nil =>
    obtain ⟨rest, rfl, -, -⟩ := exists_of_lifetime_eq hlife
    cases h with
    | step hx hstep =>
      cases (Past.reached hx).sound.turn hstep s with
      | passes _ hno => exact absurd hask (by simp [hno])
      | sent _ _ hno => exact absurd hask (by simp [hno])
      | asked _ _ _ _ hsteady => exact ⟨congrArg Inbox.receiving hsteady.inbox, hsteady.status⟩
  | cons n newer ih =>
    obtain ⟨hn, hlater⟩ := List.forall_mem_cons.1 hnewer
    have hlife : lifetime s l = [] ++ n :: (newer ++ d :: older) := hlife
    obtain ⟨rest, rfl, hrest, hocc⟩ := exists_of_lifetime_eq hlife
    cases h with
    | step hx hstep =>
      obtain ⟨hrecv, hst⟩ := ih hx hocc hrest hlater
      cases (Past.reached hx).sound.turn hstep s with
      | sent _ hsend => exact absurd hsend (by simp [hn.1])
      | asked _ _ _ _ hsteady => exact ⟨congrArg Inbox.receiving hsteady.inbox, hsteady.status⟩
      | passes _ _ hpasses =>
        cases hpasses with
        | gone hfree => exact absurd hfree hs
        | born hfree => exact absurd hfree hocc
        | kept _ _ hinbox hwait =>
          exact ⟨(congrArg Inbox.receiving hinbox).trans hrecv, hwait (by simp [hn.2]) hrecv hst⟩

omit [Memory M] in
/-- No CPU turns to a slot that is not runnable. -/
theorem Sound.not_dispatched (h : Sound policy ncpu k) {cpu : Nat} (hcpu : cpu < ncpu)
    (hst : (k.env s).status = .notRunnable) :
    (∀ x k', k.scheduleNext cpu = .ok (.ok x, k') → x.slot ≠ s) ∧
      ∀ x k', k.resume cpu = .ok (some x, k') → x.slot ≠ s := by
  refine ⟨fun x k' hk heq => ?_, fun x k' hk heq => ?_⟩
  · rcases h.scheduleNext_cases hcpu with ⟨e, hk'⟩ | ⟨t, -, hrun, hk'⟩
    · cases hk.symm.trans hk'
    · cases hk.symm.trans hk'
      obtain rfl : t = s := heq
      rw [hst] at hrun
      cases hrun
  · rcases h.resume_cases hcpu with ⟨hk', -⟩ | ⟨t, -, hrun, hk'⟩
    · cases hk.symm.trans hk'
    · cases hk.symm.trans hk'
      obtain rfl : t = s := heq
      cases hst.symm.trans hrun

/-- **An environment that waits goes on waiting** until it is sent a message, along every history in
which nobody wakes it. As long as no call has made it runnable while it was waiting, whoever is marked
as receiving is not runnable. And from the asking on, as long as no message was sent and no such call
was made, it is marked so, and no CPU turns to it. -/
theorem Past.waits_until_sent (h : Past policy ncpu m₀ l k) (hs : (k.env s).status ≠ .free) :
    ((∀ d ∈ lifetime s l, d.wakes s = false) → (k.env s).inbox.receiving = true →
        (k.env s).status = .notRunnable) ∧
      ∀ newer d older, lifetime s l = newer ++ d :: older → d.asksAt s = true →
        (∀ n ∈ newer, n.sendsTo s = false ∧ n.wakes s = false) →
          (k.env s).inbox.receiving = true ∧ (k.env s).status = .notRunnable ∧
          ∀ cpu, cpu < ncpu →
            (∀ x k', k.scheduleNext cpu = .ok (.ok x, k') → x.slot ≠ s) ∧
            ∀ x k', k.resume cpu = .ok (some x, k') → x.slot ≠ s := by
  refine ⟨fun hwakes hrecv => ?_, fun newer d older hlife hask hnewer => ?_⟩
  · obtain ⟨asked, hfind, hask⟩ :=
      (Option.any_eq_true _ _).1 ((h.mail s hs).receiving.symm.trans hrecv)
    -- whoever is marked has asked, and was sent nothing since
    obtain ⟨-, newer, older, hlife, hnone⟩ := List.find?_eq_some_iff_append.1 hfind
    refine (h.waiting hs hlife hask fun n hn => ⟨?_, ?_⟩).2
    · have hno : n.sendsTo s = false ∧ n.asksAt s = false := by simpa using hnone n hn
      exact hno.1
    · exact hwakes n (hlife ▸ List.mem_append_left _ hn)
  · obtain ⟨hrecv, hst⟩ := h.waiting hs hlife hask hnewer
    exact ⟨hrecv, hst, fun cpu hcpu => (Past.reached h).sound.not_dispatched hcpu hst⟩

/-- A child asks for a message and is sent none: the CPU goes to its parent. -/
theorem Past.waits_until_sent_asked :
    ∃ (l : List (Deed (State Frames) Action)) (k : State Frames),
      Past .perCpu 1 ({} : Frames) l k ∧ (k.env 1).status ≠ .free ∧
      (∃ n d older, lifetime 1 l = n :: d :: older ∧ d.asksAt 1 = true ∧ n.sendsTo 1 = false ∧
        n.wakes 1 = false) ∧
      (k.env 1).inbox.receiving = true ∧ (k.env 1).status = .notRunnable ∧
      ∀ x k', k.scheduleNext 0 = .ok (.ok x, k') → x.slot ≠ 1 := by
  obtain ⟨l, k, h, hseen⟩ := exists_past .perCpu 1 ({} : Frames)
    (withChild ++ [callOf .ipcRecv { first := 0xffffffff }, .schedule 0])
    (fun l k => (decide ((k.env 1).status = .free),
      (lifetime 1 l).map fun d => (d.asksAt 1, d.sendsTo 1, d.wakes 1)))
    (b := (false, [(false, false, false), (true, false, false), (false, false, false),
      (false, false, false), (false, false, false)])) (by decide +kernel)
  obtain ⟨hfree, hlife⟩ := Prod.mk.inj hseen
  have hs : (k.env 1).status ≠ .free := of_decide_eq_false hfree
  obtain ⟨n, rest, hl, hn, hrest⟩ := List.map_eq_cons_iff.1 hlife
  obtain ⟨d, older, rfl, hd, -⟩ := List.map_eq_cons_iff.1 hrest
  simp only [Prod.mk.injEq] at hn hd
  obtain ⟨hrecv, hst, hidle⟩ := (h.waits_until_sent hs).2 [n] d older hl hd.1
    (List.forall_mem_singleton.2 hn.2)
  exact ⟨l, k, h, hs, ⟨n, d, older, hl, hd.1, hn.2⟩, hrecv, hst, (hidle 0 (by decide)).1⟩

/-- A parent makes its child runnable while the child waits for a message: the child is runnable, still
marked as receiving, and gets the CPU although nothing was sent. -/
theorem Past.woken_without_message :
    ¬ ∀ (l : List (Deed (State Frames) Action)) (k : State Frames) (s : Slot),
      Past .perCpu 1 ({} : Frames) l k →
        (∀ d ∈ l, d.act.isOrdinary = true ∧ d.sendsTo s = false) →
        (k.env s).inbox.receiving = true →
          (k.env s).status = .notRunnable ∨
            ∀ x k', k.scheduleNext 0 = .ok (.ok x, k') → x.slot ≠ s := by
  intro hclaim
  obtain ⟨l, k, h, hseen⟩ := exists_past .perCpu 1 ({} : Frames)
    (withChild ++ [callOf .ipcRecv { first := 0xffffffff }, .schedule 0,
      callOf .envSetStatus { first := 0x1001, second := 2 }])
    (fun l k => (decide (∀ d ∈ l, d.act.isOrdinary = true ∧ d.sendsTo 1 = false),
      (k.env 1).inbox.receiving, (k.env 1).status,
      (k.scheduleNext 0).toOption.map fun p => p.1.toOption.map (·.slot)))
    (b := (true, true, .runnable, some (some 1))) (by decide +kernel)
  simp only [Prod.mk.injEq, decide_eq_true_eq] at hseen
  obtain ⟨hordinary, hrecv, hst, hnext⟩ := hseen
  rcases hclaim l k 1 h hordinary hrecv with hwaits | hidle
  · cases hst.symm.trans hwaits
  · obtain ⟨⟨r, k'⟩, hk', hr⟩ := exists_of_map_toOption hnext
    obtain ⟨x, rfl, hslot⟩ := exists_of_map_toOption hr
    exact hidle x k' hk' hslot

end State

end Exokernel
