import Mathlib.Data.Fintype.Basic
import Mathlib.Data.Finset.Card
import Exokernel.Cpu.LockSet
import Exokernel.Proofs.Exits
import Exokernel.Proofs.Histories
/-!
# Locks and pairs of disabled interrupts

One depth and one saved flag of a CPU serve all the locks it holds and all the pairs of disabled
interrupts it is inside of, and these may end in any order. `Balanced` says what depth, saved flag
and interrupt flag of a CPU are when it is inside of so many pairs; `Level` says it of every CPU of a
set of locks, with a pair for each lock the CPU holds. Every operation that goes through keeps that,
and the only ones that do not go through are those a lock refuses.
-/

namespace Exokernel

/-! ## The interrupts of a CPU -/

namespace Interrupts

variable {i i' i'' : Interrupts} {c d : CpuIndex} {was : Bool} {pairs : Nat}

/-- **The CPU is inside of so many pairs**: its flag is off inside of any, and outside of all of them
it is what it was before the outermost one. -/
structure Balanced (i : Interrupts) (c : CpuIndex) (was : Bool) (pairs : Nat) : Prop where
  depth : (i.nest c).depth = pairs
  flag : i.flag c = if pairs = 0 then was else false
  saved : 0 < pairs → (i.nest c).enabledBefore = was

/-- Depth and flag of every other CPU are as they were. -/
def SameElsewhere (c : CpuIndex) (i i' : Interrupts) : Prop :=
  ∀ d, d ≠ c → i'.nest d = i.nest d ∧ i'.flag d = i.flag d

theorem SameElsewhere.refl (i : Interrupts) : SameElsewhere c i i := fun _ _ => ⟨rfl, rfl⟩

theorem SameElsewhere.trans (h : SameElsewhere c i i') (h' : SameElsewhere c i' i'') :
    SameElsewhere c i i'' :=
  fun d hd => ⟨(h' d hd).1.trans (h d hd).1, (h' d hd).2.trans (h d hd).2⟩

theorem Balanced.of_sameElsewhere (h : i.Balanced d was pairs) (hsame : SameElsewhere c i i')
    (hd : d ≠ c) : i'.Balanced d was pairs := by
  obtain ⟨hnest, hflag⟩ := hsame d hd
  exact ⟨by rw [hnest, h.depth], by rw [hflag, h.flag], fun hp => by rw [hnest, h.saved hp]⟩

theorem sameElsewhere_push : SameElsewhere c i (i.push c c) := by
  intro d hd
  constructor
  · unfold push
    rw [nest_setNest, if_neg hd, nest_setFlag]
  · unfold push
    rw [flag_setNest, flag_setFlag, if_neg hd]

/-- One pair more. The outermost one remembers the flag. -/
theorem Balanced.push (h : i.Balanced c was pairs) : (i.push c c).Balanced c was (pairs + 1) := by
  have hnest : (i.push c c).nest c = {
      depth := pairs + 1
      enabledBefore := if pairs = 0 then i.flag c else (i.nest c).enabledBefore } := by
    unfold Interrupts.push
    rw [nest_setNest, if_pos rfl, h.depth]
  refine ⟨by rw [hnest], ?_, fun _ => ?_⟩
  · unfold Interrupts.push
    rw [flag_setNest, flag_setFlag, if_pos rfl, if_neg (Nat.succ_ne_zero _)]
  · rw [hnest]
    dsimp only
    split
    · next hp => rw [h.flag, if_pos hp]
    · next hp => exact h.saved (Nat.pos_of_ne_zero hp)

/-- **A CPU inside of a pair can end one**, whichever of them began it. -/
theorem Balanced.pop (h : i.Balanced c was (pairs + 1)) :
    ∃ i', i.pop c c = .ok i' ∧ i'.Balanced c was pairs ∧ SameElsewhere c i i' := by
  have hoff : i.flag c = false := by rw [h.flag, if_neg (Nat.succ_ne_zero _)]
  have hsaved := h.saved (Nat.succ_pos _)
  let i₁ := i.setNest c { depth := pairs, enabledBefore := was }
  have hnest : i₁.nest c = { depth := pairs, enabledBefore := was } := by
    rw [nest_setNest, if_pos rfl]
  have hflag : i₁.flag c = false := hoff
  have helsewhere : SameElsewhere c i i₁ := by
    intro d hd
    exact ⟨by rw [nest_setNest, if_neg hd], rfl⟩
  have hpop : i.pop c c = .ok (if pairs = 0 ∧ was then i₁.setFlag c true else i₁) := by
    unfold Interrupts.pop
    simp only [hoff, h.depth, hsaved, Bool.false_eq_true, if_false]
    rfl
  refine ⟨_, hpop, ?_⟩
  by_cases hlast : pairs = 0 ∧ was = true
  · rw [if_pos hlast]
    obtain ⟨rfl, rfl⟩ := hlast
    refine ⟨⟨by rw [nest_setFlag, hnest], ?_, fun hp => absurd hp (Nat.lt_irrefl 0)⟩, fun d hd => ?_⟩
    · rw [flag_setFlag, if_pos rfl, if_pos rfl]
    · rw [nest_setFlag, flag_setFlag, if_neg hd]
      exact helsewhere d hd
  · rw [if_neg hlast]
    refine ⟨⟨by rw [hnest], ?_, fun _ => by rw [hnest]⟩, helsewhere⟩
    rw [hflag]
    split
    · next hp => exact (Bool.eq_false_iff.2 fun hwas => hlast ⟨hp, hwas⟩).symm
    · rfl

end Interrupts

/-! ## Asking for a lock and giving it back -/

namespace SpinLock

variable {l : SpinLock} {i i' : Interrupts} {c : CpuIndex}

/-- **Asking for a lock** that no other CPU holds: the CPU gets it, or holds it and is refused. -/
theorem ends_request {Q : Except Fault Bool → SpinLock × Interrupts → Prop}
    (hheld : l.holder = some c → Q (.error (.failed (some (l.alreadyHeld c)))) (l, i.push c c))
    (hfree : l.holder = none → Q (.ok true) ({ l with holder := some c }, i.push c c))
    (hmine : ∀ d, l.holder = some d → d = c) : Ends (request c c) (l, i) Q := by
  cases hholder : l.holder with
  | none =>
    refine (ends_request_free hholder).imp fun r t hr => ?_
    obtain ⟨rfl, rfl⟩ := hr
    exact hfree hholder
  | some d =>
    obtain rfl := hmine d hholder
    simp only [request, Ends.bind_iff, Ends.modify_iff, Ends.get_iff, Ends.ite_iff]
    exact ⟨fun _ => hheld hholder, fun hne => absurd hholder hne⟩

/-- **Giving a lock back**: the CPU does not hold it and is refused, or a pair of the CPU ends. -/
theorem ends_release {Q : Except Fault Unit → SpinLock × Interrupts → Prop}
    (hnot : l.holder ≠ some c → Q (.error (.failed (some (l.notHeld c)))) (l, i))
    (hheld : l.holder = some c →
      ∃ i', i.pop c c = .ok i' ∧ Q (.ok ⟨⟩) ({ l with holder := none }, i')) :
    Ends (release c c) (l, i) Q := by
  by_cases hholder : l.holder = some c
  · obtain ⟨i', hpop, hQ⟩ := hheld hholder
    refine (ends_release_held hholder hpop).imp fun r t hr => ?_
    obtain ⟨rfl, rfl⟩ := hr
    exact hQ
  · simp only [release, Ends.bind_iff, Ends.get_iff, Ends.ite_iff]
    exact ⟨fun _ => hnot hholder, fun hheld => absurd (not_not.1 hheld) hholder⟩

end SpinLock

/-! ## A set of locks -/

namespace LockSet

variable {n : Nat} {f : CpuIndex → Bool} {p : CpuIndex → Nat} {s t u : LockSet n} {i j : Fin n}
  {c d : CpuIndex} {o : Option CpuIndex}

theorem holding_iff : s.holding i c = true ↔ (s.word i).lock.holder = some c := by
  unfold holding
  exact decide_eq_true_iff

/-- The locks a CPU holds. -/
def held (s : LockSet n) (c : CpuIndex) : Finset (Fin n) :=
  Finset.univ.filter fun i => s.holding i c

theorem mem_held : i ∈ s.held c ↔ (s.word i).lock.holder = some c := by
  unfold held
  rw [Finset.mem_filter, holding_iff]
  exact and_iff_right (Finset.mem_univ i)

theorem word_setWord (w : GuardedWord) :
    (s.setWord i w).word j = if j = i then w else s.word j := by
  by_cases h : j = i
  · subst h
    simp [word, setWord]
  · have hne : i.val ≠ j.val := fun heq => h (Fin.ext heq.symm)
    simp [word, setWord, Vector.getElem_set_ne _ _ hne, h]

/-- The lock `i` has this holder now, and every other lock the one it had. -/
def Hands (s t : LockSet n) (i : Fin n) (h : Option CpuIndex) : Prop :=
  ∀ j, (t.word j).lock.holder = if j = i then h else (s.word j).lock.holder

theorem Hands.self (h : Hands s t i o) : (t.word i).lock.holder = o := by
  rw [h i, if_pos rfl]

/-- **A free lock that a CPU takes** is one more that it holds; the others hold what they held. -/
theorem card_held (hfree : (s.word i).lock.holder = none) (h : Hands s t i (some c)) :
    (t.held d).card = (s.held d).card + if d = c then 1 else 0 := by
  by_cases hd : d = c
  · subst hd
    have hnew : i ∉ s.held d := by
      rw [mem_held, hfree]
      exact nofun
    have hinsert : t.held d = insert i (s.held d) := by
      ext j
      rw [Finset.mem_insert, mem_held, mem_held, h j]
      by_cases hj : j = i <;> simp [hj]
    rw [hinsert, Finset.card_insert_of_notMem hnew, if_pos rfl]
  · have hsame : t.held d = s.held d := by
      ext j
      rw [mem_held, mem_held, h j]
      by_cases hj : j = i
      · subst hj
        simp [hfree, Ne.symm hd]
      · rw [if_neg hj]
    rw [hsame, if_neg hd, Nat.add_zero]

/-- **Level**: every CPU is inside of a pair for each lock that it holds and of `p` more, with its
flag from before all of them in `f`. -/
def Level (f : CpuIndex → Bool) (p : CpuIndex → Nat) (s : LockSet n) : Prop :=
  ∀ c, s.interrupts.Balanced c (f c) ((s.held c).card + p c)

/-- The set with a lock and the interrupts replaced. -/
def put (s : LockSet n) (i : Fin n) (t : SpinLock × Interrupts) : LockSet n :=
  { s.setWord i { s.word i with lock := t.1 } with interrupts := t.2 }

theorem hands_put (t : SpinLock × Interrupts) : Hands s (s.put i t) i t.1.holder := by
  intro j
  change ((s.setWord i _).word j).lock.holder = _
  rw [word_setWord]
  split <;> rfl

theorem guard_put (t : SpinLock × Interrupts) (j : Fin n) :
    ((s.put i t).word j).guard = (s.word j).guard := by
  change ((s.setWord i _).word j).guard = _
  rw [word_setWord]
  split
  · next h => rw [h]
  · rfl

theorem ends_onLock {α : Type} {x : SpinLock.Act α} {Q : Except Fault α → LockSet n → Prop} :
    Ends (onLock i x) s Q ↔
      Ends x ((s.word i).lock, s.interrupts) fun r t => Q r (s.put i t) := by
  unfold onLock
  rw [Ends.focus_iff]
  rfl

theorem lock_setGuard (g : Option CpuIndex) :
    ((s.setWord i { s.word i with guard := g }).word j).lock = (s.word j).lock := by
  rw [word_setWord]
  split
  · next h => rw [h]
  · rfl

/-- Guards have no part in it. -/
theorem Level.of_holder (h : Level f p s) (hinterrupts : t.interrupts = s.interrupts)
    (hholder : ∀ j, (t.word j).lock.holder = (s.word j).lock.holder) : Level f p t := by
  intro c
  have hheld : t.held c = s.held c := by
    ext j
    rw [mem_held, mem_held, hholder]
  rw [hinterrupts, hheld]
  exact h c

/-- **A CPU takes a lock that no other CPU holds**: it gets it, or holds it and is refused. -/
theorem ends_acquire (h : Level f p s) (hmine : ∀ d, s.holding i d = true → d = c) :
    Ends (acquire i c) s fun r t =>
      s.interrupts.SameElsewhere c t.interrupts ∧ (∀ j, (t.word j).guard = (s.word j).guard) ∧
        match r with
        | .ok _ => s.holding i c = false ∧ Hands s t i (some c) ∧ Level f p t
        | .error e => s.holding i c = true ∧
            e = .failed (some ((s.word i).lock.alreadyHeld c)) := by
  unfold acquire
  rw [Ends.bind_iff, ends_onLock]
  refine SpinLock.ends_request (fun hheld => ?_) (fun hfree => ?_)
    (fun d hd => hmine d (holding_iff.2 hd))
  · exact ⟨Interrupts.sameElsewhere_push, guard_put _, holding_iff.2 hheld, rfl⟩
  · refine ⟨Interrupts.sameElsewhere_push, guard_put _, ?_, hands_put _, fun d => ?_⟩
    · refine Bool.eq_false_iff.2 fun hheld => ?_
      exact absurd (hfree.symm.trans (holding_iff.1 hheld)) nofun
    · rw [card_held hfree (hands_put _)]
      by_cases hd : d = c
      · subst hd
        rw [if_pos rfl, Nat.add_right_comm]
        exact (h d).push
      · rw [if_neg hd, Nat.add_zero]
        exact (h d).of_sameElsewhere Interrupts.sameElsewhere_push hd

/-- **A CPU gives a lock back**: it holds it, and the lock is free, or it is refused. -/
theorem ends_release (h : Level f p s) :
    Ends (release i c) s fun r t =>
      s.interrupts.SameElsewhere c t.interrupts ∧ (∀ j, (t.word j).guard = (s.word j).guard) ∧
        match r with
        | .ok _ => s.holding i c = true ∧ Hands s t i none ∧ Level f p t
        | .error e => s.holding i c = false ∧
            e = .failed (some ((s.word i).lock.notHeld c)) := by
  unfold release
  rw [ends_onLock]
  refine SpinLock.ends_release (fun hnot => ?_) fun hheld => ?_
  · refine ⟨.refl _, guard_put _, ?_, rfl⟩
    exact Bool.eq_false_iff.2 fun hholding => hnot (holding_iff.1 hholding)
  · -- seen backwards, giving the lock back is taking it
    let taken (i' : Interrupts) := s.put i ({ (s.word i).lock with holder := none }, i')
    have hback : ∀ i', Hands (taken i') s i (some c) := by
      intro i' j
      by_cases hj : j = i
      · rw [if_pos hj, hj, hheld]
      · rw [if_neg hj, hands_put _ j, if_neg hj]
    have hcard : ∀ i' d, (s.held d).card = ((taken i').held d).card + if d = c then 1 else 0 :=
      fun i' d => card_held (hands_put _).self (hback i')
    have hpairs : s.interrupts.Balanced c (f c) (((taken s.interrupts).held c).card + p c + 1) := by
      have hc := h c
      rw [hcard s.interrupts, if_pos rfl, Nat.add_right_comm] at hc
      exact hc
    obtain ⟨i', hpop, hbalanced, helsewhere⟩ := hpairs.pop
    refine ⟨i', hpop, helsewhere, guard_put _, holding_iff.2 hheld, hands_put _, fun d => ?_⟩
    by_cases hd : d = c
    · subst hd
      exact hbalanced
    · have hother := (h d).of_sameElsewhere helsewhere hd
      rw [hcard i', if_neg hd, Nat.add_zero] at hother
      exact hother

/-! ## Operations -/

/-- What a CPU does with a set of locks. -/
inductive Operation (n : Nat) where
  | acquire (i : Fin n) (cpu : CpuIndex)
  | release (i : Fin n) (cpu : CpuIndex)
  /-- The CPU takes a guard, which replaces the one that is kept. -/
  | lock (i : Fin n) (cpu : CpuIndex)
  /-- The CPU gives back the guard that is kept. -/
  | unlock (i : Fin n) (cpu : CpuIndex)
  /-- The CPU gives back a guard of its own that is not kept any more. -/
  | drop (i : Fin n) (cpu : CpuIndex)
  | push (cpu : CpuIndex)
  | pop (cpu : CpuIndex)
deriving DecidableEq

namespace Operation

/-- The CPU that does it. -/
def cpu : Operation n → CpuIndex
  | .acquire _ c | .release _ c | .lock _ c | .unlock _ c | .drop _ c | .push c | .pop c => c

def perform : Operation n → Act n Unit
  | .acquire i c => LockSet.acquire i c
  | .release i c => LockSet.release i c
  | .lock i c => takeGuard i c
  | .unlock i c => LockSet.unlock i c
  | .drop i c => dropGuard i c c
  | .push c => LockSet.push c
  | .pop c => LockSet.pop c

/-- **In order**: no CPU waits for a lock another one holds, and a guard is given back by the CPU
it is about. -/
def Proper (s : LockSet n) : Operation n → Prop
  | .acquire i c => ∀ d, s.holding i d = true → d = c
  | .lock i c =>
    (∀ d, s.holding i d = true → d = c) ∧ ∀ d, (s.word i).guard = some d → d = c
  | .unlock i c => (s.word i).guard = some c
  | .release _ _ | .drop _ _ | .push _ | .pop _ => True

instance (s : LockSet n) : (a : Operation n) → Decidable (a.Proper s)
  | .acquire i c => inferInstanceAs (Decidable (∀ d, s.holding i d = true → d = c))
  | .lock i c =>
    inferInstanceAs (Decidable
      ((∀ d, s.holding i d = true → d = c) ∧ ∀ d, (s.word i).guard = some d → d = c))
  | .unlock i c => inferInstanceAs (Decidable ((s.word i).guard = some c))
  | .release _ _ | .drop _ _ | .push _ | .pop _ => inferInstanceAs (Decidable True)

/-- A lock refuses it: the CPU takes a lock that it holds, or gives back one that it does not. -/
def Wrong (s : LockSet n) : Operation n → Prop
  | .acquire i c | .lock i c => s.holding i c = true
  | .release i c | .unlock i c | .drop i c => s.holding i c = false
  | .push _ | .pop _ => False

/-- What the lock that refuses it says. -/
def complaint (s : LockSet n) : Operation n → Option String
  | .acquire i c | .lock i c => some ((s.word i).lock.alreadyHeld c)
  | .release i c | .unlock i c | .drop i c => some ((s.word i).lock.notHeld c)
  | .push _ | .pop _ => none

/-- It leaves the CPU with the lock. A guard that replaces another one gives the lock back again. -/
def Takes (s : LockSet n) (i : Fin n) (c : CpuIndex) : Operation n → Prop
  | .acquire j d => j = i ∧ d = c
  | .lock j d => j = i ∧ d = c ∧ (s.word j).guard = none
  | _ => False

/-- It leaves the CPU without the lock. -/
def Gives (s : LockSet n) (i : Fin n) (c : CpuIndex) : Operation n → Prop
  | .release j d | .unlock j d | .drop j d => j = i ∧ d = c
  | .lock j d => j = i ∧ d = c ∧ (s.word j).guard ≠ none
  | _ => False

/-- How many pairs of its own every CPU is inside of afterwards. -/
def pairs (p : CpuIndex → Nat) (a : Operation n) (c : CpuIndex) : Nat :=
  match a with
  | .push d => if c = d then p c + 1 else p c
  | .pop d => if c = d then p c - 1 else p c
  | _ => p c

/-- **What an operation in order does** where all is level: a lock refuses it, or all stays level and
the lock has the holder it should have. -/
structure Done (f : CpuIndex → Bool) (p : CpuIndex → Nat) (s : LockSet n) (a : Operation n)
    (t : LockSet n) : Prop where
  right : ¬ a.Wrong s
  level : Level f (a.pairs p) t
  holding : ∀ i c, t.holding i c = true ↔ a.Takes s i c ∨ ¬ a.Gives s i c ∧ s.holding i c = true

variable {a : Operation n}

/-- A lock that was free and is taken. -/
theorem holding_taken (hfree : ∀ d, s.holding i d = false) (h : Hands s t i (some c)) :
    t.holding j d = true ↔ i = j ∧ c = d ∨ s.holding j d = true := by
  rw [holding_iff, h j]
  by_cases hj : j = i
  · subst hj
    simp [hfree]
  · simp [hj, Ne.symm hj, holding_iff]

/-- A lock that was held and is given back. -/
theorem holding_given (hheld : s.holding i c = true) (h : Hands s t i none) :
    t.holding j d = true ↔ ¬ (i = j ∧ c = d) ∧ s.holding j d = true := by
  rw [holding_iff, h j]
  by_cases hj : j = i
  · subst hj
    rw [holding_iff] at hheld
    simp [holding_iff, hheld]
  · simp [hj, Ne.symm hj, holding_iff]

/-- A lock that nobody but one CPU may hold is free if that one does not hold it. -/
theorem free_of_mine (hmine : ∀ d, s.holding i d = true → d = c) (hnot : s.holding i c = false) :
    ∀ d, s.holding i d = false := by
  intro d
  refine Bool.eq_false_iff.2 fun hd => ?_
  obtain rfl := hmine d hd
  exact absurd (hd.symm.trans hnot) nofun

/-- Pairs of disabled interrupts have nothing to do with locks. -/
theorem Done.of_interrupts {i' : Interrupts} (hwrong : ¬ a.Wrong s)
    (htakes : ∀ i c, ¬ a.Takes s i c) (hgives : ∀ i c, ¬ a.Gives s i c)
    (h : ∀ c, i'.Balanced c (f c) ((s.held c).card + a.pairs p c)) :
    a.Done f p s { s with interrupts := i' } :=
  ⟨hwrong, h, fun i c => ⟨fun hi => .inr ⟨hgives i c, hi⟩,
    fun hi => (hi.resolve_left (htakes i c)).2⟩⟩

/-- Taking a guard where none is kept takes the lock; where one is kept, that one gives the lock back
again. -/
theorem ends_lock (h : Level f p s) (ha : (Operation.lock i c).Proper s) :
    Ends (takeGuard i c) s fun r t => s.interrupts.SameElsewhere c t.interrupts ∧
      match r with
      | .ok _ => (Operation.lock i c).Done f p s t
      | .error e => s.holding i c = true ∧
          e = .failed (some ((s.word i).lock.alreadyHeld c)) := by
  obtain ⟨hmine, hguard⟩ := ha
  unfold takeGuard
  rw [Ends.bind_iff]
  refine (ends_acquire h hmine).imp fun r s₁ hr => ?_
  obtain ⟨helsewhere, hguards, hr⟩ := hr
  cases r with
  | error e => exact ⟨helsewhere, hr⟩
  | ok _ =>
    obtain ⟨hnot, hhands, hlevel⟩ := hr
    have hfree := free_of_mine hmine hnot
    have hright : ¬ (Operation.lock i c).Wrong s := fun hw => absurd (hnot.symm.trans hw) nofun
    let s₂ := s₁.setWord i { s₁.word i with guard := some c }
    have hholder : ∀ j, (s₂.word j).lock.holder = (s₁.word j).lock.holder :=
      fun j => congrArg SpinLock.holder (lock_setGuard _)
    have hhands₂ : Hands s s₂ i (some c) := fun j => (hholder j).trans (hhands j)
    have hlevel₂ : Level f p s₂ := hlevel.of_holder rfl hholder
    simp only [Ends.bind_iff, Ends.get_iff, Ends.modify_iff]
    have hkept : (s₁.word i).guard = (s.word i).guard := hguards i
    cases hold : (s.word i).guard with
    | none =>
      rw [hkept, hold]
      refine ⟨helsewhere, hright, hlevel₂, fun j d => ?_⟩
      rw [holding_taken hfree hhands₂]
      simp [Takes, Gives, hold]
    | some owner =>
      obtain rfl := hguard owner hold
      rw [hkept, hold]
      refine (ends_release (c := owner) hlevel₂).imp fun r t hr => ?_
      obtain ⟨helsewhere', -, hr⟩ := hr
      refine ⟨helsewhere.trans helsewhere', ?_⟩
      have hheld : s₂.holding i owner = true := holding_iff.2 hhands₂.self
      cases r with
      | error e => exact absurd (hr.1.symm.trans hheld) nofun
      | ok _ =>
        refine ⟨hright, hr.2.2, fun j d => ?_⟩
        rw [holding_given hheld hr.2.1, holding_taken hfree hhands₂]
        simp only [Takes, Gives, hold, ne_eq, reduceCtorEq, not_false_eq_true, and_true, and_false,
          false_or]
        exact and_congr_right fun hne => or_iff_right hne

/-- Giving a lock back, by the lock itself or by a guard: `s'` is the set once the guard is taken
from where it was kept. -/
theorem ends_give {s' : LockSet n} (h : Level f p s') (hinterrupts : s'.interrupts = s.interrupts)
    (hlock : ∀ j, (s'.word j).lock = (s.word j).lock)
    (hwrong : a.Wrong s ↔ s.holding i c = false) (htakes : ∀ j d, ¬ a.Takes s j d)
    (hgives : ∀ j d, a.Gives s j d ↔ i = j ∧ c = d) (hpairs : a.pairs p = p) :
    Ends (LockSet.release i c) s' fun r t => s.interrupts.SameElsewhere c t.interrupts ∧
      match r with
      | .ok _ => a.Done f p s t
      | .error e => a.Wrong s ∧ e = .failed (some ((s.word i).lock.notHeld c)) := by
  have hholding : ∀ j d, s'.holding j d = s.holding j d := by
    intro j d
    unfold LockSet.holding
    rw [hlock]
  refine (ends_release h).imp fun r t hr => ?_
  rw [hinterrupts, hholding] at hr
  obtain ⟨helsewhere, -, hr⟩ := hr
  refine ⟨helsewhere, ?_⟩
  cases r with
  | error e =>
    rw [hlock] at hr
    exact ⟨hwrong.2 hr.1, hr.2⟩
  | ok _ =>
    obtain ⟨hheld, hhands, hlevel⟩ := hr
    refine ⟨fun hw => absurd (hheld.symm.trans (hwrong.1 hw)) nofun, by rwa [hpairs],
      fun j d => ?_⟩
    rw [holding_given ((hholding i c).trans hheld) hhands, hholding, hgives,
      or_iff_right (htakes j d)]

/-- **What an operation in order does** where all is level: it goes through, or a lock refuses it.
Whatever comes of it, no other CPU notices. -/
theorem ends_perform (h : Level f p s) (ha : a.Proper s) (hpop : ∀ c, a = .pop c → 0 < p c) :
    Ends a.perform s fun r t => s.interrupts.SameElsewhere a.cpu t.interrupts ∧
      match r with
      | .ok _ => a.Done f p s t
      | .error e => a.Wrong s ∧ e = .failed (a.complaint s) := by
  cases a with
  | acquire i c =>
    refine (ends_acquire h ha).imp fun r t hr => ⟨hr.1, ?_⟩
    obtain ⟨-, -, hr⟩ := hr
    cases r with
    | error e => exact hr
    | ok _ =>
      obtain ⟨hnot, hhands, hlevel⟩ := hr
      refine ⟨fun hw => absurd (hnot.symm.trans hw) nofun, hlevel, fun j d => ?_⟩
      rw [holding_taken (free_of_mine ha hnot) hhands]
      simp [Takes, Gives]
  | release i c =>
    exact ends_give h rfl (fun _ => rfl) Iff.rfl (fun _ _ => nofun) (fun _ _ => Iff.rfl) rfl
  | drop i c =>
    exact ends_give h rfl (fun _ => rfl) Iff.rfl (fun _ _ => nofun) (fun _ _ => Iff.rfl) rfl
  | lock i c => exact ends_lock h ha
  | unlock i c =>
    have hguard : (s.word i).guard = some c := ha
    let s' := s.setWord i { s.word i with guard := none }
    have hlock : ∀ j, (s'.word j).lock = (s.word j).lock := fun j => lock_setGuard none
    have hlevel : Level f p s' := h.of_holder rfl fun j => congrArg SpinLock.holder (hlock j)
    unfold perform LockSet.unlock guardOf
    simp only [Ends.bind_iff, Ends.get_iff, hguard, Ends.pure_iff, Ends.modify_iff]
    exact ends_give hlevel rfl hlock Iff.rfl (fun _ _ => nofun) (fun _ _ => Iff.rfl) rfl
  | push c =>
    refine ⟨Interrupts.sameElsewhere_push, Done.of_interrupts nofun (fun _ _ => nofun)
      (fun _ _ => nofun) fun d => ?_⟩
    simp only [pairs]
    by_cases hd : d = c
    · subst hd
      rw [if_pos rfl]
      exact (h d).push
    · rw [if_neg hd]
      exact (h d).of_sameElsewhere Interrupts.sameElsewhere_push hd
  | pop c =>
    obtain ⟨m, hm⟩ := Nat.exists_eq_succ_of_ne_zero (hpop c rfl).ne'
    have hpairs := h c
    rw [hm] at hpairs
    obtain ⟨i', hi', hbalanced, helsewhere⟩ := hpairs.pop
    unfold perform LockSet.pop
    rw [Ends.bind_iff, Ends.get_iff]
    dsimp only
    rw [hi']
    refine ⟨helsewhere, Done.of_interrupts nofun (fun _ _ => nofun) (fun _ _ => nofun)
      fun d => ?_⟩
    simp only [pairs]
    by_cases hd : d = c
    · subst hd
      rw [if_pos rfl, hm]
      exact hbalanced
    · rw [if_neg hd]
      exact (h d).of_sameElsewhere helsewhere hd

end Operation

/-! ## Histories -/

variable {names : Vector String n} {l : List (Deed (LockSet n) (Operation n))} {a : Operation n}

/-- The operation is in order and goes through. -/
def Steps (s : LockSet n) (a : Operation n) (t : LockSet n) : Prop :=
  a.Proper s ∧ a.perform s = .ok () t

/-- **A history of a set of locks**: at first all locks were free, no CPU was inside of a pair and the
interrupt flags were those of `f`; operations that were in order have gone through since. -/
abbrev Past (names : Vector String n) (f : CpuIndex → Bool) :
    List (Deed (LockSet n) (Operation n)) → LockSet n → Prop :=
  Traced (fun s => s = fresh names (.ofFlags f)) Steps

/-- How many pairs of its own a CPU began. -/
def pushes (c : CpuIndex) (l : List (Deed (LockSet n) (Operation n))) : Nat :=
  l.countP (·.act = .push c)

/-- How many pairs of its own a CPU ended. -/
def pops (c : CpuIndex) (l : List (Deed (LockSet n) (Operation n))) : Nat :=
  l.countP (·.act = .pop c)

/-- Whenever a CPU ended a pair of its own, it had begun more of them than it had ended. -/
def Matched (l : List (Deed (LockSet n) (Operation n))) : Prop :=
  ∀ newer e older c, l = newer ++ e :: older → e.act = .pop c → pops c older < pushes c older

/-- The CPU took the lock and has not given it back since. -/
def Unreleased (i : Fin n) (c : CpuIndex) (l : List (Deed (LockSet n) (Operation n))) : Prop :=
  ∃ newer e older, l = newer ++ e :: older ∧ e.act.Takes e.before i c ∧
    ∀ e' ∈ newer, ¬ e'.act.Gives e'.before i c

theorem matched_cons {e : Deed (LockSet n) (Operation n)} :
    Matched (e :: l) ↔ (∀ c, e.act = .pop c → pops c l < pushes c l) ∧ Matched l := by
  constructor
  · intro h
    refine ⟨fun c he => h [] e l c rfl he, fun newer e' older c hl => ?_⟩
    exact h (e :: newer) e' older c (congrArg (e :: ·) hl)
  · rintro ⟨hhead, htail⟩ newer e' older c hl he
    cases newer with
    | nil =>
      obtain ⟨rfl, rfl⟩ := List.cons.inj hl
      exact hhead c he
    | cons e₁ newer => exact htail newer e' older c (List.cons.inj hl).2 he

instance : (l : List (Deed (LockSet n) (Operation n))) → Decidable (Matched l)
  | [] => isTrue fun newer e older c hl => absurd hl (by simp)
  | e :: l =>
    have : Decidable (Matched l) := instDecidableMatched l
    decidable_of_iff _ matched_cons.symm

theorem pushes_cons (e : Deed (LockSet n) (Operation n)) (c : CpuIndex) :
    pushes c (e :: l) = pushes c l + if e.act = .push c then 1 else 0 := by
  simp [pushes, List.countP_cons]

theorem pops_cons (e : Deed (LockSet n) (Operation n)) (c : CpuIndex) :
    pops c (e :: l) = pops c l + if e.act = .pop c then 1 else 0 := by
  simp [pops, List.countP_cons]

/-- A CPU has not ended more pairs than it began. -/
theorem Matched.pops_le (h : Matched l) (c : CpuIndex) : pops c l ≤ pushes c l := by
  induction l with
  | nil => exact Nat.le_refl _
  | cons e l ih =>
    obtain ⟨hhead, htail⟩ := matched_cons.1 h
    have hle := ih htail
    rw [pushes_cons, pops_cons]
    split
    · next hpop =>
      have hlt := hhead c hpop
      omega
    · omega

/-- **One operation more**: the pairs of its own that every CPU is inside of. -/
theorem Matched.pairs_eq (h : Matched (⟨s, a⟩ :: l)) :
    a.pairs (fun c => pushes c l - pops c l) =
      fun c => pushes c (⟨s, a⟩ :: l) - pops c (⟨s, a⟩ :: l) := by
  funext c
  have hle := (matched_cons.1 h).2.pops_le c
  rw [pushes_cons, pops_cons]
  cases a with
  | push d =>
    by_cases hd : c = d
    · subst hd
      simp only [Operation.pairs, if_true, reduceCtorEq, if_false]
      omega
    · simp [Operation.pairs, hd, Ne.symm hd]
  | pop d =>
    by_cases hd : c = d
    · subst hd
      simp only [Operation.pairs, if_true, reduceCtorEq, if_false]
      omega
    · simp [Operation.pairs, hd, Ne.symm hd]
  | _ => simp [Operation.pairs]

theorem unreleased_cons {e : Deed (LockSet n) (Operation n)} : Unreleased i c (e :: l) ↔
    e.act.Takes e.before i c ∨ ¬ e.act.Gives e.before i c ∧ Unreleased i c l := by
  constructor
  · rintro ⟨newer, e', older, hl, htakes, hgives⟩
    cases newer with
    | nil =>
      obtain ⟨rfl, -⟩ := List.cons.inj hl
      exact .inl htakes
    | cons e₁ newer =>
      obtain ⟨rfl, rfl⟩ := List.cons.inj hl
      refine .inr ⟨hgives e List.mem_cons_self, newer, e', older, rfl, htakes, fun e₂ he₂ => ?_⟩
      exact hgives e₂ (List.mem_cons_of_mem _ he₂)
  · rintro (htakes | ⟨hgives, newer, e', older, rfl, htakes, hgives'⟩)
    · exact ⟨[], e, l, rfl, htakes, nofun⟩
    · refine ⟨e :: newer, e', older, rfl, htakes, fun e₂ he₂ => ?_⟩
      rcases List.mem_cons.1 he₂ with rfl | he₂
      · exact hgives
      · exact hgives' e₂ he₂

/-- At first no lock is held and no CPU is inside of a pair. -/
theorem level_fresh : Level f (fun _ => 0) (fresh names (.ofFlags f)) := by
  intro c
  have hfree : ∀ i, ((fresh names (.ofFlags f)).word i).lock.holder = none := by
    intro i
    simp [word, fresh]
  have hheld : (fresh names (.ofFlags f)).held c = ∅ := by
    ext i
    rw [mem_held, hfree]
    simp
  rw [hheld]
  refine ⟨?_, ?_, nofun⟩
  · simp [Interrupts.nest, fresh, Interrupts.ofFlags]
  · simp [Interrupts.flag, fresh, Interrupts.ofFlags]

theorem holding_fresh : (fresh names (.ofFlags f)).holding i c = false := by
  simp [holding, word, fresh]

/-- **All is level along a history** in which pairs match, and the locks a CPU holds are those it took
and has not given back. -/
theorem Past.level (h : Past names f l s) (hl : Matched l) :
    Level f (fun c => pushes c l - pops c l) s ∧
      ∀ i c, s.holding i c = true ↔ Unreleased i c l := by
  induction h with
  | start hs =>
    subst hs
    refine ⟨level_fresh, fun i c => ?_⟩
    rw [holding_fresh]
    refine ⟨nofun, fun hl' => ?_⟩
    obtain ⟨newer, e, older, hnil, -⟩ := hl'
    exact absurd hnil.symm (by simp)
  | step _ hstep ih =>
    obtain ⟨hhead, htail⟩ := matched_cons.1 hl
    obtain ⟨hlevel, hholding⟩ := ih htail
    have hdone := ((Operation.ends_perform hlevel hstep.1 fun c hc =>
      Nat.sub_pos_of_lt (hhead c hc)).of_ok hstep.2).2
    refine ⟨hl.pairs_eq ▸ hdone.level, fun i c => ?_⟩
    rw [hdone.holding, unreleased_cons, hholding]

/-- **One saved flag serves all locks and pairs.** Along a history of locks and pairs taken and ended in
any order, a CPU is inside of a pair for each lock it holds and for each of its own that it has begun
and not ended. Its interrupts are off inside of any, and outside of all of them as they were at first.
A lock is held by the CPU that took it and has not given it back, so by one at most. Whatever comes
next, it goes through, unless a lock refuses it: one the CPU asks for and already holds, or gives back
and does not hold. In any case depth and flag of the other CPUs are as they were. -/
theorem Past.depth_and_flag (h : Past names f l s) (hl : Matched l) :
    (∀ c, (s.interrupts.nest c).depth = (s.held c).card + (pushes c l - pops c l)) ∧
    (∀ c, 0 < (s.interrupts.nest c).depth → s.interrupts.flag c = false) ∧
    (∀ c, (s.interrupts.nest c).depth = 0 → s.interrupts.flag c = f c) ∧
    (∀ i c, s.holding i c = true ↔ Unreleased i c l) ∧
    (∀ i c d, s.holding i c = true → s.holding i d = true → c = d) ∧
    ∀ a : Operation n, a.Proper s → Matched (⟨s, a⟩ :: l) →
      Ends a.perform s fun r t =>
        (a.Wrong s → r = .error (.failed (a.complaint s))) ∧ (¬ a.Wrong s → r = .ok ()) ∧
        ∀ c, c ≠ a.cpu → t.interrupts.nest c = s.interrupts.nest c ∧
          t.interrupts.flag c = s.interrupts.flag c := by
  obtain ⟨hlevel, hholding⟩ := h.level hl
  refine ⟨fun c => (hlevel c).depth, fun c hc => ?_, fun c hc => ?_, hholding,
    fun i c d hi hd => ?_, fun a ha hmatched => ?_⟩
  · rw [(hlevel c).depth] at hc
    rw [(hlevel c).flag, if_neg hc.ne']
  · rw [(hlevel c).depth] at hc
    rw [(hlevel c).flag, if_pos hc]
  · exact Option.some.inj ((holding_iff.1 hi).symm.trans (holding_iff.1 hd))
  · have hpop : ∀ c, a = .pop c → 0 < pushes c l - pops c l :=
      fun c hc => Nat.sub_pos_of_lt ((matched_cons.1 hmatched).1 c hc)
    refine (Operation.ends_perform hlevel ha hpop).imp fun r t hr => ?_
    obtain ⟨helsewhere, hr⟩ := hr
    cases r with
    | ok _ => exact ⟨fun hw => absurd hw hr.right, fun _ => rfl, helsewhere⟩
    | error e => exact ⟨fun _ => congrArg _ hr.2, fun hw => absurd hr.1 hw, helsewhere⟩

/-- The set an operation leads to, if it is in order and goes through. -/
def step? (s : LockSet n) (a : Operation n) : Option (LockSet n) :=
  if a.Proper s then
    match a.perform s with
    | .ok _ t => some t
    | .error _ _ => none
  else none

theorem steps_of_step? (h : step? s a = some t) : Steps s a t := by
  unfold step? at h
  split at h
  · next ha =>
    split at h
    · next ht =>
      cases h
      exact ⟨ha, ht⟩
    · cases h
  · cases h

/-- A CPU that has given its locks and pairs back in another order than it took them, all but one lock:
it is inside of one pair still, and is refused when it asks for that lock again. -/
theorem depth_and_flag_out_of_order :
    ∃ l s, Past #v["first", "second"] (fun _ => true) l s ∧ Matched l ∧
      (s.interrupts.nest ⟨0, by decide⟩).depth = 1 ∧
      s.interrupts.flag ⟨0, by decide⟩ = false ∧
      Ends (Operation.acquire 1 ⟨0, by decide⟩).perform s fun r _ =>
        r = .error (.failed ((Operation.acquire (n := 2) 1 ⟨0, by decide⟩).complaint s)) := by
  let c : CpuIndex := ⟨0, by decide⟩
  let fst : LockSet 2 := fresh #v["first", "second"] (.ofFlags fun _ => true)
  let as : List (Operation 2) :=
    [.lock 0 c, .push c, .acquire 1 c, .unlock 0 c, .push ⟨1, by decide⟩, .pop c]
  have h : ((replay step? [] fst as).map fun q =>
      decide (Matched q.1 ∧ (q.2.interrupts.nest c).depth = 1 ∧
        (Operation.acquire 1 c).Proper q.2 ∧ q.2.holding 1 c = true)) = some true := by
    decide +kernel
  obtain ⟨⟨l, s⟩, hreplay, hlast⟩ := Option.map_eq_some_iff.1 h
  obtain ⟨hl, hdepth, hproper, hwrong⟩ := of_decide_eq_true hlast
  have hpast : Past #v["first", "second"] (fun _ => true) l s :=
    Traced.replay (fun _ _ _ => steps_of_step?) (.start rfl) hreplay
  obtain ⟨-, hoff, -, -, -, hnext⟩ := hpast.depth_and_flag hl
  refine ⟨l, s, hpast, hl, hdepth, hoff c (by rw [hdepth]; decide), ?_⟩
  refine (hnext (.acquire 1 c) hproper ?_).imp fun r t hr => hr.1 hwrong
  exact matched_cons.2 ⟨nofun, hl⟩

end LockSet

end Exokernel
