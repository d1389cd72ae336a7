import Exokernel.User.Fork
/-!
# What a program exchanges with the machine

A program of the user library makes calls and looks at its page tables, and what it does next
depends on what it is answered. `Syscalls.watched` and `AddressSpace.watched` write down what is
asked and answered, whatever way into the kernel and whatever address space they stand before, and
`Watches` says that a program is not disturbed by that. The calls a program makes follow a plan: one
after the other, up to the first that is refused (`Attempt`).
-/

namespace Exokernel

/-- A call that was made, and the word it was answered with. -/
structure Asked where
  call : Call
  args : Args
  answer : UInt32
deriving DecidableEq

/-- What was asked. -/
def Asked.request (a : Asked) : Call × Args := (a.call, a.args)

/-- The call was refused. -/
def Asked.refused (a : Asked) : Bool :=
  match decodeResult a.answer with
  | .ok _ => false
  | .error _ => true

/-- **What is exchanged** between a program and the machine. -/
inductive Exchange where
  | asked (a : Asked)
  /-- A page table covers the address, or none does. -/
  | table (va : Nat) (present : Bool)
  /-- The permission of the page at the address, if there is one. -/
  | page (va : Nat) (perm : Option Perm)
  | copied (src dst : Nat)
deriving DecidableEq

/-- The calls among what was exchanged. -/
def calls : List Exchange → List Asked
  | [] => []
  | .asked a :: l => a :: calls l
  | .table _ _ :: l | .page _ _ :: l | .copied _ _ :: l => calls l

@[simp] theorem calls_append (l l' : List Exchange) : calls (l ++ l') = calls l ++ calls l' := by
  induction l with
  | nil => rfl
  | cons e l ih =>
    cases e with
    | asked a => exact congrArg (a :: ·) ih
    | table | page | copied => exact ih

/-- **What a program is told** when it looks at its page tables. -/
structure Told where
  table : Nat → Bool
  page : Nat → Option Perm

/-- A look shows what is told; a call shows nothing of the page tables. -/
def Exchange.Shows (v : Told) : Exchange → Prop
  | .table va present => present = v.table va
  | .page va perm => perm = v.page va
  | .asked _ | .copied _ _ => True

instance (v : Told) : DecidablePred (Exchange.Shows v)
  | .table va present => inferInstanceAs (Decidable (present = v.table va))
  | .page va perm => inferInstanceAs (Decidable (perm = v.page va))
  | .asked _ | .copied _ _ => .isTrue trivial

/-! ## Writing it down -/

/-- A computation whose exchanges are written down, oldest first. -/
def Watched (σ α : Type) : Type := σ → (α × List Exchange) × σ

namespace Watched

variable {σ α β : Type}

instance : Monad (Watched σ) where
  pure a x := ((a, []), x)
  bind y f x :=
    match y x with
    | ((a, l), x₁) =>
      match f a x₁ with
      | ((b, l'), x₂) => ((b, l ++ l'), x₂)

/-- The computation, with what comes of it and what was exchanged. -/
def run (y : Watched σ α) (x : σ) : (α × List Exchange) × σ := y x

/-- The computation that does what another does, with something written down about it. -/
def note (z : StateM σ α) (e : α → List Exchange) : Watched σ α := fun x =>
  match z.run x with
  | (a, x') => ((a, e a), x')

instance [MonadLog (StateM σ)] : MonadLog (Watched σ) where
  say r := note (say r) fun _ => []

end Watched

section Watched

variable {σ : Type}

/-- A way into the kernel, with the calls and their answers written down. -/
def Syscalls.watched (sys : Syscalls (StateM σ)) : Syscalls (Watched σ) where
  call c args := .note (sys.call c args) fun w => [.asked ⟨c, args, w⟩]
  inbox := .note sys.inbox fun _ => []

/-- An address space, with the looks at it written down. -/
def AddressSpace.watched (space : AddressSpace (StateM σ)) : AddressSpace (Watched σ) where
  tablePresent va := .note (space.tablePresent va) fun b => [.table va b]
  pagePerm va := .note (space.pagePerm va) fun m => [.page va m]
  copyPage src dst := .note (space.copyPage src dst) fun _ => [.copied src dst]

/-- What an address space tells in a state. -/
def AddressSpace.told (space : AddressSpace (StateM σ)) (x : σ) : Told where
  table va := (StateT.run (space.tablePresent va) x).1
  page va := (StateT.run (space.pagePerm va) x).1

end Watched

/-! ## Watching -/

/-- **Writing down does not disturb**, from the state `x` on: what comes of the computation `y` and
the state it leaves are those of `z`, and `P` holds of what was exchanged on the way, of what comes
of it and of the state. -/
def WatchesFrom {σ α : Type} (x : σ) (y : Watched σ α) (z : StateM σ α)
    (P : List Exchange → α → σ → Prop) : Prop :=
  ∃ l, y.run x = (((z.run x).1, l), (z.run x).2) ∧ P l (z.run x).1 (z.run x).2

/-- Writing down does not disturb, whatever the state. -/
def Watches {σ α : Type} (y : Watched σ α) (z : StateM σ α) (P : List Exchange → α → Prop) : Prop :=
  ∀ x, WatchesFrom x y z fun l a _ => P l a

namespace WatchesFrom

variable {σ α β ε : Type} {x : σ}

theorem imp {y : Watched σ α} {z : StateM σ α} {P Q : List Exchange → α → σ → Prop}
    (h : WatchesFrom x y z P) (himp : ∀ l a x', P l a x' → Q l a x') : WatchesFrom x y z Q := by
  obtain ⟨l, hy, hP⟩ := h
  exact ⟨l, hy, himp _ _ _ hP⟩

theorem pure {P : List Exchange → α → σ → Prop} {a : α} (h : P [] a x) :
    WatchesFrom x (Pure.pure a : Watched σ α) (Pure.pure a : StateM σ α) P :=
  ⟨[], rfl, h⟩

/-- What is written down of one thing. -/
theorem note (z : StateM σ α) (e : α → List Exchange) : WatchesFrom x (.note z e) z fun l a x' =>
    l = e a ∧ (a, x') = z.run x :=
  ⟨_, rfl, rfl, rfl⟩

/-- **One computation after the other.** -/
theorem bind {y : Watched σ α} {z : StateM σ α} {f : α → Watched σ β} {g : α → StateM σ β}
    {P : List Exchange → α → σ → Prop} {R : List Exchange → β → σ → Prop} (h : WatchesFrom x y z P)
    (hf : ∀ l a x', P l a x' → WatchesFrom x' (f a) (g a) fun l' b x'' => R (l ++ l') b x'') :
    WatchesFrom x (y >>= f) (z >>= g) R := by
  obtain ⟨l, hy, hP⟩ := h
  obtain ⟨l', hf, hR⟩ := hf _ _ _ hP
  refine ⟨l ++ l', ?_, hR⟩
  have hstep : (y >>= f).run x =
      ((((f (y.run x).1.1).run (y.run x).2).1.1,
        (y.run x).1.2 ++ ((f (y.run x).1.1).run (y.run x).2).1.2),
          ((f (y.run x).1.1).run (y.run x).2).2) := rfl
  rw [hstep, hy, hf]
  rfl

/-- What comes of a computation is read in some way. -/
theorem map {y : Watched σ α} {z : StateM σ α} {P : List Exchange → α → σ → Prop}
    (h : WatchesFrom x y z P) (f : α → β) :
    WatchesFrom x (f <$> y) (f <$> z) fun l b x' => ∃ a, b = f a ∧ P l a x' := by
  refine h.bind fun l a x' hP => .pure ⟨a, rfl, ?_⟩
  rwa [List.append_nil]

/-- The same, where an error ends it. -/
theorem bindE {y : ExceptT ε (Watched σ) α} {z : ExceptT ε (StateM σ) α}
    {f : α → ExceptT ε (Watched σ) β} {g : α → ExceptT ε (StateM σ) β}
    {P : List Exchange → Except ε α → σ → Prop} {R : List Exchange → Except ε β → σ → Prop}
    (h : WatchesFrom x y.run z.run P)
    (hok : ∀ l a x', P l (.ok a) x' →
      WatchesFrom x' (f a).run (g a).run fun l' r x'' => R (l ++ l') r x'')
    (herror : ∀ l e x', P l (.error e) x' → R l (.error e) x') :
    WatchesFrom x (y >>= f).run (z >>= g).run R := by
  refine h.bind (f := ExceptT.bindCont f) (g := ExceptT.bindCont g) fun l r x' hP => ?_
  cases r with
  | ok a => exact hok l a x' hP
  | error e =>
    refine .pure ?_
    rw [List.append_nil]
    exact herror l e x' hP

/-- A computation without errors of its own. -/
theorem lift {y : Watched σ α} {z : StateM σ α} {P : List Exchange → α → σ → Prop}
    (h : WatchesFrom x y z P) :
    WatchesFrom x (ExceptT.lift y : ExceptT ε (Watched σ) α).run
      (ExceptT.lift z : ExceptT ε (StateM σ) α).run fun l r x' => ∃ a, r = .ok a ∧ P l a x' :=
  h.map _

end WatchesFrom

namespace Watches

variable {σ α β ε : Type} {P : List Exchange → α → Prop}

theorem pure {a : α} (h : P [] a) :
    Watches (Pure.pure a : Watched σ α) (Pure.pure a : StateM σ α) P :=
  fun _ => .pure h

/-- What is written down of one thing. -/
theorem note (z : StateM σ α) (e : α → List Exchange) : Watches (.note z e) z fun l a => l = e a :=
  fun _ => (WatchesFrom.note z e).imp fun _ _ _ h => h.1

/-- Speaking to the log is not written down. -/
theorem say [MonadLog (StateM σ)] (r : Log.Record) :
    Watches (MonadLog.say r : Watched σ Unit) (MonadLog.say r : StateM σ Unit) fun l _ => l = [] :=
  note _ fun _ => []

/-- One computation after the other. -/
theorem bind {y : Watched σ α} {z : StateM σ α} {f : α → Watched σ β} {g : α → StateM σ β}
    {Q : α → List Exchange → β → Prop} {R : List Exchange → β → Prop} (h : Watches y z P)
    (hf : ∀ a, Watches (f a) (g a) (Q a)) (hR : ∀ l a l' b, P l a → Q a l' b → R (l ++ l') b) :
    Watches (y >>= f) (z >>= g) R :=
  fun x => (h x).bind fun l a x' hP => (hf a x').imp fun l' b _ => hR l a l' b hP

/-- The same, where an error ends it. -/
theorem bindE {P : List Exchange → Except ε α → Prop} {y : ExceptT ε (Watched σ) α}
    {z : ExceptT ε (StateM σ) α} {f : α → ExceptT ε (Watched σ) β} {g : α → ExceptT ε (StateM σ) β}
    {Q : α → List Exchange → Except ε β → Prop} {R : List Exchange → Except ε β → Prop}
    (h : Watches y.run z.run P) (hf : ∀ a, Watches (f a).run (g a).run (Q a))
    (hok : ∀ new a new' r, P new (.ok a) → Q a new' r → R (new ++ new') r)
    (herror : ∀ new e, P new (.error e) → R new (.error e)) :
    Watches (y >>= f).run (z >>= g).run R :=
  fun x => (h x).bindE (fun l a x' hP => (hf a x').imp fun l' r _ => hok l a l' r hP)
    fun l e _ => herror l e

/-- A computation without errors of its own. -/
theorem lift {y : Watched σ α} {z : StateM σ α} (h : Watches y z P) :
    Watches (ExceptT.lift y : ExceptT ε (Watched σ) α).run
      (ExceptT.lift z : ExceptT ε (StateM σ) α).run fun new r => ∃ a, r = .ok a ∧ P new a :=
  fun x => (h x).lift

end Watches

/-! ## Plans -/

/-- **The calls of a plan are made** in order, each as long as none was refused. -/
inductive Attempt : List (Call × Args) → List Asked → Except CallError Unit → Prop
  | done : Attempt [] [] (.ok ())
  | granted {c : Call} {args : Args} {w value : UInt32} {plan : List (Call × Args)} {l : List Asked}
      {r : Except CallError Unit} : decodeResult w = .ok value → Attempt plan l r →
      Attempt ((c, args) :: plan) (⟨c, args, w⟩ :: l) r
  | refused {c : Call} {args : Args} {w : UInt32} {e : CallError} {plan : List (Call × Args)} :
      decodeResult w = .error e → Attempt ((c, args) :: plan) [⟨c, args, w⟩] (.error e)

namespace Attempt

variable {plan plan' : List (Call × Args)} {l l' : List Asked} {r : Except CallError Unit}
  {e : CallError}

/-- One plan after the other. -/
theorem append (h : Attempt plan l (.ok ())) (h' : Attempt plan' l' r) :
    Attempt (plan ++ plan') (l ++ l') r := by
  generalize hr : (.ok () : Except CallError Unit) = r' at h
  induction h with
  | done => exact h'
  | granted hw _ ih => exact .granted hw (ih hr)
  | refused => cases hr

/-- What comes after a call that is refused does not matter. -/
theorem stop (h : Attempt plan l (.error e)) (plan' : List (Call × Args)) :
    Attempt (plan ++ plan') l (.error e) := by
  generalize hr : (.error e : Except CallError Unit) = r' at h ⊢
  induction h with
  | done => cases hr
  | granted hw _ ih => exact .granted hw (ih hr)
  | refused hw => exact .refused hw

/-- **A plan that is carried out** has all its calls made, and none refused. -/
theorem of_ok (h : Attempt plan l (.ok ())) :
    l.map Asked.request = plan ∧ ∀ a ∈ l, a.refused = false := by
  generalize hr : (.ok () : Except CallError Unit) = r' at h
  induction h with
  | done => exact ⟨rfl, nofun⟩
  | granted hw _ ih =>
    obtain ⟨hplan, hgranted⟩ := ih hr
    refine ⟨by rw [List.map_cons, hplan]; rfl, List.forall_mem_cons.2 ⟨?_, hgranted⟩⟩
    rw [Asked.refused, hw]
  | refused => cases hr

/-- The last call of a plan is made only to be refused, if the plan is broken off. -/
theorem refused_last {p : List (Call × Args)} {q : Call × Args} {c : Call}
    (hp : ∀ r ∈ p, r.1 ≠ c) : ∀ {l : List Asked}, Attempt (p ++ [q]) l (.error e) →
      ∀ a ∈ l, a.call = c → a.refused = true := by
  induction p with
  | nil =>
    intro l h a ha _
    cases h with
    | granted _ h => cases h
    | refused hw =>
      rw [List.mem_singleton.1 ha, Asked.refused, hw]
  | cons r p ih =>
    obtain ⟨hr, hrest⟩ := List.forall_mem_cons.1 hp
    intro l h a ha hc
    cases h with
    | granted _ h =>
      rcases List.mem_cons.1 ha with rfl | ha
      · exact absurd hc hr
      · exact ih hrest h a ha hc
    | refused =>
      rw [List.mem_singleton.1 ha] at hc
      exact absurd hc hr

/-- Nothing is asked but what was planned. -/
theorem mem_plan (h : Attempt plan l r) {a : Asked} (ha : a ∈ l) : a.request ∈ plan := by
  induction h with
  | done => cases ha
  | granted _ _ ih =>
    rcases List.mem_cons.1 ha with rfl | ha
    · exact .head _
    · exact .tail _ (ih ha)
  | refused =>
    rw [List.mem_singleton.1 ha]
    exact .head _

end Attempt

/-- **The program follows the plan**, where its page tables are as it is told. -/
def Follows {σ : Type} (v : Told) (plan : List (Call × Args))
    (y : ExceptT CallError (Watched σ) Unit) (z : ExceptT CallError (StateM σ) Unit) : Prop :=
  Watches y.run z.run fun new r => (∀ e ∈ new, e.Shows v) → Attempt plan (calls new) r

/-- **A call and its answer.** -/
theorem watchesFrom_perform {σ : Type} (sys : Syscalls (StateM σ)) (c : Call) (args : Args) (x : σ) :
    WatchesFrom x (sys.watched.perform c args).run (sys.perform c args).run fun new r x' =>
      ∃ w, new = [.asked ⟨c, args, w⟩] ∧ r = decodeResult w ∧ (w, x') = (sys.call c args).run x := by
  have hcall : WatchesFrom x (sys.watched.call c args) (sys.call c args) fun new w x' =>
      new = [.asked ⟨c, args, w⟩] ∧ (w, x') = (sys.call c args).run x :=
    .note (sys.call c args) fun w => [.asked ⟨c, args, w⟩]
  refine (hcall.map decodeResult).imp ?_
  rintro new r x' ⟨w, hr, hnew, hrun⟩
  exact ⟨w, hnew, hr, hrun⟩

theorem watches_perform {σ : Type} (sys : Syscalls (StateM σ)) (c : Call) (args : Args) :
    Watches (sys.watched.perform c args).run (sys.perform c args).run fun new r =>
      ∃ w, new = [.asked ⟨c, args, w⟩] ∧ r = decodeResult w :=
  fun x => (watchesFrom_perform sys c args x).imp fun _ _ _ ⟨w, hnew, hr, _⟩ => ⟨w, hnew, hr⟩

namespace Follows

variable {σ : Type} {v : Told} {plan plan' : List (Call × Args)}

theorem nothing : Follows (σ := σ) v [] (pure ()) (pure ()) := .pure fun _ => .done

/-- A call whose answer is of no interest. -/
theorem ask (sys : Syscalls (StateM σ)) (c : Call) (args : Args) :
    Follows v [(c, args)] (do let _ ← sys.watched.perform c args)
      (do let _ ← sys.perform c args) := by
  refine (watches_perform sys c args).bindE (Q := fun _ new' r => new' = [] ∧ r = .ok ())
    (fun _ => .pure ⟨rfl, rfl⟩) ?_ ?_
  · rintro _ a _ _ ⟨w, rfl, hw⟩ ⟨rfl, rfl⟩ _
    exact .granted hw.symm .done
  · rintro _ e ⟨w, rfl, hw⟩ _
    exact .refused hw.symm

/-- **One plan after the other.** -/
theorem andThen {y y' : ExceptT CallError (Watched σ) Unit}
    {z z' : ExceptT CallError (StateM σ) Unit}
    (h : Follows v plan y z) (h' : Follows v plan' y' z') :
    Follows v (plan ++ plan') (do y; y') (do z; z') := by
  refine h.bindE (fun _ => h') (fun new _ new' r hP hQ hshows => ?_) fun new e hP hshows => ?_
  · rw [calls_append]
    have hboth := List.forall_mem_append.1 hshows
    exact (hP hboth.1).append (hQ hboth.2)
  · exact (hP hshows).stop plan'

/-- **A look at the page tables**, where what comes next depends on what it shows. -/
theorem table (space : AddressSpace (StateM σ)) (va : Nat) (plan : Bool → List (Call × Args))
    {f : Bool → ExceptT CallError (Watched σ) Unit} {g : Bool → ExceptT CallError (StateM σ) Unit}
    (h : ∀ b, Follows v (plan b) (f b) (g b)) :
    Follows v (plan (v.table va)) (liftM (space.watched.tablePresent va) >>= f)
      (liftM (space.tablePresent va) >>= g) := by
  have hlook : Watches (space.watched.tablePresent va) (space.tablePresent va) fun new b =>
      new = [.table va b] := .note (space.tablePresent va) fun b => [.table va b]
  refine hlook.lift.bindE h ?_ ?_
  · rintro _ b new r ⟨_, ⟨rfl⟩, rfl⟩ hfollows hshows
    obtain ⟨hshown, hrest⟩ := List.forall_mem_cons.1 hshows
    obtain rfl : b = v.table va := hshown
    exact hfollows hrest
  · rintro _ _ ⟨_, ⟨⟩, -⟩

/-- A look at one page. -/
theorem page (space : AddressSpace (StateM σ)) (va : Nat) (plan : Option Perm → List (Call × Args))
    {f : Option Perm → ExceptT CallError (Watched σ) Unit}
    {g : Option Perm → ExceptT CallError (StateM σ) Unit} (h : ∀ m, Follows v (plan m) (f m) (g m)) :
    Follows v (plan (v.page va)) (liftM (space.watched.pagePerm va) >>= f)
      (liftM (space.pagePerm va) >>= g) := by
  have hlook : Watches (space.watched.pagePerm va) (space.pagePerm va) fun new m =>
      new = [.page va m] := .note (space.pagePerm va) fun m => [.page va m]
  refine hlook.lift.bindE h ?_ ?_
  · rintro _ m new r ⟨_, ⟨rfl⟩, rfl⟩ hfollows hshows
    obtain ⟨hshown, hrest⟩ := List.forall_mem_cons.1 hshows
    obtain rfl : m = v.page va := hshown
    exact hfollows hrest
  · rintro _ _ ⟨_, ⟨⟩, -⟩

end Follows

end Exokernel
