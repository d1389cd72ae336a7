import Exokernel.Proofs.Exchanges
import Exokernel.Proofs.Outcome
/-!
# The calls of a fork

`User.fork` makes the calls of two plans. The first prepares the parent and makes the child
(`Told.opening`). The second maps every page the parent is told of in the child, one after the
other, gives the child an exception stack and the fault handler and lets it run, which is the last
call of all (`Told.furnishing`, `starting`). A refusal ends a plan; where it ends the second one the child is
destroyed again. All this holds before any kernel and any address space, whatever they answer
(`fork_keeps_to_plan`).
-/

namespace Exokernel

open User

/-! ## The plans -/

namespace Told

variable {v : Told} {n n' va : Nat}

/-- The page of a number with its permission, where a page table is present and the page is mapped. -/
def pageAt (v : Told) (n : Nat) : Option (Nat × Perm) :=
  if v.table (n * Layout.pageSize) then
    (v.page (n * Layout.pageSize)).map fun perm => (n * Layout.pageSize, perm)
  else
    none

/-- The number of pages below the end of the ordinary stack. -/
def pageCount : Nat := Layout.stackTop / Layout.pageSize

theorem mul_pageSize_lt : n * Layout.pageSize < Layout.stackTop ↔ n < pageCount := by
  unfold pageCount Layout.stackTop Layout.userTop Layout.pageSize
  omega

/-- The pages from a number on, up to the end of the ordinary stack, in ascending order. -/
def pagesFrom (v : Told) (n : Nat) : List (Nat × Perm) :=
  (List.range' n (pageCount - n)).filterMap v.pageAt

/-- **The pages a program is told of** below the end of the ordinary stack, in ascending order. -/
def pages (v : Told) : List (Nat × Perm) := (List.range pageCount).filterMap v.pageAt

/-- All addresses that one page table covers are told the same about it. -/
def Regional (v : Told) : Prop :=
  ∀ va va', va / Layout.tableSpan = va' / Layout.tableSpan → v.table va = v.table va'

theorem pages_eq (v : Told) : v.pages = v.pagesFrom 0 := by
  rw [pages, pagesFrom, List.range_eq_range', Nat.sub_zero]

theorem pagesFrom_of_lt (h : n < pageCount) :
    v.pagesFrom n = (v.pageAt n).toList ++ v.pagesFrom (n + 1) := by
  have hcount : pageCount - n = pageCount - (n + 1) + 1 := by omega
  rw [pagesFrom, hcount, List.range'_succ, List.filterMap_cons]
  cases v.pageAt n <;> rfl

theorem pagesFrom_of_ge (h : pageCount ≤ n) : v.pagesFrom n = [] := by
  rw [pagesFrom, Nat.sub_eq_zero_of_le h]
  rfl

/-- Where no page is mapped for a while, the walk may go on behind. -/
theorem pagesFrom_skip (k : Nat) :
    ∀ n, (∀ i, n ≤ i → i < n + k → v.pageAt i = none) → v.pagesFrom n = v.pagesFrom (n + k) := by
  induction k with
  | zero => exact fun _ _ => rfl
  | succ k ih =>
    intro n h
    have hrest : v.pagesFrom (n + 1) = v.pagesFrom (n + 1 + k) :=
      ih (n + 1) fun i hi hlt => h i (by omega) (by omega)
    rw [Nat.add_right_comm] at hrest
    rcases Nat.lt_or_ge n pageCount with hn | hn
    · rw [pagesFrom_of_lt hn, h n (Nat.le_refl n) (by omega), hrest]
      rfl
    · rw [pagesFrom_of_ge hn, pagesFrom_of_ge (by omega)]

/-- The number of the first page that the next page table covers. -/
def tableEnd (n : Nat) : Nat := n + (1024 - n % 1024)

theorem nextTable_mul (n : Nat) :
    nextTable (n * Layout.pageSize) = tableEnd n * Layout.pageSize := by
  unfold nextTable tableEnd Layout.tableSpan Layout.pageSize
  omega

/-- **A region without a page table has no pages**, so the walk may go on with the next table. -/
theorem pagesFrom_tableEnd (hv : v.Regional) (h : v.table (n * Layout.pageSize) = false) :
    v.pagesFrom n = v.pagesFrom (tableEnd n) := by
  refine pagesFrom_skip _ n fun i hi hlt => ?_
  have hregion : v.table (i * Layout.pageSize) = v.table (n * Layout.pageSize) := by
    refine hv _ _ ?_
    unfold Layout.tableSpan Layout.pageSize
    omega
  rw [pageAt, hregion, h]
  rfl

end Told

/-- **A page is shared** by mapping it in the child at the same address. A page that is copied when
it is written is mapped again in the parent too. -/
def lending (child : EnvId) (page : Nat × Perm) : List (Call × Args) :=
  let perm := sharedPerm page.2
  let va := Syscalls.addressWord page.1
  (.pageMap, { second := va, third := child.raw, fourth := va, fifth := perm.bits }) ::
    if perm.contains Perm.copyOnWrite then
      [(.pageMap, { second := va, fourth := va, fifth := perm.bits })]
    else
      []

/-- The call that gives an environment an exception stack. -/
def stacking (env : Option EnvId) : Call × Args :=
  (.pageAlloc,
    { first := EnvId.rawOrZero env, second := Syscalls.addressWord Layout.exceptionStack,
      third := Perm.userWrite.bits })

/-- The call that gives an environment a fault handler. -/
def catching (env : Option EnvId) (entry : Nat) : Call × Args :=
  (.envSetUpcall, { first := EnvId.rawOrZero env, second := Syscalls.addressWord entry })

/-- The call that lets a child run. -/
def starting (child : EnvId) : Call × Args :=
  (.envSetStatus, { first := child.raw, second := Status.runnable.number })

/-- **What a fork does before there is a child**: the parent gets an exception stack, unless it has
one, and the fault handler. -/
def Told.opening (v : Told) (entry : Nat) : List (Call × Args) :=
  (if (v.page Layout.exceptionStack).isNone then [stacking none] else []) ++ [catching none entry]

/-- **What a fork does for a child before it runs**: every page is shared, and the child gets an
exception stack and the fault handler. -/
def Told.furnishing (v : Told) (child : EnvId) (entry : Nat) : List (Call × Args) :=
  v.pages.flatMap (lending child) ++ [stacking (some child), catching (some child) entry]

/-! ## The parts of a fork -/

section Walk

variable {m : Type → Type} [Monad m] (sys : Syscalls m) (space : AddressSpace m) (child : EnvId)
  {va : Nat}

/-- One round of the walk, with what comes after it if a page table covers the address and if none
does. -/
def walkRound (va : Nat) (onward beyond : ExceptT CallError m Unit) : ExceptT CallError m Unit := do
  if ← space.tablePresent va then
    match ← space.pagePerm va with
    | some mapped => sharePage sys child va mapped
    | none => pure ()
    onward
  else
    beyond

theorem shareFrom_of_lt (hva : va < Layout.stackTop) :
    shareFrom sys space child va = walkRound sys space child va
      (shareFrom sys space child (va + Layout.pageSize))
      (shareFrom sys space child (nextTable va)) := by
  rw [shareFrom, dif_pos hva]
  rfl

theorem shareFrom_of_ge (hva : ¬ va < Layout.stackTop) : shareFrom sys space child va = pure () := by
  rw [shareFrom, dif_neg hva]

end Walk

section Parts

variable {σ : Type} (sys : Syscalls (StateM σ)) (space : AddressSpace (StateM σ)) (v : Told)
  (child : EnvId) (entry : Nat)

theorem follows_prepare :
    Follows v (v.opening entry) (prepare sys.watched space.watched entry)
      (prepare sys space entry) := by
  refine Follows.page space Layout.exceptionStack
    (fun m => (if m.isNone then [stacking none] else []) ++ [catching none entry]) fun m => ?_
  cases m with
  | none => exact (Follows.ask sys _ _).andThen (Follows.ask sys _ _)
  | some m => exact Follows.ask sys _ _

theorem follows_sharePage (page : Nat × Perm) :
    Follows v (lending child page) (sharePage sys.watched child page.1 page.2)
      (sharePage sys child page.1 page.2) := by
  have hmap := Follows.ask (v := v) sys .pageMap
    { second := Syscalls.addressWord page.1, third := child.raw,
      fourth := Syscalls.addressWord page.1, fifth := (sharedPerm page.2).bits }
  unfold lending sharePage
  dsimp only
  split
  · exact hmap.andThen (Follows.ask sys _ _)
  · exact hmap.andThen .nothing

/-- What one round of the walk does, and what is planned for what comes after it. -/
theorem follows_walkRound (va : Nat) {plan plan' : List (Call × Args)}
    {onward beyond : ExceptT CallError (Watched σ) Unit}
    {onward' beyond' : ExceptT CallError (StateM σ) Unit} (h : Follows v plan onward onward')
    (h' : Follows v plan' beyond beyond') :
    Follows v (if v.table va then
        ((v.page va).elim [] fun perm => lending child (va, perm)) ++ plan else plan')
      (walkRound sys.watched space.watched child va onward beyond)
      (walkRound sys space child va onward' beyond') := by
  refine Follows.table space va (fun b => if b then
    ((v.page va).elim [] fun perm => lending child (va, perm)) ++ plan else plan') fun b => ?_
  cases b with
  | false => exact h'
  | true =>
    refine Follows.page space va (fun m =>
      (m.elim [] fun perm => lending child (va, perm)) ++ plan) fun m => ?_
    cases m with
    | none => exact h
    | some perm => exact (follows_sharePage sys v child (va, perm)).andThen h

/-- The pages from one on: what is told of it first. -/
theorem lending_pagesFrom (hv : v.Regional) {n : Nat} (hn : n < Told.pageCount) :
    (v.pagesFrom n).flatMap (lending child) = if v.table (n * Layout.pageSize) then
      ((v.page (n * Layout.pageSize)).elim [] fun perm => lending child (n * Layout.pageSize, perm)) ++
        (v.pagesFrom (n + 1)).flatMap (lending child)
      else (v.pagesFrom (Told.tableEnd n)).flatMap (lending child) := by
  split
  · next htable =>
    rw [Told.pagesFrom_of_lt hn, Told.pageAt, if_pos htable, List.flatMap_append]
    cases v.page (n * Layout.pageSize) <;> simp
  · next htable => rw [Told.pagesFrom_tableEnd hv (Bool.eq_false_iff.2 htable)]

/-- **The walk shares every page it is told of**, one after the other. -/
theorem follows_shareFrom (hv : v.Regional) (va : Nat) :
    ∀ n, va = n * Layout.pageSize → Follows v ((v.pagesFrom n).flatMap (lending child))
      (shareFrom sys.watched space.watched child va) (shareFrom sys space child va) := by
  induction va using shareFrom.induct with
  | case1 va hva ihpage ihtable =>
    intro n hn
    have hnext := ihpage (n + 1) (by rw [hn, Nat.succ_mul])
    have hskip := ihtable (Told.tableEnd n) (by rw [hn, Told.nextTable_mul])
    rw [shareFrom_of_lt sys.watched space.watched child hva, shareFrom_of_lt sys space child hva,
      lending_pagesFrom v child hv (Told.mul_pageSize_lt.1 (hn ▸ hva)), ← hn]
    exact follows_walkRound sys space v child va hnext hskip
  | case2 va hva =>
    intro n hn
    rw [Told.pagesFrom_of_ge (Nat.not_lt.1 (mt Told.mul_pageSize_lt.2 (hn ▸ hva))),
      shareFrom_of_ge sys.watched space.watched child hva, shareFrom_of_ge sys space child hva]
    exact .nothing

/-- **What is done for a child** with which all goes well. -/
theorem follows_populate (hv : v.Regional) :
    Follows v (v.furnishing child entry ++ [starting child])
      (populate sys.watched space.watched child entry) (populate sys space child entry) := by
  have hplan : v.furnishing child entry ++ [starting child] =
      (v.pagesFrom 0).flatMap (lending child) ++ ([stacking (some child)] ++
        ([catching (some child) entry] ++ [starting child])) := by
    rw [Told.furnishing, Told.pages_eq, List.append_assoc]
    rfl
  rw [hplan]
  exact (follows_shareFrom sys space v child hv 0 0 (Nat.zero_mul _).symm).andThen
    ((Follows.ask sys _ _).andThen ((Follows.ask sys _ _).andThen (Follows.ask sys _ _)))

/-- The child a parent is told of is the word it was answered, and the child itself is told 0. -/
theorem decodeResult_exofork {w : UInt32} {c : Option EnvId}
    (h : (decodeResult w).map EnvId.ofRaw? = .ok c) : decodeResult w = .ok (EnvId.rawOrZero c) := by
  cases hraw : decodeResult w with
  | error e =>
    rw [hraw] at h
    cases h
  | ok raw =>
    rw [hraw] at h
    obtain rfl : EnvId.ofRaw? raw = c := Except.ok.inj h
    unfold EnvId.ofRaw?
    split
    · rfl
    · next hzero => rw [Decidable.not_not.1 hzero]; rfl

/-- The answer to the call that makes a child. -/
theorem watches_exofork :
    Watches sys.watched.exofork.run sys.exofork.run fun new r =>
      ∃ w, new = [.asked ⟨.exofork, {}, w⟩] ∧ r = (decodeResult w).map EnvId.ofRaw? := by
  refine (watches_perform sys .exofork {}).bindE
    (Q := fun raw new' r => new' = [] ∧ r = .ok (EnvId.ofRaw? raw)) (fun _ => .pure ⟨rfl, rfl⟩) ?_ ?_
  · rintro _ raw _ _ ⟨w, rfl, hw⟩ ⟨rfl, rfl⟩
    exact ⟨w, rfl, by rw [← hw]; rfl⟩
  · rintro _ e ⟨w, rfl, hw⟩
    exact ⟨w, rfl, by rw [← hw]; rfl⟩

/-- **Destroying a child is one call**, whatever is answered. -/
theorem watches_discard [MonadLog (StateM σ)] (e : CallError) :
    Watches (discard sys.watched child e) (discard sys child e) fun new _ =>
      ∃ w, calls new = [⟨.envDestroy, { first := child.raw }, w⟩] := by
  have hcall : Watches (sys.watched.envDestroy (some child)).run (sys.envDestroy (some child)).run
      fun new _ => ∃ w, new = [.asked ⟨.envDestroy, { first := child.raw }, w⟩] := by
    refine (watches_perform sys .envDestroy { first := child.raw }).bindE
      (Q := fun _ new' _ => new' = []) (fun _ => .pure rfl) ?_ ?_
    · rintro _ _ _ _ ⟨w, rfl, -⟩ rfl
      exact ⟨w, rfl⟩
    · rintro _ _ ⟨w, rfl, -⟩
      exact ⟨w, rfl⟩
  refine hcall.bind (Q := fun _ new' _ => new' = []) (fun r => ?_) ?_
  · cases r with
    | ok => exact .pure rfl
    | error => exact .say _
  · rintro _ _ _ _ ⟨w, rfl⟩ rfl
    exact ⟨w, rfl⟩

end Parts

/-! ## The whole of it -/

/-- **How a fork goes**, by the calls that are made and what comes of it. -/
inductive Forks (v : Told) (entry : Nat) : List Asked → Except CallError (Option EnvId) → Prop
  /-- A call before there is a child is refused. -/
  | unprepared {l : List Asked} {e : CallError} : Attempt (v.opening entry) l (.error e) →
      Forks v entry l (.error e)
  | childless {l : List Asked} {w : UInt32} {e : CallError} : Attempt (v.opening entry) l (.ok ()) →
      decodeResult w = .error e → Forks v entry (l ++ [⟨.exofork, {}, w⟩]) (.error e)
  /-- The child finds that it is the child. -/
  | born {l : List Asked} {w : UInt32} : Attempt (v.opening entry) l (.ok ()) →
      decodeResult w = .ok 0 → Forks v entry (l ++ [⟨.exofork, {}, w⟩]) (.ok none)
  | completed {l l' : List Asked} {w : UInt32} {child : EnvId} :
      Attempt (v.opening entry) l (.ok ()) →
      decodeResult w = .ok child.raw →
      Attempt (v.furnishing child entry ++ [starting child]) l' (.ok ()) →
      Forks v entry (l ++ ⟨.exofork, {}, w⟩ :: l') (.ok (some child))
  /-- A call for the child is refused, and the child is destroyed, whether that succeeds or not. -/
  | discarded {l l' : List Asked} {w w' : UInt32} {child : EnvId} {e : CallError} :
      Attempt (v.opening entry) l (.ok ()) → decodeResult w = .ok child.raw →
      Attempt (v.furnishing child entry ++ [starting child]) l' (.error e) →
      Forks v entry (l ++ ⟨.exofork, {}, w⟩ :: l' ++ [⟨.envDestroy, { first := child.raw }, w'⟩])
        (.error e)

section Whole

variable {m : Type → Type} [Monad m] [MonadLog m]

/-- What is done with a child that was made. -/
def bringUp (sys : Syscalls m) (space : AddressSpace m) (child : EnvId) (entry : Nat) :
    ExceptT CallError m (Option EnvId) := do
  match ← ExceptT.lift (populate sys space child entry).run with
  | .ok () => pure (some child)
  | .error e =>
    ExceptT.lift (discard sys child e)
    throw e

theorem fork_eq (sys : Syscalls m) (space : AddressSpace m) (entry : Nat) :
    fork sys space entry = (do
      prepare sys space entry
      match ← sys.exofork with
      | none => pure none
      | some child => bringUp sys space child entry) := rfl

end Whole

section Forks

variable {σ : Type} [MonadLog (StateM σ)] (sys : Syscalls (StateM σ))
  (space : AddressSpace (StateM σ))
  {v : Told} (entry : Nat) {l : List Asked}

/-- **A child is completed or destroyed.** -/
theorem watches_bringUp (hv : v.Regional) (child : EnvId) :
    Watches (bringUp sys.watched space.watched child entry).run (bringUp sys space child entry).run
      fun new r => (∀ e ∈ new, e.Shows v) → ∀ l w, Attempt (v.opening entry) l (.ok ()) →
        decodeResult w = .ok child.raw → Forks v entry (l ++ ⟨.exofork, {}, w⟩ :: calls new) r := by
  have hpopulate := follows_populate sys space v child entry hv
  refine hpopulate.lift.bindE (Q := fun r' new' r => match r' with
    | .ok () => new' = [] ∧ r = .ok (some child)
    | .error e => (∃ w, calls new' = [⟨.envDestroy, { first := child.raw }, w⟩]) ∧ r = .error e)
    (fun r' => ?_) ?_ nofun
  · cases r' with
    | ok => exact .pure ⟨rfl, rfl⟩
    | error e =>
      refine (watches_discard sys child e).lift.bindE (Q := fun _ new' r => new' = [] ∧ r = .error e)
        (fun _ => .pure ⟨rfl, rfl⟩) ?_ nofun
      rintro new _ _ _ ⟨_, _, hdestroy⟩ ⟨rfl, rfl⟩
      rw [List.append_nil]
      exact ⟨hdestroy, rfl⟩
  · rintro new r' new' r ⟨_, ⟨rfl⟩, hfollows⟩ hrest hshows l w hopening hw
    have hattempt := hfollows (List.forall_mem_append.1 hshows).1
    rw [calls_append]
    cases r' with
    | ok =>
      obtain ⟨rfl, rfl⟩ := hrest
      rw [calls, List.append_nil]
      exact .completed hopening hw hattempt
    | error e =>
      obtain ⟨⟨w', hdestroy⟩, rfl⟩ := hrest
      rw [hdestroy, ← List.cons_append, ← List.append_assoc]
      exact .discarded hopening hw hattempt

/-- **A fork goes as it is planned.** -/
theorem watches_fork (hv : v.Regional) :
    Watches (fork sys.watched space.watched entry).run (fork sys space entry).run
      fun new r => (∀ e ∈ new, e.Shows v) → Forks v entry (calls new) r := by
  rw [fork_eq, fork_eq]
  refine Watches.bindE (follows_prepare sys space v entry) (Q := fun _ new' r =>
    (∀ e ∈ new', e.Shows v) → ∀ l, Attempt (v.opening entry) l (.ok ()) →
      Forks v entry (l ++ calls new') r) (fun _ => ?_) ?_ ?_
  · refine (watches_exofork sys).bindE (Q := fun c new' r => match c with
      | none => new' = [] ∧ r = .ok none
      | some child => (∀ e ∈ new', e.Shows v) → ∀ l w, Attempt (v.opening entry) l (.ok ()) →
          decodeResult w = .ok child.raw → Forks v entry (l ++ ⟨.exofork, {}, w⟩ :: calls new') r)
      (fun c => ?_) ?_ ?_
    · cases c with
      | none => exact .pure ⟨rfl, rfl⟩
      | some child => exact watches_bringUp sys space entry hv child
    · rintro _ c new' r ⟨w, rfl, hw⟩ hrest hshows l hopening
      have hraw := decodeResult_exofork hw.symm
      cases c with
      | none =>
        obtain ⟨rfl, rfl⟩ := hrest
        exact .born hopening hraw
      | some child => exact hrest (List.forall_mem_cons.1 hshows).2 l w hopening hraw
    · rintro _ e ⟨w, rfl, hw⟩ _ l hopening
      refine .childless hopening ?_
      cases hraw : decodeResult w with
      | ok => cases hraw ▸ hw
      | error => cases hraw ▸ hw; rfl
  · rintro new _ new' r hfollows hrest hshows
    obtain ⟨hbefore, hafter⟩ := List.forall_mem_append.1 hshows
    rw [calls_append]
    exact hrest hafter _ (hfollows hbefore)
  · rintro new e hfollows hshows
    exact .unprepared (hfollows hshows)

end Forks

/-! ## What is asked for -/

section Plans

variable {v : Told} {entry : Nat} {child : EnvId} {l : List Asked} {r : Call × Args}

theorem call_of_mem_lending {page : Nat × Perm} (hr : r ∈ lending child page) : r.1 = .pageMap := by
  unfold lending at hr
  rcases List.mem_cons.1 hr with rfl | hr
  · rfl
  · split at hr
    · rw [List.mem_singleton.1 hr]
    · cases hr

theorem call_of_mem_opening (hr : r ∈ v.opening entry) : r.1 = .pageAlloc ∨ r.1 = .envSetUpcall := by
  rcases List.mem_append.1 hr with hr | hr
  · split at hr
    · rw [List.mem_singleton.1 hr]
      exact .inl rfl
    · cases hr
  · rw [List.mem_singleton.1 hr]
    exact .inr rfl

/-- Nothing that is done before a child runs lets it run. -/
theorem call_of_mem_furnishing (hr : r ∈ v.furnishing child entry) : r.1 ≠ .envSetStatus := by
  rcases List.mem_append.1 hr with hr | hr
  · obtain ⟨page, -, hr⟩ := List.mem_flatMap.1 hr
    rw [call_of_mem_lending hr]
    exact nofun
  · simp only [List.mem_cons, List.not_mem_nil, or_false] at hr
    rcases hr with rfl | rfl <;> exact nofun

/-- **The pages that are mapped** for a child are those the parent is told of. -/
theorem filter_pageMap :
    (v.opening entry ++ (.exofork, {}) :: (v.furnishing child entry ++ [starting child])).filter
      (·.1 = .pageMap) = v.pages.flatMap (lending child) := by
  have hopening : (v.opening entry).filter (·.1 = .pageMap) = [] := by
    refine List.filter_eq_nil_iff.2 fun r hr => ?_
    rcases call_of_mem_opening hr with h | h <;> simp [h]
  have hlending : (v.pages.flatMap (lending child)).filter (·.1 = .pageMap) =
      v.pages.flatMap (lending child) := by
    refine List.filter_eq_self.2 fun r hr => ?_
    obtain ⟨page, -, hr⟩ := List.mem_flatMap.1 hr
    exact decide_eq_true (call_of_mem_lending hr)
  rw [List.filter_append, hopening, List.nil_append, Told.furnishing, List.append_assoc,
    List.filter_cons_of_neg (by simp), List.filter_append, hlending]
  exact List.append_nil _

namespace Forks

/-- **A child that is completed** has had every call of the plan made for it, and none refused. -/
theorem of_completed (h : Forks v entry l (.ok (some child))) :
    l.map Asked.request =
      v.opening entry ++ (.exofork, {}) :: (v.furnishing child entry ++ [starting child]) ∧
      ∀ a ∈ l, a.refused = false := by
  cases h with
  | completed hopening hw hplan =>
    obtain ⟨hfirst, hgranted⟩ := hopening.of_ok
    obtain ⟨hsecond, hgranted'⟩ := hplan.of_ok
    refine ⟨by rw [List.map_append, List.map_cons, hfirst, hsecond]; rfl, fun a ha => ?_⟩
    rcases List.mem_append.1 ha with ha | ha
    · exact hgranted a ha
    · rcases List.mem_cons.1 ha with rfl | ha
      · rw [Asked.refused, hw]
      · exact hgranted' a ha

/-- **A child that is not completed never runs**: a call that would let it is refused, if it is
made. -/
theorem refused_of_error {e : CallError} (h : Forks v entry l (.error e)) :
    ∀ a ∈ l, a.call = .envSetStatus → a.refused = true := by
  have hopening : ∀ {l r}, Attempt (v.opening entry) l r → ∀ a ∈ l, a.call ≠ .envSetStatus := by
    intro l r hl a ha hc
    rcases call_of_mem_opening (hl.mem_plan ha) with h | h <;> cases hc.symm.trans h
  intro a ha hc
  cases h with
  | unprepared hl => exact absurd hc (hopening hl a ha)
  | childless hl =>
    rcases List.mem_append.1 ha with ha | ha
    · exact absurd hc (hopening hl a ha)
    · rw [List.mem_singleton.1 ha] at hc
      cases hc
  | discarded hl _ hplan =>
    rcases List.mem_append.1 ha with ha | ha
    · rcases List.mem_append.1 ha with ha | ha
      · exact absurd hc (hopening hl a ha)
      · rcases List.mem_cons.1 ha with rfl | ha
        · cases hc
        · exact hplan.refused_last (fun _ => call_of_mem_furnishing) a ha hc
    · rw [List.mem_singleton.1 ha] at hc
      cases hc

end Forks

end Plans

/-! ## Any kernel, any address space -/

section Whole

variable {σ : Type} [MonadLog (StateM σ)] (sys : Syscalls (StateM σ))
  (space : AddressSpace (StateM σ))
  (entry : Nat) (x : σ)

/-- What comes of a fork, and the state it leaves. -/
def forkEnd : Except CallError (Option EnvId) × σ := StateT.run (fork sys space entry).run x

/-- What is exchanged during a fork. -/
def forkExchanges : List Exchange := ((fork sys.watched space.watched entry).run.run x).1.2

/-- **A fork keeps to its plan.** Let a program stand before any way into the kernel, whatever it
answers, and before any address space where all addresses that one page table covers are told the
same about it and each look shows what it would have shown at the start. Then the calls of a fork
are those of `Forks`: if one up to the making of the child is refused there is no further one, and
its error is the result; a child finds that it is one, with no further call; and if a call for the
child is refused, one further call destroys the child, and the first error is the result. A fork
that returns a child has made all calls of the plan, the last of which lets the child run and is the
only one that does; the pages that were mapped are those told of below the end of the ordinary stack
where a page table is present, in ascending order, each in the child first and then, if it is copied
when written, in the parent. A fork that fails has let no child run. -/
theorem fork_keeps_to_plan (hregion : (space.told x).Regional)
    (hlooks : ∀ e ∈ forkExchanges sys space entry x, e.Shows (space.told x)) :
    let v := space.told x
    let made := calls (forkExchanges sys space entry x)
    let result := (forkEnd sys space entry x).1
    (fork sys.watched space.watched entry).run.run x =
        ((result, forkExchanges sys space entry x), (forkEnd sys space entry x).2) ∧
      Forks v entry made result ∧
      (∀ child, result = .ok (some child) →
        made.map Asked.request =
            v.opening entry ++ (.exofork, {}) :: (v.furnishing child entry ++ [starting child]) ∧
          (∀ a ∈ made, a.refused = false) ∧
          (∀ r ∈ v.opening entry ++ (.exofork, {}) :: v.furnishing child entry, r.1 ≠ .envSetStatus) ∧
          (made.map Asked.request).filter (·.1 = .pageMap) = v.pages.flatMap (lending child)) ∧
      ∀ e, result = .error e → ∀ a ∈ made, a.call = .envSetStatus → a.refused = true := by
  intro v made result
  obtain ⟨new, hrun, hforks⟩ := watches_fork sys space entry hregion x
  have hnew : forkExchanges sys space entry x = new := by rw [forkExchanges, hrun]
  have hmade : Forks v entry made result := by
    have hfollows := hforks fun e he => hlooks e (hnew ▸ he)
    rw [← hnew] at hfollows
    exact hfollows
  refine ⟨by rw [hrun, hnew]; rfl, hmade, fun child hchild => ?_, fun e he => ?_⟩
  · rw [hchild] at hmade
    obtain ⟨hall, hgranted⟩ := hmade.of_completed
    refine ⟨hall, hgranted, fun r hr => ?_, by rw [hall, filter_pageMap]⟩
    rcases List.mem_append.1 hr with hr | hr
    · rcases call_of_mem_opening hr with h | h <;> rw [h] <;> exact nofun
    · rcases List.mem_cons.1 hr with rfl | hr
      · exact nofun
      · exact call_of_mem_furnishing hr
  · rw [he] at hmade
    exact hmade.refused_of_error

end Whole

/-! ### Two pages -/

/-- Nothing a program could change. -/
inductive Still where
  | still
deriving DecidableEq

instance : MonadLog (StateM Still) where
  say _ := pure ⟨⟩

/-- A kernel that answers one call with a word, and grants all others. -/
def Syscalls.granting (c : Call) (w : UInt32) : Syscalls (StateM Still) where
  call c' _ := pure (if c' = c then w else 0)
  inbox := pure {}

/-- An address space with one page table, for the third region, and two pages in it, of which the
second may not be written. -/
def AddressSpace.twoPages : AddressSpace (StateM Still) where
  tablePresent va := pure (va / Layout.tableSpan == 2)
  pagePerm va := pure (if va = 0x800000 then some Perm.userWrite
    else if va = 0x801000 then some Perm.userRead else none)
  copyPage _ _ := pure ⟨⟩

/-- These two are the pages that are told of. -/
theorem pages_twoPages : (AddressSpace.twoPages.told .still).pages =
    [(0x800000, Perm.userWrite), (0x801000, Perm.userRead)] := by
  have hnone : ∀ i, i ≠ 2048 → i ≠ 2049 → (AddressSpace.twoPages.told .still).pageAt i = none := by
    intro i h h'
    have hpage : (AddressSpace.twoPages.told .still).page (i * Layout.pageSize) = none := by
      change (if i * 4096 = 0x800000 then some Perm.userWrite
        else if i * 4096 = 0x801000 then some Perm.userRead else none) = none
      rw [if_neg (by omega), if_neg (by omega)]
    rw [Told.pageAt, hpage, Option.map_none, ite_self]
  have hbefore := Told.pagesFrom_skip 2048 0 fun i _ hi => hnone i (by omega) (by omega)
  have hafter := Told.pagesFrom_skip Told.pageCount 2050 fun i hi _ => hnone i (by omega) (by omega)
  have hend : Told.pageCount ≤ 2050 + Told.pageCount := Nat.le_add_left _ _
  have hcount : 2049 < Told.pageCount := by decide
  rw [Told.pages_eq, hbefore, Nat.zero_add, Told.pagesFrom_of_lt (by omega),
    Told.pagesFrom_of_lt hcount, hafter, Told.pagesFrom_of_ge hend]
  rfl

/-- Of two pages the one that may be written is mapped again in the child and in the parent, and the
other one in the child only. -/
theorem fork_keeps_to_plan_two_pages :
    (AddressSpace.twoPages.told .still).Regional ∧
      (∀ e ∈ forkExchanges (Syscalls.granting .exofork 0x1001) AddressSpace.twoPages 0x800020 .still,
        e.Shows (AddressSpace.twoPages.told .still)) ∧
      (AddressSpace.twoPages.told .still).pages =
        [(0x800000, Perm.userWrite), (0x801000, Perm.userRead)] ∧
      (forkEnd (Syscalls.granting .exofork 0x1001) AddressSpace.twoPages 0x800020 .still).1 =
        .ok (some ⟨0x1001, by decide⟩) ∧
      ((calls (forkExchanges (Syscalls.granting .exofork 0x1001) AddressSpace.twoPages 0x800020
        .still)).map Asked.request).filter (·.1 = .pageMap) =
          lending ⟨0x1001, by decide⟩ (0x800000, Perm.userWrite) ++
            lending ⟨0x1001, by decide⟩ (0x801000, Perm.userRead) := by
  have hregion : (AddressSpace.twoPages.told .still).Regional := by
    intro va va' heq
    change (va / Layout.tableSpan == 2) = (va' / Layout.tableSpan == 2)
    rw [heq]
  have hlooks : ∀ e ∈ forkExchanges (Syscalls.granting .exofork 0x1001) AddressSpace.twoPages
      0x800020 .still, e.Shows (AddressSpace.twoPages.told .still) := by decide +kernel
  obtain ⟨c, hend, rfl⟩ := exists_of_map_toOption (f := id) (b := some ⟨0x1001, by decide⟩)
    (x := (forkEnd (Syscalls.granting .exofork 0x1001) AddressSpace.twoPages 0x800020 .still).1)
    (by decide +kernel)
  obtain ⟨-, -, hcompleted, -⟩ := fork_keeps_to_plan (Syscalls.granting .exofork 0x1001)
    AddressSpace.twoPages 0x800020 .still hregion hlooks
  obtain ⟨-, -, -, hshared⟩ := hcompleted _ hend
  rw [pages_twoPages] at hshared
  exact ⟨hregion, hlooks, pages_twoPages, hend, hshared⟩

end Exokernel
