import Exokernel.Proofs.Sharing
/-!
# The user library, phase by phase

Making a child and handling a fault are programs, and where such a program stands is a `Phase`.
`Asks` lists what is asked of the kernel in each phase, and `Obeys` says of a program that it asks
nothing else and goes on to the phases it should, whatever it is answered. `User.fork` and
`User.handleCowFault` obey (`obeys_fork`, `obeys_handleCowFault`); each of their parts is told of
on its own, by the phases it begins and ends with.
-/

namespace Exokernel

/-- **The calls of each phase**, with the phase after a call that was performed and the one after a
call that was refused. -/
inductive Asks : Phase → Call → Args → Phase → Phase → Prop
  | ownStack : Asks .alone .pageAlloc
      { second := Syscalls.addressWord Layout.exceptionStack, third := Perm.userWrite.bits }
      .alone .alone
  | ownUpcall (entry : Nat) : Asks .alone .envSetUpcall { second := Syscalls.addressWord entry }
      .alone .alone
  | share (id : EnvId) (va : Nat) (mapped : Perm) : Asks (.sees id va mapped) .pageMap
      { second := Syscalls.addressWord va, third := id.raw, fourth := Syscalls.addressWord va,
        fifth := (User.sharedPerm mapped).bits }
      (Phase.afterShare id va mapped) (.discards id)
  | reshare (id : EnvId) (va : Nat) (mapped : Perm) : Asks (.reshares id va mapped) .pageMap
      { second := Syscalls.addressWord va, fourth := Syscalls.addressWord va,
        fifth := (User.sharedPerm mapped).bits }
      (.walks id (va + Layout.pageSize)) (.discards id)
  | childStack {id : EnvId} {va : Nat} : Layout.stackTop ≤ va → Asks (.walks id va) .pageAlloc
      { first := id.raw, second := Syscalls.addressWord Layout.exceptionStack,
        third := Perm.userWrite.bits }
      (.completes id) (.discards id)
  | childUpcall (id : EnvId) (entry : Nat) : Asks (.completes id) .envSetUpcall
      { first := id.raw, second := Syscalls.addressWord entry } (.completes id) (.discards id)
  | start (id : EnvId) : Asks (.completes id) .envSetStatus
      { first := id.raw, second := Status.runnable.number } (.started id) (.discards id)
  | discard (id : EnvId) : Asks (.discards id) .envDestroy { first := id.raw } .alone .never
  | supply (va : Nat) : Asks (.supplies va) .pageAlloc
      { second := Syscalls.addressWord Layout.scratchPage, third := Perm.userWrite.bits }
      (.copies va) .never
  | move (va : Nat) : Asks (.moves va) .pageMap
      { second := Syscalls.addressWord Layout.scratchPage, fourth := Syscalls.addressWord va,
        fifth := Perm.userWrite.bits }
      (.clears va) .never
  | clear (va : Nat) : Asks (.clears va) .pageUnmap
      { second := Syscalls.addressWord Layout.scratchPage } (.writes va) .never

/-- **The program goes through the phases**, from the phase `φ` on, and ends in phases and with results
of which `fin` holds. In the phase that is never reached anything may happen. -/
inductive Obeys {α : Type} (fin : Phase → α → Prop) : Phase → Program α → Prop
  | never (p : Program α) : Obeys fin .never p
  | done {φ : Phase} {a : α} : fin φ a → Obeys fin φ (.done a)
  | say {φ : Phase} {r : Log.Record} {p : Program α} : Obeys fin φ p → Obeys fin φ (.say r p)
  /-- The parent looks whether it has an exception stack. -/
  | stack {va : Nat} {f : Option Perm → Program α} : (∀ m, Obeys fin .alone (f m)) →
      Obeys fin .alone (.pagePerm va f)
  | table {id : EnvId} {va : Nat} {f : Bool → Program α} : va < Layout.stackTop →
      Obeys fin (.walks id va) (f true) → Obeys fin (.walks id (User.nextTable va)) (f false) →
      Obeys fin (.walks id va) (.tablePresent va f)
  | look {id : EnvId} {va : Nat} {f : Option Perm → Program α} : va < Layout.stackTop →
      (∀ mapped, Obeys fin (.sees id va mapped) (f (some mapped))) →
      Obeys fin (.walks id (va + Layout.pageSize)) (f none) →
      Obeys fin (.walks id va) (.pagePerm va f)
  | fault {va : Nat} {f : Option Perm → Program α} :
      (∀ m, Obeys fin (if m.any (·.contains Perm.copyOnWrite) then .supplies va else .refuses va)
        (f m)) →
      Obeys fin (.faults va) (.pagePerm va f)
  | copy {va : Nat} {p : Program α} : Obeys fin (.moves va) p →
      Obeys fin (.copies va) (.copyPage va Layout.scratchPage p)
  | call {φ φ₁ φ₂ : Phase} {c : Call} {args : Args} {f : UInt32 → Program α} :
      Asks φ c args φ₁ φ₂ → (∀ w v, decodeResult w = .ok v → Obeys fin φ₁ (f w)) →
      (∀ w e, decodeResult w = .error e → Obeys fin φ₂ (f w)) →
      Obeys fin φ (.enter c args (.result f))
  /-- The parent finds the identifier of its child, and the child finds that it is none. -/
  | exofork {f : UInt32 → Program α} :
      (∀ w e, decodeResult w = .error e → Obeys fin .alone (f w)) →
      (∀ w v, decodeResult w = .ok v → EnvId.ofRaw? v = none → Obeys fin .alone (f w)) →
      (∀ w v id, decodeResult w = .ok v → EnvId.ofRaw? v = some id →
        Obeys fin (.walks id 0) (f w)) →
      Obeys fin .alone (.enter .exofork {} (.result f))

namespace Obeys

variable {α β ε : Type} {fin : Phase → α → Prop} {φ φ₁ φ₂ : Phase}

/-- **One program after the other.** -/
theorem bind {p : Program α} {f : α → Program β} {fin' : Phase → β → Prop} (h : Obeys fin φ p)
    (hf : ∀ φ a, fin φ a → Obeys fin' φ (f a)) : Obeys fin' φ (p.bind f) := by
  induction h with
  | never => exact .never _
  | done ha => exact hf _ _ ha
  | say _ ih => exact .say ih
  | stack _ ih => exact .stack ih
  | table hva _ _ iht ihf => exact .table hva iht ihf
  | look hva _ _ ihs ihn => exact .look hva ihs ihn
  | fault _ ih => exact .fault ih
  | copy _ ih => exact .copy ih
  | call hasks _ _ ihok iherror => exact .call hasks ihok iherror
  | exofork _ _ _ iherror ihnone ihsome => exact .exofork iherror ihnone ihsome

/-- What is known at the end may be weakened. -/
theorem imp {p : Program α} {fin' : Phase → α → Prop} (h : Obeys fin φ p)
    (himp : ∀ φ a, fin φ a → fin' φ a) : Obeys fin' φ p := by
  induction h with
  | never => exact .never _
  | done ha => exact .done (himp _ _ ha)
  | say _ ih => exact .say ih
  | stack _ ih => exact .stack ih
  | table hva _ _ iht ihf => exact .table hva iht ihf
  | look hva _ _ ihs ihn => exact .look hva ihs ihn
  | fault _ ih => exact .fault ih
  | copy _ ih => exact .copy ih
  | call hasks _ _ ihok iherror => exact .call hasks ihok iherror
  | exofork _ _ _ iherror ihnone ihsome => exact .exofork iherror ihnone ihsome

end Obeys

/-- A program ends in the phase `φ₁`, or in `φ₂` with an error. -/
def EndsIn {α ε : Type} (φ₁ φ₂ : Phase) (φ : Phase) : Except ε α → Prop
  | .ok _ => φ = φ₁
  | .error _ => φ = φ₂

namespace Obeys

variable {α β ε : Type} {φ φ₁ φ₂ : Phase}

/-- One after the other, where an error ends it. -/
theorem bindE {fin : Phase → Except ε α → Prop} {fin' : Phase → Except ε β → Prop}
    {x : ExceptT ε Program α} {f : α → ExceptT ε Program β} (hx : Obeys fin φ x.run)
    (hok : ∀ φ a, fin φ (.ok a) → Obeys fin' φ (f a).run)
    (herror : ∀ φ e, fin φ (.error e) → fin' φ (.error e)) : Obeys fin' φ (x >>= f).run := by
  refine hx.bind (f := ExceptT.bindCont f) fun φ r hr => ?_
  cases r with
  | ok a => exact hok φ a hr
  | error e => exact .done (herror φ e hr)

/-- The same, where it is known in which phases the first part ends. -/
theorem andThen {fin' : Phase → Except ε β → Prop} {x : ExceptT ε Program α}
    {f : α → ExceptT ε Program β} (hx : Obeys (EndsIn φ₁ φ₂) φ x.run)
    (hok : ∀ a, Obeys fin' φ₁ (f a).run) (herror : ∀ e, fin' φ₂ (.error e)) :
    Obeys fin' φ (x >>= f).run :=
  hx.bindE (fun _ a hφ => hφ ▸ hok a) fun _ e hφ => hφ ▸ herror e

/-- A program without errors of its own. -/
theorem lift {fin : Phase → α → Prop} {p : Program α} (h : Obeys fin φ p) :
    Obeys (fun φ (r : Except ε α) => r.casesOn (fun _ => False) (fin φ)) φ
      (ExceptT.lift p : ExceptT ε Program α).run :=
  h.bind fun _ _ ha => .done ha

/-- **A call and its answer.** -/
theorem perform {c : Call} {args : Args} (h : Asks φ c args φ₁ φ₂) :
    Obeys (EndsIn φ₁ φ₂) φ (Program.syscalls.perform c args).run := by
  refine .call (f := fun w => .done (decodeResult w)) h (fun w v hw => ?_) fun w e hw => ?_
  · rw [hw]
    exact .done rfl
  · rw [hw]
    exact .done rfl

/-- A call whose answer is of no interest. -/
theorem ask {c : Call} {args : Args} (h : Asks φ c args φ₁ φ₂) :
    Obeys (EndsIn φ₁ φ₂) φ
      (do let _ ← Program.syscalls.perform c args : ExceptT CallError Program Unit).run :=
  (perform h).andThen (fun _ => .done rfl) fun _ => rfl

end Obeys

/-! ## Making a child -/

section Fork

variable {id : EnvId} {va : Nat}

open Program User

theorem obeys_prepare (entry : Nat) :
    Obeys (EndsIn .alone .alone) .alone (prepare syscalls space entry).run := by
  have hupcall : Obeys (EndsIn .alone .alone) .alone (syscalls.envSetUpcall none entry).run :=
    Obeys.ask (.ownUpcall entry)
  refine .stack fun m => ?_
  cases m with
  | none => exact (Obeys.ask .ownStack).andThen (fun _ => hupcall) fun _ => rfl
  | some m => exact hupcall

/-- **A page that was found is shared**, or the child is given up. -/
theorem obeys_sharePage (mapped : Perm) :
    Obeys (EndsIn (.walks id (va + Layout.pageSize)) (.discards id)) (.sees id va mapped)
      (sharePage syscalls id va mapped).run := by
  refine Obeys.andThen (Obeys.ask (.share id va mapped)) (fun _ => ?_) fun _ => rfl
  unfold Phase.afterShare
  rw [contains_copyOnWrite_sharedPerm]
  split
  · exact Obeys.ask (.reshare id va mapped)
  · exact .done rfl

/-- The walk has come to the end of the ordinary stack, or the child is given up. -/
def Walked (id : EnvId) (φ : Phase) : Except CallError Unit → Prop
  | .ok _ => ∃ va, Layout.stackTop ≤ va ∧ φ = .walks id va
  | .error _ => φ = .discards id

/-- One round of a walk, whatever is done with a page and afterwards. -/
theorem run_round (share : Perm → ExceptT CallError Program Unit)
    (onward beyond : ExceptT CallError Program Unit) :
    (do
      if ← liftM (space.tablePresent va) then
        match ← liftM (space.pagePerm va) with
        | some mapped => share mapped
        | none => pure ()
        onward
      else
        beyond : ExceptT CallError Program Unit).run =
    .tablePresent va fun present =>
      if present = true then .pagePerm va fun m =>
        match m with
        | some mapped => (do
            share mapped
            onward : ExceptT CallError Program Unit).run
        | none => onward.run
      else beyond.run := by
  refine congrArg (Program.tablePresent va) (funext fun present => ?_)
  cases present with
  | false => rfl
  | true =>
    refine congrArg (Program.pagePerm va) (funext fun m => ?_)
    cases m <;> rfl

theorem run_shareFrom (hva : va < Layout.stackTop) :
    (shareFrom syscalls space id va).run = .tablePresent va fun present =>
      if present = true then .pagePerm va fun m =>
        match m with
        | some mapped => (do
            sharePage syscalls id va mapped
            shareFrom syscalls space id (va + Layout.pageSize) : ExceptT CallError Program Unit).run
        | none => (shareFrom syscalls space id (va + Layout.pageSize)).run
      else (shareFrom syscalls space id (nextTable va)).run := by
  rw [shareFrom, dif_pos hva]
  exact run_round _ _ _

/-- **The walk through the parent's pages.** -/
theorem obeys_shareFrom (id : EnvId) (va : Nat) :
    Obeys (Walked id) (.walks id va) (shareFrom syscalls space id va).run := by
  induction va using shareFrom.induct with
  | case1 va hva ihpage ihtable =>
    rw [run_shareFrom hva]
    refine .table hva ?_ ?_
    · rw [if_pos rfl]
      refine .look hva (fun mapped => ?_) ihpage
      exact (obeys_sharePage mapped).andThen (fun _ => ihpage) fun _ => rfl
    · rw [if_neg nofun]
      exact ihtable
  | case2 va hva =>
    rw [shareFrom, dif_neg hva]
    exact .done ⟨va, Nat.not_lt.1 hva, rfl⟩

theorem obeys_populate (id : EnvId) (entry : Nat) :
    Obeys (EndsIn (.started id) (.discards id)) (.walks id 0)
      (populate syscalls space id entry).run := by
  refine (obeys_shareFrom id 0).bindE ?_ fun _ _ hφ => hφ
  rintro _ _ ⟨va, hva, rfl⟩
  refine Obeys.andThen (Obeys.ask (.childStack hva)) (fun _ => ?_) fun _ => rfl
  refine Obeys.andThen (Obeys.ask (.childUpcall id entry)) (fun _ => ?_) fun _ => rfl
  exact Obeys.ask (.start id)

/-- **A child that could not be completed is destroyed.** -/
theorem obeys_discard (id : EnvId) (e : CallError) :
    Obeys (fun φ (_ : Unit) => φ = .alone) (.discards id) (discard syscalls id e : Program Unit) := by
  refine (Obeys.ask (.discard id)).bind fun φ r hφ => ?_
  cases r with
  | ok => exact .done hφ
  | error => exact hφ ▸ .never _

/-- The phase of a parent that has a child to share its pages with. -/
def Bears (φ : Phase) : Except CallError (Option EnvId) → Prop
  | .ok (some id) => φ = .walks id 0
  | .ok none | .error _ => φ = .alone

theorem obeys_exofork : Obeys Bears .alone syscalls.exofork.run := by
  have hcall : Obeys (fun φ (r : Except CallError UInt32) => Bears φ (r.map EnvId.ofRaw?)) .alone
      (syscalls.perform .exofork {}).run := by
    refine .exofork (f := fun w => .done (decodeResult w)) (fun w e hw => ?_) (fun w v hw hv => ?_)
      fun w v id hw hv => ?_
    · rw [hw]
      exact .done rfl
    · rw [hw]
      exact .done (by rw [Except.map, hv]; rfl)
    · rw [hw]
      exact .done (by rw [Except.map, hv]; rfl)
  exact hcall.bindE (fun _ _ hφ => .done hφ) fun _ _ hφ => hφ

/-- What is true once a fork is over: its child can run if it says that there is one. -/
def ForkEnds (φ : Phase) (r : Except CallError (Option EnvId)) : Prop :=
  match r.toOption.join with
  | some id => φ = .started id
  | none => φ = .alone

/-- **Making a child goes through the phases.** -/
theorem obeys_fork (entry : Nat) :
    Obeys ForkEnds .alone (User.fork syscalls space entry).run := by
  refine (obeys_prepare entry).andThen (fun _ => ?_) fun _ => rfl
  refine obeys_exofork.bindE (fun φ r hφ => ?_) fun φ e hφ => hφ
  cases r with
  | none => exact .done hφ
  | some id =>
    obtain rfl : φ = .walks id 0 := hφ
    refine (Obeys.lift (obeys_populate id entry)).bindE (fun φ r hφ => ?_) fun _ _ => False.elim
    cases r with
    | ok => exact .done hφ
    | error e =>
      obtain rfl : φ = .discards id := hφ
      exact (Obeys.lift (obeys_discard id e)).bindE (fun _ _ hφ => .done hφ) fun _ _ => False.elim

end Fork

/-! ## Handling a fault -/

section Fault

open Program User

theorem obeys_inHandler {φ φ₁ : Phase} {x : ExceptT CallError Program Unit}
    (h : Obeys (EndsIn φ₁ .never) φ x.run) :
    Obeys (EndsIn φ₁ .never) φ (inHandler x).run := by
  refine h.bind fun φ r hr => ?_
  cases r <;> exact .done hr

/-- **The writer of a shared page gets a copy of its own.** -/
theorem obeys_giveCopy (va : Nat) :
    Obeys (EndsIn (.writes va) .never) (.supplies va) (do
      inHandler (syscalls.pageAlloc none Layout.scratchPage Perm.userWrite)
      liftM (space.copyPage va Layout.scratchPage)
      inHandler (syscalls.pageMap none Layout.scratchPage none va Perm.userWrite)
      inHandler (syscalls.pageUnmap none Layout.scratchPage) :
        ExceptT PageFaultError Program Unit).run := by
  refine (obeys_inHandler (Obeys.ask (.supply va))).andThen (fun _ => ?_) fun _ => rfl
  refine .copy ?_
  exact (obeys_inHandler (Obeys.ask (.move va))).andThen
    (fun _ => obeys_inHandler (Obeys.ask (.clear va))) fun _ => rfl

/-- What is true once a fault was handled. -/
def FaultEnds (va : Nat) (φ : Phase) : Except PageFaultError Unit → Prop
  | .ok _ => φ = .writes va
  | .error _ => φ = .refuses va ∨ φ = .never

/-- **Handling a fault goes through the phases.** -/
theorem obeys_handleCowFault {va : Nat} {err : UInt32} (herr : err &&& faultOnWrite ≠ 0) :
    Obeys (FaultEnds (pageOf va)) (.faults (pageOf va))
      (handleCowFault syscalls space va err).run := by
  unfold handleCowFault
  rw [if_neg herr]
  refine .fault fun m => ?_
  change Obeys _ _ (ExceptT.run (if m.any (·.contains Perm.copyOnWrite) = true then _ else _))
  split
  · refine (obeys_giveCopy (pageOf va)).imp fun φ r hφ => ?_
    cases r with
    | ok => exact hφ
    | error => exact .inr hφ
  · exact .done (.inl rfl)

end Fault

end Exokernel
