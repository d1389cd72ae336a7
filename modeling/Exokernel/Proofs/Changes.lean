import Mathlib.Logic.Relation
import Exokernel.Proofs.Effects
/-!
# What a system call can do

The changes a CPU can make to the kernel's state on behalf of the environment it runs, each with
the checks that come before it. A system call is a sequence of such changes, or the destruction of
an environment, or the delivery of a message (`syscall_cases`). What is kept by every change, by
destruction and by delivery is kept by every call, whatever its arguments.
-/

namespace Exokernel

namespace State

variable {M : Type} {k k' : State M} {cpu : Nat} {s : Slot}

/-! ## Names -/

/-- Both states show the same names: identifiers, parents, states of environments and who runs
where. -/
structure SameNames (k k' : State M) : Prop where
  status : ∀ s, (k'.env s).status = (k.env s).status
  lastId : ∀ s, (k'.env s).lastId = (k.env s).lastId
  parent : ∀ s, (k'.env s).parent = (k.env s).parent
  current : ∀ cpu, k'.current cpu = k.current cpu

theorem SameNames.id (h : SameNames k k') (s : Slot) : (k'.env s).id = (k.env s).id := by
  simp only [Env.id, h.status, h.lastId]

theorem SameNames.currentId (h : SameNames k k') (cpu : Nat) :
    k'.currentId cpu = k.currentId cpu := by
  unfold State.currentId
  rw [h.current]
  cases k.current cpu with
  | none => rfl
  | some s => exact h.id s

theorem SameNames.reaches (h : SameNames k k') (caller : EnvId) :
    ∀ (n : Nat) (id : EnvId), k'.reaches caller n id = k.reaches caller n id := by
  intro n
  induction n with
  | zero => intro id; rfl
  | succ n ih =>
    intro id
    simp only [State.reaches, h.id, h.parent]
    cases (k.env id.slot).parent with
    | none => rfl
    | some p => simp only [ih p]

/-- **A word names the same slot in both.** -/
theorem SameNames.resolve (h : SameNames k k') (cpu : Nat) (raw : UInt32) (check : Bool) :
    k'.resolve cpu raw check = k.resolve cpu raw check := by
  unfold State.resolve
  cases EnvId.ofRaw? raw with
  | none => simp only [h.current]
  | some id =>
    have hd : k'.isSelfOrDescendant cpu id = k.isSelfOrDescendant cpu id := by
      unfold State.isSelfOrDescendant
      rw [h.currentId]
      cases k.currentId cpu with
      | none => rfl
      | some caller => exact h.reaches caller _ id
    simp only [h.status, h.lastId, hd]

theorem SameNames.trans {k'' : State M} (h : SameNames k k') (h' : SameNames k' k'') :
    SameNames k k'' :=
  ⟨fun s => (h'.status s).trans (h.status s), fun s => (h'.lastId s).trans (h.lastId s),
    fun s => (h'.parent s).trans (h.parent s), fun c => (h'.current c).trans (h.current c)⟩

theorem sameNames_hush (k : State M) : SameNames k k.hush :=
  ⟨fun _ => rfl, fun _ => rfl, fun _ => rfl, fun _ => rfl⟩

/-- What is said changes no name. -/
theorem sameNames_say (k : State M) (l : Log.Level) (t m : String) : SameNames k (k.say l t m) :=
  ⟨fun _ => rfl, fun _ => rfl, fun _ => rfl, fun _ => rfl⟩

/-- Saved registers are no names. -/
theorem sameNames_frame (k : State M) (s : Slot) (f : TrapFrame) :
    SameNames k (k.setEnv s { k.env s with frame := f }) := by
  have h : ∀ t, (k.setEnv s { k.env s with frame := f }).env t =
      if t = s then { k.env s with frame := f } else k.env t := fun t => env_setEnv k s t _
  refine ⟨fun t => ?_, fun t => ?_, fun t => ?_, fun _ => rfl⟩ <;>
    · rw [h]
      split
      · next ht => rw [ht]
      · rfl

/-- The environment running on a CPU may act on the one of a slot: some word names it on behalf of
that CPU, and it is the caller or one of its descendants. -/
def Governs (k : State M) (cpu : Nat) (s : Slot) : Prop :=
  ∃ raw, k.resolve cpu raw true = .ok s

theorem SameNames.governs (h : SameNames k k') : k'.Governs cpu s ↔ k.Governs cpu s := by
  simp only [Governs, h.resolve]

theorem currentId_eq_some_iff {id : EnvId} :
    k.currentId cpu = some id ↔ ∃ s, k.current cpu = some s ∧ (k.env s).id = some id := by
  unfold currentId
  cases k.current cpu <;> simp

/-- **Descent is read off the parent links**, from the environment the CPU runs. -/
theorem isSelfOrDescendant_iff {id : EnvId} : k.isSelfOrDescendant cpu id = true ↔
    ∃ s caller, k.current cpu = some s ∧ (k.env s).id = some caller ∧
      k.reaches caller slotCount id = true := by
  unfold isSelfOrDescendant
  cases hid : k.currentId cpu with
  | none =>
    simp only [Bool.false_eq_true, false_iff]
    rintro ⟨s, caller, hs, hcaller, -⟩
    cases hid.symm.trans (currentId_eq_some_iff.2 ⟨s, hs, hcaller⟩)
  | some caller =>
    obtain ⟨s, hs, hcaller⟩ := currentId_eq_some_iff.1 hid
    simp [hs, hcaller]

/-- **What a word names**: the environment the CPU runs if it is 0, or the occupant of a slot under its
own identifier. -/
theorem resolve_eq_ok_iff {raw : UInt32} {check : Bool} : k.resolve cpu raw check = .ok s ↔
    raw = 0 ∧ k.current cpu = some s ∨
      ∃ id : EnvId, id.raw = raw ∧ id.slot = s ∧ (k.env s).id = some id ∧
        (k.env s).status ≠ .dying ∧ (check = true → k.isSelfOrDescendant cpu id = true) := by
  unfold State.resolve
  by_cases hraw : raw = 0
  · have hnone : EnvId.ofRaw? raw = none := dif_neg fun hne => hne hraw
    rw [hnone]
    simp only [hraw, true_and]
    constructor
    · intro h
      cases hcur : k.current cpu with
      | none => simp [hcur] at h
      | some t => exact .inl (by simpa [hcur] using h)
    · rintro (hcur | ⟨id, hzero, -⟩)
      · rw [hcur]
      · exact absurd hzero id.raw_ne_zero
  · have hsome : EnvId.ofRaw? raw = some ⟨raw, hraw⟩ := dif_pos hraw
    rw [hsome]
    dsimp only
    constructor
    · intro h
      split at h
      · cases h
      · next hthere =>
        split at h
        · cases h
        · next hallowed =>
          cases h
          simp only [not_or, ne_eq, Decidable.not_not] at hthere
          obtain ⟨hfree, hdying, hlast⟩ := hthere
          refine .inr ⟨⟨raw, hraw⟩, rfl, rfl, Env.id_eq_some_iff.2 ⟨hfree, hlast⟩, hdying, ?_⟩
          intro hcheck
          simpa [hcheck] using hallowed
    · rintro (⟨hzero, -⟩ | ⟨id, rfl, rfl, hid, hdying, hallowed⟩)
      · exact absurd hzero hraw
      · obtain ⟨hfree, hlast⟩ := Env.id_eq_some_iff.1 hid
        rw [if_neg (by simp [hfree, hdying, hlast]), if_neg]
        simpa using hallowed

theorem resolve_cases {raw : UInt32} {check : Bool} (h : k.resolve cpu raw check = .ok s) :
    k.current cpu = some s ∨
      ∃ id : EnvId, id.slot = s ∧ (k.env s).id = some id ∧ (k.env s).status ≠ .dying ∧
        (check = true → k.isSelfOrDescendant cpu id = true) := by
  rcases resolve_eq_ok_iff.1 h with ⟨-, hcur⟩ | ⟨id, -, hid⟩
  · exact .inl hcur
  · exact .inr ⟨id, hid⟩

/-- The word 0 names the environment a CPU runs. -/
theorem resolve_zero (h : k.current cpu = some s) (check : Bool) : k.resolve cpu 0 check = .ok s :=
  resolve_eq_ok_iff.2 (.inl ⟨rfl, h⟩)

/-- The environment a CPU runs is under its own authority. -/
theorem governs_current (h : k.current cpu = some s) : k.Governs cpu s := ⟨0, resolve_zero h true⟩

/-- Whoever names an environment under its authority is there. -/
theorem exists_current_of_resolve {raw : UInt32} (h : k.resolve cpu raw true = .ok s) :
    ∃ t, k.current cpu = some t := by
  rcases resolve_cases h with hcur | ⟨id, -, -, -, hallowed⟩
  · exact ⟨s, hcur⟩
  · obtain ⟨t, -, hcur, -⟩ := isSelfOrDescendant_iff.1 (hallowed rfl)
    exact ⟨t, hcur⟩

/-! ## The changes -/

/-- What the CPU may write into a slot. -/
inductive Amends (k : State M) (cpu : Nat) (s : Slot) : Env → Prop
  /-- The registers of the environment it runs. -/
  | save (f : TrapFrame) : k.current cpu = some s → Amends k cpu s { k.env s with frame := f }
  /-- Whether an environment may be scheduled. -/
  | status {st : Status} : k.Governs cpu s → st = .runnable ∨ st = .notRunnable →
      Amends k cpu s { k.env s with status := st }
  /-- Where an environment handles its page faults. -/
  | upcall (entry : Nat) : k.Governs cpu s → Amends k cpu s { k.env s with upcall := entry }
  /-- That the environment it runs waits for a message. -/
  | listen (dstva : Nat) : k.current cpu = some s →
      Amends k cpu s
        { k.env s with
          inbox := { (k.env s).inbox with receiving := true, dstva := dstva }
          status := .notRunnable
          frame := { (k.env s).frame with eax := 0 } }

variable [Memory M]

/-- What may be shared is mapped where it is shared from, for writing if it is shared for writing. -/
theorem lookup_of_shareable {dir : PageDir} {va : Nat} {perm : Perm} {page : PhysPage}
    (h : k.shareable dir va perm = some page) :
    ∃ mapped, Memory.lookup k.memory dir va = some (page, mapped) ∧
      (perm.contains Perm.write = true → mapped.contains Perm.write = true) := by
  unfold shareable at h
  split at h
  · next page' mapped hlookup =>
    split at h
    · cases h
    · next hrights =>
      cases h
      refine ⟨mapped, hlookup, fun hwrite => ?_⟩
      simpa [hwrite] using hrights
  · cases h

/-- What is offered is mapped by the sender at the address it named, with a permission a user may
ask for. -/
theorem lookup_of_offered {sender : Slot} {srcva : Nat} {raw : UInt32} {page : PhysPage} {perm : Perm}
    (h : k.offered sender srcva raw = .ok (some (page, perm))) :
    srcva < Layout.userTop ∧ Perm.ofUser? raw = some perm ∧
      ∃ mapped, Memory.lookup k.memory (k.env sender).pgdir srcva = some (page, mapped) ∧
        (perm.contains Perm.write = true → mapped.contains Perm.write = true) := by
  unfold offered at h
  split at h
  · next hva =>
    split at h
    · cases h
    · split at h
      · cases h
      · next perm' hperm =>
        split at h
        · next page' hpage =>
          cases h
          exact ⟨hva, hperm, lookup_of_shareable hpage⟩
        · cases h
  · cases h

/-- An environment that the CPU may act on has the page mapped. -/
def AtHand (k : State M) (cpu : Nat) (page : PhysPage) : Prop :=
  ∃ s va perm, k.Governs cpu s ∧ Memory.lookup k.memory (k.env s).pgdir va = some (page, perm)

theorem atHand_of_shareable {va : Nat} {perm : Perm} {page : PhysPage} (hs : k.Governs cpu s)
    (h : k.shareable (k.env s).pgdir va perm = some page) : k.AtHand cpu page := by
  obtain ⟨mapped, hlookup, -⟩ := lookup_of_shareable h
  exact ⟨s, va, mapped, hs, hlookup⟩

theorem atHand_of_offered {srcva : Nat} {raw : UInt32} {page : PhysPage} {perm : Perm}
    (hs : k.current cpu = some s) (h : k.offered s srcva raw = .ok (some (page, perm))) :
    k.AtHand cpu page := by
  obtain ⟨-, -, mapped, hlookup, -⟩ := lookup_of_offered h
  exact ⟨s, srcva, mapped, governs_current hs, hlookup⟩

/-- What the CPU may make of memory without making or destroying an address space. -/
inductive Touches (k : State M) (cpu : Nat) : M → Prop
  /-- There is no directory for a child. -/
  | noSpace {e : MemoryError} {mem : M} : Memory.createSpace k.memory = .error e mem →
      Touches k cpu mem
  /-- There is no new page. -/
  | noPage {e : MemoryError} {mem : M} : Memory.allocPage k.memory = .error e mem →
      Touches k cpu mem
  /-- A new page is mapped. -/
  | supplied {s : Slot} {va : Nat} {raw : UInt32} {perm : Perm} {page : PhysPage} {mem mem' : M} :
      k.Governs cpu s → isUserPage va → Perm.ofUser? raw = some perm →
      Memory.allocPage k.memory = .ok page mem →
      Memory.insert (k.env s).pgdir page va perm mem = .ok () mem' → Touches k cpu mem'
  /-- A new page cannot be mapped, and is given back. -/
  | unsupplied {s : Slot} {va : Nat} {raw : UInt32} {perm : Perm} {page : PhysPage}
      {e : MemoryError} {mem mem' : M} :
      k.Governs cpu s → isUserPage va → Perm.ofUser? raw = some perm →
      Memory.allocPage k.memory = .ok page mem →
      Memory.insert (k.env s).pgdir page va perm mem = .error e mem' →
      Touches k cpu (Memory.freePage page mem')
  /-- A page of one environment is mapped in another. -/
  | shared {src dst : Slot} {srcva dstva : Nat} {raw : UInt32} {perm : Perm} {page : PhysPage}
      {mem : M} :
      k.Governs cpu src → k.Governs cpu dst → isUserPage srcva → isUserPage dstva →
      Perm.ofUser? raw = some perm → k.shareable (k.env src).pgdir srcva perm = some page →
      Memory.insert (k.env dst).pgdir page dstva perm k.memory = .ok () mem → Touches k cpu mem
  /-- A page of one environment cannot be mapped in another. -/
  | unshared {dst : Slot} {dstva : Nat} {perm : Perm} {page : PhysPage} {e : MemoryError}
      {mem : M} :
      k.Governs cpu dst → k.AtHand cpu page →
      Memory.insert (k.env dst).pgdir page dstva perm k.memory = .error e mem → Touches k cpu mem
  /-- A page is unmapped. -/
  | removed {s : Slot} {va : Nat} : k.Governs cpu s → isUserPage va →
      Touches k cpu (Memory.remove (k.env s).pgdir va k.memory)
  /-- The page that goes with a message cannot be mapped. -/
  | undelivered {receiver : Slot} {target : UInt32} {dstva : Nat} {perm : Perm} {page : PhysPage}
      {e : MemoryError} {mem : M} :
      k.resolve cpu target false = .ok receiver → k.AtHand cpu page →
      Memory.insert (k.env receiver).pgdir page dstva perm k.memory = .error e mem →
      Touches k cpu mem

/-- The state in which the environment of slot `p` has a child in slot `s`, with the registers of its
parent and 0 for the result of the call. -/
def forked (k : State M) (cpu : Nat) (p s : Slot) (dir : PageDir) (mem : M) : State M :=
  let k := k.occupy cpu s (k.env p).id dir mem
  k.mapEnv s fun e => { e with frame := { (k.env p).frame with eax := 0 } }

/-- **A change on behalf of the environment running on a CPU** that stays within its authority. No
occupant goes. -/
inductive Change (cpu : Nat) (k : State M) : State M → Prop
  | speak (l : Log.Level) (t m : String) : Change cpu k (k.say l t m)
  | touch {mem : M} : Touches k cpu mem → Change cpu k { k with memory := mem }
  | amend {s : Slot} {e : Env} : Amends k cpu s e → Change cpu k (k.setEnv s e)
  /-- The environment makes a child, from its own CPU's free slots. -/
  | fork {p s : Slot} {dir : PageDir} {mem : M} : k.current cpu = some p →
      (k.runQueue cpu).freeHead = some s → Memory.createSpace k.memory = .ok dir mem →
      Change cpu k (k.forked cpu p s dir mem)

/-- A sequence of changes on behalf of the environment running on a CPU. -/
abbrev Changes (cpu : Nat) : State M → State M → Prop := Relation.ReflTransGen (Change cpu)

/-- The state in which a message has been put into an inbox and its owner may run again. -/
def deliver (k : State M) (sender receiver : Slot) (value : UInt32) (granted : Perm) : State M :=
  k.mapEnv receiver fun e =>
    { e with
      inbox := { e.inbox with receiving := false, sender := (k.env sender).id, value := value,
                              perm := granted }
      status := .runnable }

omit [Memory M] in
/-- A message is left in the slot of its receiver. -/
theorem env_deliver (k : State M) (sender receiver t : Slot) (value : UInt32) (granted : Perm) :
    (k.deliver sender receiver value granted).env t =
      if t = receiver then
        { k.env receiver with
          inbox := { (k.env receiver).inbox with
                     receiving := false, sender := (k.env sender).id, value := value,
                     perm := granted }
          status := .runnable }
      else k.env t :=
  env_mapEnv k receiver t _

/-- **The delivery of a message** to an environment that waits for one, on any CPU. -/
inductive Delivery (k : State M) (cpu : Nat) (target value : UInt32) (srcva : Nat) (perm : UInt32)
    (receiver : Slot) : State M → Prop
  /-- No page is offered, or none is wanted. -/
  | word {sender : Slot} {offer : Option (PhysPage × Perm)} : k.current cpu = some sender →
      k.resolve cpu target false = .ok receiver → (k.env receiver).inbox.receiving = true →
      k.offered sender srcva perm = .ok offer →
      offer = none ∨ ¬ (k.env receiver).inbox.dstva < Layout.userTop →
      Delivery k cpu target value srcva perm receiver (k.deliver sender receiver value Perm.empty)
  /-- A page is mapped where the receiver asked for it. -/
  | page {sender : Slot} {page : PhysPage} {granted : Perm} {mem : M} :
      k.current cpu = some sender →
      k.resolve cpu target false = .ok receiver → (k.env receiver).inbox.receiving = true →
      k.offered sender srcva perm = .ok (some (page, granted)) →
      (k.env receiver).inbox.dstva < Layout.userTop →
      Memory.insert (k.env receiver).pgdir page (k.env receiver).inbox.dstva granted k.memory =
        .ok () mem →
      Delivery k cpu target value srcva perm receiver
        (({ k with memory := mem } : State M).deliver sender receiver value granted)

end State

end Exokernel
