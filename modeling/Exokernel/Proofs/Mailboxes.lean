import Exokernel.Proofs.Turns
/-!
# Messages along a history

An environment that has asked for a message is marked as receiving until it is sent one, so the mark
tells which of the two came last, and a message is delivered to whoever is marked. Along a history
this makes asking and sending alternate: `Mail` says what the deeds of an occupant's life have made of
its inbox.
-/

namespace Exokernel

open MemoryView PageView Memory

/-- **What a user may ask for** is permission to something, of a page that is present. -/
theorem Perm.ofUser?_eq_some {raw : UInt32} {perm : Perm} (h : Perm.ofUser? raw = some perm) :
    perm = ⟨raw⟩ ∧ raw ≠ 0 ∧ perm ||| Perm.present = perm := by
  simp only [Perm.ofUser?, Option.ite_none_right_eq_some, Bool.and_eq_true] at h
  obtain ⟨⟨hread, -⟩, h⟩ := h
  obtain rfl := Option.some.inj h
  have hbits : raw &&& 5 = 5 := beq_iff_eq.1 hread
  have hpresent : raw &&& 1 = 1 := by
    rw [show (1 : UInt32) = 5 &&& 1 from rfl, ← UInt32.and_assoc, hbits]
  have habsorb : raw ||| raw &&& 1 = raw := by
    refine UInt32.toBitVec_inj.1 (BitVec.eq_of_getElem_eq fun i hi => ?_)
    simp only [UInt32.toBitVec_or, UInt32.toBitVec_and, BitVec.getElem_or, BitVec.getElem_and]
    cases raw.toBitVec[i] <;> rfl
  refine ⟨rfl, ?_, congrArg Perm.mk ?_⟩
  · rintro rfl
    cases hbits
  · rw [hpresent] at habsorb
    exact habsorb

namespace State

variable {M : Type} {k k' : State M} {policy : Policy} {ncpu cpu : Nat} {m₀ : M} {s : Slot}
  {tf : TrapFrame}

variable [Memory M]

/-! ## What a message brings -/

/-- The words a message leaves with a receiver that waits for a page at `dstva`. -/
def message (k : State M) (sender : Slot) (a : Args) (dstva : Nat) : MessageWords where
  sender := EnvId.rawOrZero (k.env sender).id
  value := a.second
  perm := if a.third.toNat < Layout.userTop ∧ dstva < Layout.userTop then a.fourth else 0

/-- **What a message brings**: the sender shares the page it has at the address it names, if it
names one and the receiver waits for one. -/
def Shares (k : State M) (sender receiver : Slot) (a : Args) (dstva : Nat) (m' : M) : Prop :=
  if a.third.toNat < Layout.userTop ∧ dstva < Layout.userTop then
    Perm.ofUser? a.fourth = some ⟨a.fourth⟩ ∧ ∃ page mapped,
      Memory.lookup k.memory (k.env sender).pgdir a.third.toNat = some (page, mapped) ∧
      Memory.insert (k.env receiver).pgdir page dstva ⟨a.fourth⟩ k.memory = .ok () m'
  else m' = k.memory

/-- **A message is delivered** to an environment that waits for it. -/
structure Brings (k : State M) (sender receiver : Slot) (a : Args) (k' : State M) : Prop where
  awaited : (k.env receiver).inbox.receiving = true
  receiving : (k'.env receiver).inbox.receiving = false
  dstva : (k'.env receiver).inbox.dstva = (k.env receiver).inbox.dstva
  lastId : (k'.env receiver).lastId = (k.env receiver).lastId
  words : (k'.env receiver).inbox.words = k.message sender a (k.env receiver).inbox.dstva
  page : k.Shares sender receiver a (k.env receiver).inbox.dstva k'.memory

omit [Memory M] in
/-- The slot of the receiver, once a call has delivered a message there. -/
theorem env_delivered (k : State M) (sender receiver : Slot) (tf : TrapFrame) (value : UInt32)
    (granted : Perm) (mem : M) :
    let k₁ : State M := { k.save sender tf with memory := mem }
    let e := ((k₁.deliver sender receiver value granted).setResult sender 0).env receiver
    e.lastId = (k.env receiver).lastId ∧
      e.inbox = { (k.env receiver).inbox with
        receiving := false, sender := (k.env sender).id, value := value, perm := granted } := by
  intro k₁ e
  have hafter := steady_setResult (k₁.deliver sender receiver value granted) sender receiver 0
  have hbefore : Env.Steady (k.env receiver) (k₁.env receiver) := steady_save k sender receiver tf
  have hid : (k₁.env sender).id = (k.env sender).id := (sameNames_frame k sender tf).id sender
  rw [env_deliver, if_pos rfl] at hafter
  refine ⟨hafter.lastId.trans hbefore.lastId, hafter.inbox.trans ?_⟩
  rw [← hid, ← hbefore.inbox]

/-- Nothing is offered only if the sender names no page. -/
theorem not_lt_of_offered_none {sender : Slot} {srcva : Nat} {raw : UInt32}
    (h : k.offered sender srcva raw = .ok none) : ¬ srcva < Layout.userTop := by
  intro hva
  unfold offered at h
  rw [if_pos hva] at h
  split at h
  · cases h
  · split at h
    · cases h
    · split at h
      · cases h
      · cases h

theorem Sending.brings {sender receiver : Slot} {next : Next}
    (h : Sending k cpu tf sender receiver next k') : Brings k sender receiver tf.args k' := by
  obtain ⟨k₁, hd, rfl⟩ := h.ends
  have hinbox := (steady_save k sender receiver tf).inbox
  cases hd with
  | @word p offer hp _ hrecv hoffer hnone =>
    obtain rfl : sender = p := Option.some.inj (h.current.symm.trans hp)
    obtain ⟨hid, henv⟩ :=
      env_delivered k sender receiver tf tf.args.second Perm.empty (k.save sender tf).memory
    rw [hinbox] at hrecv hnone
    have hno : ¬ (tf.args.third.toNat < Layout.userTop ∧
        (k.env receiver).inbox.dstva < Layout.userTop) := by
      rintro ⟨hsrc, hdst⟩
      rcases hnone with rfl | hnone
      · exact not_lt_of_offered_none hoffer hsrc
      · exact hnone hdst
    refine ⟨hrecv, congrArg Inbox.receiving henv, (congrArg Inbox.dstva henv :), hid, ?_, ?_⟩
    · rw [message, if_neg hno]
      exact congrArg Inbox.words henv
    · exact (if_neg hno).mpr rfl
  | @page p page granted mem hp _ hrecv hoffer hdst hinsert =>
    obtain rfl : sender = p := Option.some.inj (h.current.symm.trans hp)
    obtain ⟨hid, henv⟩ := env_delivered k sender receiver tf tf.args.second granted mem
    obtain ⟨hsrc, hperm, mapped, hlookup, -⟩ := lookup_of_offered hoffer
    obtain ⟨rfl, -, -⟩ := Perm.ofUser?_eq_some hperm
    rw [hinbox] at hrecv hdst hinsert
    rw [pgdir_save] at hlookup hinsert
    refine ⟨hrecv, congrArg Inbox.receiving henv, (congrArg Inbox.dstva henv :), hid, ?_, ?_⟩
    · rw [message, if_pos ⟨hsrc, hdst⟩]
      exact congrArg Inbox.words henv
    · exact (if_pos ⟨hsrc, hdst⟩).mpr ⟨hperm, page, mapped, hlookup, hinsert⟩

/-! ## The life of an occupant -/

/-- The deeds of the life of the environment in a slot, latest first, as far back as the slot was
occupied. -/
def lifetime (s : Slot) (l : List (Deed (State M) Action)) : List (Deed (State M) Action) :=
  l.takeWhile fun d => (d.before.env s).status ≠ .free

section Lifetime

variable {d e : Deed (State M) Action} {l newer older : List (Deed (State M) Action)}

omit [Memory M] in
theorem lifetime_of_occupied (h : (d.before.env s).status ≠ .free) :
    lifetime s (d :: l) = d :: lifetime s l :=
  List.takeWhile_cons_of_pos (decide_eq_true h)

omit [Memory M] in
theorem lifetime_of_free (h : (d.before.env s).status = .free) : lifetime s (d :: l) = [] :=
  List.takeWhile_cons_of_neg (by simp [h])

omit [Memory M] in
theorem occupied_of_mem_lifetime (h : d ∈ lifetime s l) : (d.before.env s).status ≠ .free :=
  of_decide_eq_true (List.all_eq_true.1 List.all_takeWhile d h)

omit [Memory M] in
/-- What came before a deed in a life is the life up to it. -/
theorem exists_of_lifetime_eq (h : lifetime s l = newer ++ d :: older) :
    ∃ rest, l = newer ++ d :: rest ∧ lifetime s rest = older ∧ (d.before.env s).status ≠ .free := by
  induction newer generalizing l with
  | nil =>
    cases l with
    | nil => cases h
    | cons a l =>
      by_cases hfree : (a.before.env s).status = .free
      · rw [lifetime_of_free hfree] at h
        cases h
      · rw [lifetime_of_occupied hfree] at h
        obtain ⟨rfl, hl⟩ := List.cons.inj h
        exact ⟨l, rfl, hl, hfree⟩
  | cons n newer ih =>
    cases l with
    | nil => cases h
    | cons a l =>
      by_cases hfree : (a.before.env s).status = .free
      · rw [lifetime_of_free hfree] at h
        cases h
      · rw [lifetime_of_occupied hfree] at h
        obtain ⟨rfl, hl⟩ := List.cons.inj h
        obtain ⟨rest, rfl, hrest⟩ := ih hl
        exact ⟨rest, rfl, hrest⟩

end Lifetime

/-- **What the deeds of an occupant's life have made of its slot**, as far as messages go. -/
structure Mail (s : Slot) (life : List (Deed (State M) Action)) (e : Env) : Prop where
  /-- It was the same occupant all the time. -/
  occupant : ∀ d ∈ life, (d.before.env s).lastId = e.lastId
  /-- It waits for a message if it has asked for one since the last one came. -/
  receiving : e.inbox.receiving =
    (life.find? fun d => d.sendsTo s || d.asksAt s).any (·.asksAt s)
  /-- A page is wanted where it was asked for last. -/
  wanted : ∀ d cpu tf, life.find? (·.asksAt s) = some d → d.act = .syscall cpu tf →
    e.inbox.dstva = tf.args.first.toNat
  /-- Every message was asked for, and one more if it waits. -/
  count : life.countP (·.sendsTo s) + (if e.inbox.receiving then 1 else 0) ≤
    life.countP (·.asksAt s)
  /-- The last message is still there. -/
  words : ∀ d cpu tf p, life.find? (·.sendsTo s) = some d → d.act = .syscall cpu tf →
    d.before.current cpu = some p →
      e.inbox.words = d.before.message p tf.args (d.before.env s).inbox.dstva

namespace Mail

variable {d : Deed (State M) Action} {life : List (Deed (State M) Action)} {e : Env}

/-- A new occupant was sent nothing and has asked for nothing. -/
theorem born (h : e.inbox = {}) : Mail s ([] : List (Deed (State M) Action)) e := by
  refine ⟨nofun, ?_, fun _ _ _ h => (nomatch h), ?_, fun _ _ _ _ h => (nomatch h)⟩
  · rw [h]
    rfl
  · rw [h]
    exact Nat.le_refl _

theorem kept (h : Mail s life (d.before.env s)) (hsend : d.sendsTo s = false)
    (hask : d.asksAt s = false) (hid : e.lastId = (d.before.env s).lastId)
    (hinbox : e.inbox = (d.before.env s).inbox) : Mail s (d :: life) e := by
  refine ⟨List.forall_mem_cons.2 ⟨hid.symm, fun a ha => (h.occupant a ha).trans hid.symm⟩, ?_,
    fun a cpu tf ha => ?_, ?_, fun a cpu tf p ha => ?_⟩
  · simp only [List.find?_cons, hsend, hask, Bool.or_false, hinbox]
    exact h.receiving
  · simp only [List.find?_cons, hask] at ha
    rw [hinbox]
    exact h.wanted a cpu tf ha
  · simp only [List.countP_cons, hsend, hask, hinbox, Bool.false_eq_true, if_false, Nat.add_zero]
    exact h.count
  · simp only [List.find?_cons, hsend] at ha
    rw [hinbox]
    exact h.words a cpu tf p ha

/-- Asking starts the wait. -/
theorem asked {cpu : Nat} {tf : TrapFrame} (h : Mail s life (d.before.env s))
    (hact : d.act = .syscall cpu tf) (hsend : d.sendsTo s = false) (hask : d.asksAt s = true)
    (he : Env.Steady (listening (d.before.env s) tf.args.first.toNat) e) : Mail s (d :: life) e := by
  have hid : e.lastId = (d.before.env s).lastId := he.lastId
  have hreceiving : e.inbox.receiving = true := congrArg Inbox.receiving he.inbox
  have hdstva : e.inbox.dstva = tf.args.first.toNat := congrArg Inbox.dstva he.inbox
  have hwords : e.inbox.words = (d.before.env s).inbox.words :=
    (congrArg Inbox.words he.inbox :)
  refine ⟨List.forall_mem_cons.2 ⟨hid.symm, fun a ha => (h.occupant a ha).trans hid.symm⟩, ?_,
    fun a cpu' tf' ha ha' => ?_, ?_, fun a cpu tf p ha => ?_⟩
  · simp only [List.find?_cons, hsend, hask, Bool.or_true, hreceiving, Option.any_some]
  · simp only [List.find?_cons, hask] at ha
    obtain rfl := Option.some.inj ha
    obtain ⟨rfl, rfl⟩ := Action.syscall.inj (hact.symm.trans ha')
    exact hdstva
  · have := h.count
    simp only [List.countP_cons, hsend, hask, hreceiving, Bool.false_eq_true, if_false, if_true]
    omega
  · simp only [List.find?_cons, hsend] at ha
    rw [hwords]
    exact h.words a cpu tf p ha

/-- A message ends the wait. -/
theorem sent {cpu : Nat} {tf : TrapFrame} {sender : Slot} (h : Mail s life (d.before.env s))
    (hact : d.act = .syscall cpu tf) (hc : d.before.current cpu = some sender)
    (hsend : d.sendsTo s = true) (hask : d.asksAt s = false)
    (hb : Brings d.before sender s tf.args k') : Mail s (d :: life) (k'.env s) := by
  have hid := hb.lastId.symm
  refine ⟨List.forall_mem_cons.2 ⟨hid, fun a ha => (h.occupant a ha).trans hid⟩, ?_,
    fun a cpu tf ha => ?_, ?_, fun a cpu' tf' p ha ha' hp => ?_⟩
  · simp only [List.find?_cons, hsend, hask, Bool.true_or, hb.receiving, Option.any_some]
  · simp only [List.find?_cons, hask] at ha
    rw [hb.dstva]
    exact h.wanted a cpu tf ha
  · have hcount := h.count
    simp only [hb.awaited, if_true] at hcount
    simp only [List.countP_cons, hsend, hask, hb.receiving, Bool.false_eq_true, if_false, if_true]
    omega
  · simp only [List.find?_cons, hsend] at ha
    obtain rfl := Option.some.inj ha
    obtain ⟨rfl, rfl⟩ := Action.syscall.inj (hact.symm.trans ha')
    obtain rfl := Option.some.inj (hc.symm.trans hp)
    exact hb.words

end Mail

/-- **Along a history** the mail of an occupant is what the deeds of its life have made of it. -/
theorem Past.mail {l : List (Deed (State M) Action)} (h : Past policy ncpu m₀ l k) (s : Slot)
    (hs : (k.env s).status ≠ .free) : Mail s (lifetime s l) (k.env s) := by
  induction h with
  | start hinit =>
    exact absurd (vacant_of_init hinit s).1 hs
  | @step l x k' a hx hstep ih =>
    have hlife : (x.env s).status ≠ .free → lifetime s (⟨x, a⟩ :: l) = ⟨x, a⟩ :: lifetime s l :=
      fun hocc => lifetime_of_occupied hocc
    cases (Past.reached hx).sound.turn hstep s with
    | passes hsend hask hpasses =>
      cases hpasses with
      | gone hfree => exact absurd hfree hs
      | born hfree hinbox =>
        rw [lifetime_of_free hfree]
        exact .born hinbox
      | kept hfree hid hinbox _ =>
        have hocc : (x.env s).status ≠ .free := fun hx => hs (hfree.2 hx)
        rw [hlife hocc]
        exact (ih hocc).kept hsend hask hid hinbox
    | asked hact hsend hask hocc hsteady =>
      rw [hlife hocc]
      exact (ih hocc).asked hact hsend hask hsteady
    | sent hact hsend hask hocc hsending =>
      rw [hlife hocc]
      exact (ih hocc).sent hact hsending.current hsend hask hsending.brings

section Past

variable {d e : Deed (State M) Action} {l newer older : List (Deed (State M) Action)}

/-- A deed in a life was done when there was the mail of the life before it. -/
theorem Past.mail_before (h : Past policy ncpu m₀ l k)
    (hlife : lifetime s l = newer ++ d :: older) :
    Reached policy ncpu m₀ d.before ∧ (d.before.env s).status ≠ .free ∧
      Mail s older (d.before.env s) ∧ ∃ k', Steps ncpu d.before d.act k' := by
  obtain ⟨rest, rfl, rfl, hocc⟩ := exists_of_lifetime_eq hlife
  obtain ⟨hpast, k', hstep, -⟩ := Traced.past h
  exact ⟨Past.reached hpast, hocc, Past.mail hpast s hocc, k', hstep⟩

/-- **What is sent was asked for.** A message sent in a life was delivered to an environment that
had asked for one, and had been sent none since. -/
theorem Past.sent (h : Past policy ncpu m₀ l k) (hlife : lifetime s l = newer ++ d :: older)
    (hd : d.sendsTo s = true) :
    ∃ cpu tf sender asked, d.act = .syscall cpu tf ∧ cpu < ncpu ∧
      d.before.current cpu = some sender ∧
      Brings d.before sender s tf.args (d.before.syscall cpu tf).2 ∧
      (older.find? fun d => d.sendsTo s || d.asksAt s) = some asked ∧ asked.asksAt s = true := by
  obtain ⟨hreached, -, hmail, k', hstep⟩ := h.mail_before hlife
  obtain ⟨x, a⟩ := d
  cases hreached.sound.turn hstep s with
  | passes hsend => exact absurd hd (by simp [hsend])
  | asked _ hsend => exact absurd hd (by simp [hsend])
  | @sent cpu tf sender _ hact _ _ _ hsending =>
    obtain rfl : a = .syscall cpu tf := hact
    obtain ⟨hcpu, hk'⟩ := hstep
    obtain rfl : (x.syscall cpu tf).2 = k' := Except.ok.inj hk'
    have hbrings := hsending.brings
    obtain ⟨asked, hfind, hask⟩ :=
      (Option.any_eq_true _ _).1 (hmail.receiving.symm.trans hbrings.awaited)
    exact ⟨cpu, tf, sender, asked, rfl, hcpu, hsending.current, hbrings, hfind, hask⟩

end Past

/-! ## Messages that are sent -/

omit [Memory M] in
/-- The first of two kinds is the first of its own kind. -/
theorem find?_of_find?_or {α : Type} {p q : α → Bool} {a : α} {l : List α}
    (h : (l.find? fun x => p x || q x) = some a) (ha : q a = true) : l.find? q = some a := by
  induction l with
  | nil => cases h
  | cons b l ih =>
    rw [List.find?_cons] at h ⊢
    cases hq : q b with
    | true =>
      rw [hq, Bool.or_true] at h
      exact h
    | false =>
      rw [hq, Bool.or_false] at h
      cases hp : p b with
      | true =>
        rw [hp] at h
        obtain rfl := Option.some.inj h
        cases ha.symm.trans hq
      | false =>
        rw [hp] at h
        exact ih h

/-- Sending is not asking. -/
theorem asksAt_of_sendsTo {d : Deed (State M) Action} {t : Slot} (h : d.sendsTo s = true) :
    d.asksAt t = false := by
  obtain ⟨cpu, tf, hact, hnumber, -⟩ := Deed.isCall_iff.1 h
  obtain ⟨x, a⟩ := d
  obtain rfl : a = .syscall cpu tf := hact
  exact Deed.isCall_of_ne hnumber (nofun : Call.ipcRecv ≠ .ipcTrySend) _

section Laws

variable [MemoryView M] [PageView M] [LawfulMemory M] [LawfulPages M]

/-- A page that comes along is mapped where it was asked for, with the permission it was sent
with. -/
theorem Reached.lookup_of_shares (h : Reached policy ncpu m₀ k) (hm : Valid m₀) (ha : Accounted m₀)
    (hcpu : cpu < ncpu) {sender : Slot} {a : Args} {dstva : Nat} {m' : M}
    (hc : k.current cpu = some sender) (hs : (k.env s).status ≠ .free)
    (hshares : k.Shares sender s a dstva m') :
    if a.third.toNat < Layout.userTop ∧ dstva < Layout.userTop then
      a.fourth ≠ 0 ∧ ∃ page mapped,
        Memory.lookup k.memory (k.env sender).pgdir a.third.toNat = some (page, mapped) ∧
        Memory.insert (k.env s).pgdir page dstva ⟨a.fourth⟩ k.memory = .ok () m' ∧
        Memory.lookup m' (k.env s).pgdir dstva = some (page, ⟨a.fourth⟩)
    else m' = k.memory := by
  unfold Shares at hshares
  split at hshares
  · next hboth =>
    obtain ⟨hperm, page, mapped, hlookup, hinsert⟩ := hshares
    obtain ⟨-, hne, hpresent⟩ := Perm.ofUser?_eq_some hperm
    have hhoused := h.housed hm
    have hmapped : Mapped k.memory page :=
      hhoused.mapped (h.sound.current_ne_free hcpu hc) hlookup
    obtain ⟨-, hthere⟩ := LawfulPages.insert_ok (h.accounted hm ha) (hhoused.live_pgdir hs)
      (.inr hmapped) hinsert
    rw [hpresent] at hthere
    rw [if_pos hboth]
    exact ⟨hne, page, mapped, hlookup, hinsert, hthere⟩
  · next hnone =>
    rw [if_neg hnone]
    exact hshares

/-- **No message is lost.** Along every history, as long as a slot has one occupant: at most as many
messages were sent to it as it has asked for, and it has asked for one between any two. What the last
sending left in its inbox is still there: the identifier of the sender, the word, and a permission,
which is 0 if either side named no page. Unless it is, that sending mapped the page the sender had
where it said, with that permission, where the occupant had asked for it last. Sending that fails
leaves the slot alone, but for the saved registers if the sender is there, and every mapping. -/
theorem Past.no_message_is_lost {l : List (Deed (State M) Action)} (h : Past policy ncpu m₀ l k)
    (hm : Valid m₀) (ha : Accounted m₀) (s : Slot) (hs : (k.env s).status ≠ .free) :
    (∀ d ∈ lifetime s l, (d.before.env s).id = (k.env s).id) ∧
      (lifetime s l).countP (·.sendsTo s) ≤ (lifetime s l).countP (·.asksAt s) ∧
      (∀ newer d between e older, lifetime s l = newer ++ d :: (between ++ e :: older) →
        d.sendsTo s = true → e.sendsTo s = true → ∃ a ∈ between, a.asksAt s = true) ∧
      (∀ newer d older, lifetime s l = newer ++ d :: older → d.sendsTo s = true →
        (∀ n ∈ newer, n.sendsTo s = false) →
          ∃ cpu tf sender asked cpu' tf', d.act = .syscall cpu tf ∧
            d.before.current cpu = some sender ∧ older.find? (·.asksAt s) = some asked ∧
            asked.act = .syscall cpu' tf' ∧
            let dstva := tf'.args.first.toNat
            let after := (d.before.syscall cpu tf).2
            (k.env s).inbox.words = d.before.message sender tf.args dstva ∧
            if tf.args.third.toNat < Layout.userTop ∧ dstva < Layout.userTop then
              tf.args.fourth ≠ 0 ∧ ∃ page mapped,
                Memory.lookup d.before.memory (d.before.env sender).pgdir tf.args.third.toNat =
                  some (page, mapped) ∧
                Memory.insert (d.before.env s).pgdir page dstva ⟨tf.args.fourth⟩ d.before.memory =
                  .ok () after.memory ∧
                Memory.lookup after.memory (d.before.env s).pgdir dstva =
                  some (page, ⟨tf.args.fourth⟩)
            else after.memory = d.before.memory) ∧
      ∀ cpu tf e, cpu < ncpu → tf.eax = Call.ipcTrySend.number →
        k.answer cpu tf = some (.error e) →
          let after := (k.syscall cpu tf).2
          (k.current cpu ≠ some s → after.env s = k.env s) ∧
          (k.current cpu = some s →
            after.env s = { k.env s with frame := { tf with eax := encodeResult (.error e) } }) ∧
          Unchanged k.memory after.memory := by
  have hmail := h.mail s hs
  refine ⟨fun d hd => ?_, ?_, ?_, ?_, ?_⟩
  · rw [Env.id_of_not_free (occupied_of_mem_lifetime hd), Env.id_of_not_free hs,
      hmail.occupant d hd]
  · have hcount := hmail.count
    omega
  · intro newer d between e older hlife hd he
    obtain ⟨-, -, -, asked, -, -, -, -, hfind, hask⟩ := h.sent hlife hd
    rw [List.find?_append, Option.or_eq_some_iff] at hfind
    rcases hfind with hfind | ⟨-, hfind⟩
    · exact ⟨asked, List.mem_of_find?_eq_some hfind, hask⟩
    · -- the last thing of the kind would be the earlier sending, which is no asking
      simp only [List.find?_cons, he, Bool.true_or] at hfind
      obtain rfl := Option.some.inj hfind
      rw [asksAt_of_sendsTo he] at hask
      cases hask
  · intro newer d older hlife hd hnewer
    obtain ⟨cpu, tf, sender, asked, hact, hcpu, hc, hbrings, hfind, hask⟩ := h.sent hlife hd
    obtain ⟨hreached, hocc, hbefore, -⟩ := h.mail_before hlife
    obtain ⟨cpu', tf', hact', -⟩ := Deed.isCall_iff.1 hask
    have hasked : older.find? (·.asksAt s) = some asked :=
      find?_of_find?_or hfind hask
    have hlast : (lifetime s l).find? (·.sendsTo s) = some d := by
      have hnone : newer.find? (·.sendsTo s) = none :=
        List.find?_eq_none.2 fun n hn => by simp [hnewer n hn]
      rw [hlife, List.find?_append, hnone, List.find?_cons, hd]
      rfl
    have hwords := hmail.words d cpu tf sender hlast hact hc
    have hpage := hreached.lookup_of_shares hm ha hcpu hc hocc hbrings.page
    rw [hbefore.wanted asked cpu' tf' hasked hact'] at hwords hpage
    exact ⟨cpu, tf, sender, asked, cpu', tf', hact, hc, hasked, hact', hwords, hpage⟩
  · intro cpu tf e hcpu _ hanswer
    obtain ⟨p, k', hc, hk', henv, hother, -, -, hmem, -⟩ :=
      (Past.reached h).kept_of_answer hm ha hcpu hanswer
    have hafter : (k.syscall cpu tf).2 = k' := congrArg Prod.snd hk'
    rw [hafter]
    refine ⟨fun hcs => hother s fun heq => hcs (heq ▸ hc), fun hcs => ?_, hmem⟩
    obtain rfl : p = s := Option.some.inj (hc.symm.trans hcs)
    exact henv

end Laws

/-- A call made on the first CPU. -/
def callOf (c : Call) (a : Args) : Action := .syscall 0 (TrapFrame.user.calling c.number a)

/-- On the first CPU an environment makes a child and lets it run. -/
def withChild : List Action :=
  [.create [0x7f] 0, .schedule 0, callOf .exofork {},
    callOf .envSetStatus { first := 0x1001, second := 2 }, callOf .yieldCpu {}, .schedule 0]

/-- A child asks for a message and a page with it, and its parent sends it both. -/
theorem Past.no_message_is_lost_page :
    ∃ (l : List (Deed (State Frames) Action)) (k : State Frames) (d : Deed (State Frames) Action)
      (older : List (Deed (State Frames) Action)), Past .perCpu 1 ({} : Frames) l k ∧
      Valid ({} : Frames) ∧ Accounted ({} : Frames) ∧ (k.env 1).status ≠ .free ∧
      lifetime 1 l = d :: older ∧ d.sendsTo 1 = true ∧ (k.env 1).inbox.words = ⟨0x1000, 42, 7⟩ ∧
      ∃ cpu tf sender asked cpu' tf', d.act = .syscall cpu tf ∧
        older.find? (·.asksAt 1) = some asked ∧ asked.act = .syscall cpu' tf' ∧
        (k.env 1).inbox.words = d.before.message sender tf.args tf'.args.first.toNat := by
  have hm : Valid ({} : Frames) := ⟨.nil, nofun⟩
  have ha : Accounted ({} : Frames) := ⟨nofun, nofun⟩
  obtain ⟨l, k, h, hseen⟩ := exists_past .perCpu 1 ({} : Frames)
    (withChild ++ [callOf .ipcRecv { first := 0xa00000 }, .schedule 0,
      callOf .pageAlloc { second := 0x400000, third := 7 },
      callOf .ipcTrySend { first := 0x1001, second := 42, third := 0x400000, fourth := 7 }])
    (fun l k => (decide ((k.env 1).status = .free), (k.env 1).inbox.words,
      (lifetime 1 l).map (·.sendsTo 1)))
    (b := (false, ⟨0x1000, 42, 7⟩, [true, false, false, false, false, false, false]))
    (by decide +kernel)
  simp only [Prod.mk.injEq, decide_eq_false_iff_not] at hseen
  obtain ⟨hs, hwords, hsends⟩ := hseen
  obtain ⟨d, older, hlife, hd, -⟩ := List.map_eq_cons_iff.1 hsends
  obtain ⟨-, -, -, hlast, -⟩ := h.no_message_is_lost hm ha 1 hs
  obtain ⟨cpu, tf, sender, asked, cpu', tf', hact, -, hfind, hasked, hleft, -⟩ :=
    hlast [] d older hlife hd nofun
  exact ⟨l, k, d, older, h, hm, ha, hs, hlife, hd, hwords, cpu, tf, sender, asked, cpu', tf', hact,
    hfind, hasked, hleft⟩

end State

end Exokernel
