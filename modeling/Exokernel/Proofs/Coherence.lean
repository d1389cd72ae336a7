import Exokernel.Proofs.Descent
import Exokernel.Proofs.Obedience
import Exokernel.Proofs.Refusals
import Exokernel.Proofs.Remapping
/-!
# What the kernel makes of the phases

A state of the kernel, with the bytes of its pages and the phase of each environment, is a `Sharing`
(`State.sharing`). `Coherent` says that it is safe and that environments read in it what a `Copying`
holds. A call that is asked for in a phase, performed or refused, leaves what is coherent in the next
phase: a child that is being made can be named by its parent, and a page that is taken is mapped
nowhere.
-/

namespace Exokernel

open MemoryView PageView Memory Sharing

/-! ## The words of a call -/

/-- An address a user environment may map fits into a word. -/
theorem toNat_addressWord {va : Nat} (h : va < Layout.userTop) :
    (Syscalls.addressWord va).toNat = va :=
  UInt32.toNat_ofNat_of_lt' (Nat.lt_trans h (by decide))

/-- A page that a user environment may map, as a word names it. -/
theorem isUserPage_addressWord {va : Nat} (hva : va % Layout.pageSize = 0)
    (hlt : va < Layout.userTop) : isUserPage (Syscalls.addressWord va).toNat = true := by
  rw [toNat_addressWord hlt, isUserPage, Bool.and_eq_true]
  exact ⟨decide_eq_true hlt, beq_iff_eq.2 hva⟩

theorem EnvId.ofRaw?_raw (id : EnvId) : EnvId.ofRaw? id.raw = some id := dif_pos id.raw_ne_zero

theorem User.ofUser?_sharedPerm (p : Perm) :
    Perm.ofUser? (User.sharedPerm p).bits = some (User.sharedPerm p) := by
  unfold User.sharedPerm
  split <;> decide

theorem ofUser?_userWrite : Perm.ofUser? Perm.userWrite.bits = some Perm.userWrite := by decide

/-- User code can write to what it can read, if it is there to be written. -/
theorem Perm.contains_userWrite {p : Perm} (h : p.contains userRead = true) :
    p.contains userWrite = p.contains write := by
  have hboth : p.bits &&& (0x7 : UInt32) = p.bits &&& 0x2 ||| p.bits &&& 0x5 := by
    rw [← UInt32.toBitVec_inj]
    exact BitVec.and_or_distrib_left (x := p.bits.toBitVec) (y := 0x2) (z := 0x5)
  have hread : p.bits &&& 0x5 = 0x5 := beq_iff_eq.1 h
  have hw : p.contains userWrite = (p.bits &&& 0x7 == 0x7) := rfl
  have hw' : p.contains write = (p.bits &&& 0x2 == 0x2) := rfl
  rw [hw, hw', hboth, hread]
  rcases and_flag p.bits 1 0x2 rfl with h | h <;> rw [h] <;> rfl

namespace Phase

/-- The child that the fork has let run. -/
def begun : Phase → Option EnvId
  | started id => some id
  | _ => none

/-- A fault is being handled. -/
def handles : Phase → Bool
  | faults _ | supplies _ | copies _ | moves _ | clears _ | writes _ | refuses _ | never => true
  | _ => false

theorem begun_afterShare (id : EnvId) (va : Nat) (mapped : Perm) :
    (afterShare id va mapped).begun = none := by
  unfold afterShare
  split <;> rfl

end Phase

/-- The sharing that a state of the kernel amounts to. Started are those that can run. -/
def State.sharing {M : Type} [Memory M] (k : State M) (contents : Contents)
    (phase : Slot → Phase) : Sharing where
  maps := k.mapping
  bytes := contents
  phase := phase
  own s := (k.env s).status.canRun = true

/-- The child of a slot's environment waits to be started. -/
structure State.Raises {M : Type} (k : State M) (s : Slot) (id : EnvId) : Prop where
  waits : (k.env id.slot).status = .notRunnable
  name : (k.env id.slot).lastId = some id
  parent : (k.env id.slot).parent = (k.env s).lastId

variable {M : Type} [Memory M]

/-- **The environments read what the copying says**, in a state of the kernel. -/
structure Coherent (policy : Policy) (ncpu : Nat) (m₀ : M) (k : State M) (contents : Contents)
    (phase : Slot → Phase) (c : Copying) : Prop where
  reached : State.Reached policy ncpu m₀ k
  safe : Safe (k.sharing contents phase)
  faithful : Faithful (k.sharing contents phase) c
  kin : ∀ s id, (phase s).child = some id → k.Raises s id
  begun : ∀ s, c.child s = (phase s).begun.map EnvId.slot

namespace State

variable {policy : Policy} {ncpu : Nat} {m₀ : M} {k k' : State M} {s : Slot}

/-- What is reached has a history. -/
theorem Reached.exists_past (h : Reached policy ncpu m₀ k) : ∃ l, Past policy ncpu m₀ l k := by
  induction h with
  | init hinit => exact ⟨[], .start hinit⟩
  | step _ ha hk ih =>
    obtain ⟨l, hl⟩ := ih
    exact ⟨_, hl.step ⟨ha, hk⟩⟩

/-- Whoever is there goes by an identifier. -/
theorem Reached.exists_id (h : Reached policy ncpu m₀ k) (hs : (k.env s).status ≠ .free) :
    ∃ id, (k.env s).id = some id := by
  obtain ⟨l, hl⟩ := h.exists_past
  obtain ⟨n, hn⟩ := Nat.exists_eq_succ_of_ne_zero (Past.takings_pos hl hs).ne'
  rw [Env.id_of_not_free hs, Past.lastId hl, hn]
  exact ⟨_, rfl⟩

/-- Nobody who could not run can now, and nobody is stopped. -/
theorem sharing_eq {contents : Contents} {phase : Slot → Phase} {maps : Mappings}
    (hmaps : k'.mapping = maps)
    (hruns : ∀ u, (k'.env u).status.canRun = (k.env u).status.canRun) :
    k'.sharing contents phase = { k.sharing contents phase with maps := maps } := by
  simp only [sharing, hmaps, hruns]

omit [Memory M] in
/-- What a waiting child is known by stays as it is. -/
theorem Raises.congr {id : EnvId} (h : k.Raises s id) (hs : (k'.env s).lastId = (k.env s).lastId)
    (hchild : Env.Same (k.env id.slot) (k'.env id.slot)) : k'.Raises s id :=
  ⟨hchild.status.trans h.waits, hchild.lastId.trans h.name,
    hchild.parent.trans (h.parent.trans hs.symm)⟩

/-- **A parent can name its child.** -/
theorem Raises.resolve {id : EnvId} {cpu : Nat} (h : k.Raises s id)
    (hreached : Reached policy ncpu m₀ k) (hcur : k.current cpu = some s)
    (hfree : (k.env s).status ≠ .free) : k.resolve cpu id.raw true = .ok id.slot := by
  obtain ⟨caller, hcaller⟩ := hreached.exists_id hfree
  have hname : (k.env id.slot).id = some id :=
    Env.id_eq_some_iff.2 ⟨by rw [h.waits]; exact nofun, h.name⟩
  have hparent : (k.env id.slot).parent = some caller := by
    rw [h.parent, ← Env.id_of_not_free hfree, hcaller]
  have hreaches : k.reaches caller 2 id = true :=
    reaches_succ_iff.2 (.inr ⟨hname, caller, hparent, reaches_succ_iff.2 (.inl rfl)⟩)
  exact resolve_eq_ok_iff.2 (.inr ⟨id, rfl, rfl, hname, by rw [h.waits]; exact nofun, fun _ =>
    isSelfOrDescendant_iff.2 ⟨s, caller, hcur, hcaller, reaches_mono (by decide) hreaches⟩⟩)

end State

namespace Coherent

open State

variable {policy : Policy} {ncpu cpu : Nat} {m₀ : M} {k k' : State M}
  {contents contents' : Contents} {phase : Slot → Phase} {c : Copying} {s t : Slot} {id : EnvId}
  {a : Args} {φ φ₁ φ₂ : Phase} {call : Call}

/-- What runs is started. -/
theorem own_of_runs (hruns : k.Runs ncpu cpu s) (contents : Contents) (phase : Slot → Phase) :
    (k.sharing contents phase).own s := by
  change (k.env s).status.canRun = true
  rw [hruns.2.2]
  rfl

/-- Whoever has a child is started. -/
theorem own_of_child (h : Coherent policy ncpu m₀ k contents phase c)
    (hid : (phase s).child = some id) : (k.sharing contents phase).own s := by
  by_contra hnot
  have hidle : phase s = .alone := h.safe.idle s hnot
  rw [hidle] at hid
  cases hid

theorem resolve_child (h : Coherent policy ncpu m₀ k contents phase c)
    (hcur : k.current cpu = some s) (hid : (phase s).child = some id) :
    k.resolve cpu id.raw true = .ok id.slot :=
  (h.kin s id hid).resolve h.reached hcur (Status.ne_free_of_canRun (h.own_of_child hid))

omit [Memory M] in
/-- The caller is whom it means by 0. -/
theorem eq_of_resolve_zero (hruns : k.Runs ncpu cpu s) (ht : k.resolve cpu 0 true = .ok t) : t = s := by
  cases (resolve_zero hruns.2.1 true).symm.trans ht
  rfl

theorem eq_of_resolve_child (h : Coherent policy ncpu m₀ k contents phase c)
    (hruns : k.Runs ncpu cpu s) (hid : (phase s).child = some id)
    (ht : k.resolve cpu id.raw true = .ok t) : t = id.slot := by
  cases (h.resolve_child hruns.2.1 hid).symm.trans ht
  rfl

/-- **One environment goes on**, and every slot keeps its occupant and its state. -/
theorem advance (h : Coherent policy ncpu m₀ k contents phase c)
    (hreached : Reached policy ncpu m₀ k') {w : UInt32}
    (hanswers : Answers k k' s w fun _ => False) {maps : Mappings} (hmaps : k'.mapping = maps)
    {c' : Copying}
    (hsafe : Safe (({ k.sharing contents' phase with maps := maps } : Sharing).goes s φ))
    (hfaithful : Faithful { k.sharing contents' phase with maps := maps } c')
    (hchild : ∀ id, φ.child = some id → (phase s).child = some id)
    (hbegun : c'.child s = φ.begun.map EnvId.slot) (hothers : ∀ u, u ≠ s → c'.child u = c.child u) :
    Coherent policy ncpu m₀ k' contents' (Phase.moved phase s φ) c' := by
  have hsame := fun u => hanswers.same u not_false
  have heq : k'.sharing contents' (Phase.moved phase s φ) =
      ({ k.sharing contents' phase with maps := maps } : Sharing).goes s φ :=
    sharing_eq hmaps fun u => congrArg Status.canRun (hsame u).status
  refine ⟨hreached, heq ▸ hsafe, fun u hu => ?_, fun u id hid => ?_, fun u => ?_⟩
  · rw [heq] at hu ⊢
    exact hfaithful u hu
  · have hid' : (phase u).child = some id := by
      unfold Phase.moved at hid
      split at hid
      · next hus => exact hus ▸ hchild id hid
      · exact hid
    exact (h.kin u id hid').congr (hsame u).lastId (hsame id.slot)
  · unfold Phase.moved
    split
    · next hus => exact hus ▸ hbegun
    · next hus => rw [hothers u hus, h.begun u]

/-- The same, where the copying stays as it is. -/
theorem goes (h : Coherent policy ncpu m₀ k contents phase c) (hreached : Reached policy ncpu m₀ k')
    {w : UInt32} (hanswers : Answers k k' s w fun _ => False) {maps : Mappings}
    (hmaps : k'.mapping = maps)
    (hsafe : Safe (({ k.sharing contents' phase with maps := maps } : Sharing).goes s φ))
    (hfaithful : Faithful { k.sharing contents' phase with maps := maps } c)
    (hchild : ∀ id, φ.child = some id → (phase s).child = some id)
    (hbegun : φ.begun = (phase s).begun) :
    Coherent policy ncpu m₀ k' contents' (Phase.moved phase s φ) c :=
  h.advance hreached hanswers hmaps hsafe hfaithful hchild (by rw [h.begun s, hbegun]) fun _ _ => rfl

section Memory

variable [MemoryView M] [LawfulMemory M]

/-- What is in pages that nobody has mapped does not matter. -/
theorem refill (h : Coherent policy ncpu m₀ k contents phase c) (hm : Valid m₀)
    (hcontents : ∀ page, Mapped k.memory page → contents' page = contents page) :
    Coherent policy ncpu m₀ k contents' phase c := by
  have hbytes : ∀ u va page p, (k.sharing contents phase).maps u va = some (page, p) →
      contents' page = contents page := by
    intro u va page p hpage
    refine hcontents page ?_
    by_cases hu : (k.env u).status = .free
    · cases (mapping_of_free hu).symm.trans hpage
    · exact (h.reached.housed hm).mapped hu ((mapping_eq_lookup hu).symm.trans hpage)
  exact ⟨h.reached, h.safe.fill hbytes, h.faithful.fill fun u v page p _ _ => hbytes u _ page p, h.kin,
    h.begun⟩

/-- **Who is dying goes away**, and nobody misses it. -/
theorem gone [PageView M] [FiniteMap M] (h : Coherent policy ncpu m₀ k contents phase c)
    (hm : Valid m₀) (hreached : Reached policy ncpu m₀ (k.free s))
    (hdying : (k.env s).status = .dying) : Coherent policy ncpu m₀ (k.free s) contents phase c := by
  have hthere : (k.env s).status ≠ .free := by rw [hdying]; exact nofun
  have hnot : ¬ (k.sharing contents phase).own s := by
    change ¬ (k.env s).status.canRun = true
    rw [hdying]
    exact nofun
  have hkin : ∀ u id, (phase u).child = some id → id.slot ≠ s := by
    rintro u id hid rfl
    have hwaits := (h.kin u id hid).waits
    rw [hdying] at hwaits
    cases hwaits
  have henv := fun u => env_free k s (t := u)
  have hruns : ∀ u, ((k.free s).env u).status.canRun = (k.env u).status.canRun := by
    intro u
    rw [henv]
    split
    · next hu => rw [hu, hdying]; rfl
    · rfl
  have hmaps := (h.reached.housed hm).mapping_free hthere
  have heq : (k.free s).sharing contents phase = (k.sharing contents phase).drop s :=
    sharing_eq hmaps hruns
  refine ⟨hreached, heq ▸ h.safe.drop hnot hkin, heq ▸ h.faithful.drop hnot, fun u id hid => ?_,
    h.begun⟩
  have hus : u ≠ s := by
    rintro rfl
    exact hnot (h.own_of_child hid)
  refine (h.kin u id hid).congr ?_ ?_
  · rw [henv, if_neg hus]
  · rw [henv, if_neg (hkin u id hid)]
    exact ⟨rfl, rfl, rfl, rfl⟩

end Memory

/-! ## Each call -/

/-- **A call that is performed** leads to the phase it should. -/
theorem performed (h : Coherent policy ncpu m₀ k contents phase c) (hruns : k.Runs ncpu cpu s)
    (hreached : Reached policy ncpu m₀ k') (hasks : Asks (phase s) call a φ₁ φ₂)
    (hcall : call ≠ .envSetStatus) (hremaps : Remaps k cpu s a call k') :
    Coherent policy ncpu m₀ k' contents (Phase.moved phase s φ₁) c := by
  have hown := own_of_runs hruns contents phase
  have hword : ∀ {va}, va < Layout.stackTop → (Syscalls.addressWord va).toNat = va := fun hva =>
    toNat_addressWord (Nat.lt_trans hva (by decide))
  have hsafe := h.safe
  have hfaithful := h.faithful
  generalize hφ : phase s = φ₀ at hasks
  have hx : (k.sharing contents phase).phase s = φ₀ := hφ
  have hfits := hsafe.fits_phase hx
  cases hasks with
  | ownStack =>
    obtain ⟨ht, hperm, hnew, hmaps, hanswers⟩ := hremaps
    obtain rfl := eq_of_resolve_zero hruns ht
    cases ofUser?_userWrite.symm.trans hperm
    exact h.goes hreached hanswers hmaps (hsafe.ownStack hown hx hnew)
      (hfaithful.put_aside fun v _ hv => pageOf_ne hv (by decide)) nofun (by rw [hφ])
  | ownUpcall =>
    obtain _ | _ | _ | _ | _ | ⟨hmaps, hanswers⟩ := hremaps
    exact h.goes hreached hanswers hmaps
      (hsafe.turn hown nofun (by rw [hx]; nofun) (by rw [hx]; exact fun _ _ _ hex => hex) trivial)
      hfaithful nofun (by rw [hφ])
  | share id va mapped =>
    obtain ⟨-, hva, -⟩ := hfits
    have hid : (phase s).child = some id := by rw [hφ]; rfl
    obtain _ | ⟨hsrc, hdst, hperm, hpage, hmaps, hanswers⟩ := hremaps
    obtain rfl := eq_of_resolve_zero hruns hsrc
    obtain rfl := h.eq_of_resolve_child hruns hid hdst
    cases (User.ofUser?_sharedPerm mapped).symm.trans hperm
    simp only [hword hva] at hpage hmaps
    refine h.goes hreached hanswers hmaps (hsafe.share hown hx hpage)
      (hfaithful.put_aside fun v hnot => absurd hnot (hsafe.kin _ _ hid)) ?_ ?_
    · rw [hid, Phase.child_afterShare]
      exact fun _ hid' => hid'
    · rw [hφ, Phase.begun_afterShare]
      rfl
  | reshare id va mapped =>
    obtain ⟨-, hva, -, -, -, page', hpage', -⟩ := hfits
    obtain _ | ⟨hsrc, hdst, hperm, hpage, hmaps, hanswers⟩ := hremaps
    obtain rfl := eq_of_resolve_zero hruns hsrc
    obtain rfl := eq_of_resolve_zero hruns hdst
    cases (User.ofUser?_sharedPerm mapped).symm.trans hperm
    simp only [hword hva] at hpage hmaps
    cases hpage.symm.trans hpage'
    exact h.goes hreached hanswers hmaps (hsafe.reshare hown hx hpage)
      (hfaithful.reshare hpage) (fun _ hid => by rw [hφ]; exact hid) (by rw [hφ]; rfl)
  | @childStack id va hva =>
    have hid : (phase s).child = some id := by rw [hφ]; rfl
    obtain ⟨ht, hperm, hnew, hmaps, hanswers⟩ := hremaps
    obtain rfl := h.eq_of_resolve_child hruns hid ht
    cases ofUser?_userWrite.symm.trans hperm
    exact h.goes hreached hanswers hmaps (hsafe.childStack hown hx hva hnew)
      (hfaithful.put_aside fun v hnot => absurd hnot (hsafe.kin _ _ hid))
      (fun _ hid' => by rw [hφ]; exact hid') (by rw [hφ]; rfl)
  | childUpcall id =>
    obtain _ | _ | _ | _ | _ | ⟨hmaps, hanswers⟩ := hremaps
    exact h.goes hreached hanswers hmaps
      (hsafe.turn hown (by rw [hx]; exact fun _ hid => hid) (by rw [hx]; nofun)
        (by rw [hx]; exact fun _ _ _ hex => hex) hfits)
      hfaithful (by rw [hφ]; exact fun _ hid => hid) (by rw [hφ])
  | start => exact absurd rfl hcall
  | discard => nomatch hremaps
  | supply va =>
    obtain ⟨ht, hperm, hnew, hmaps, hanswers⟩ := hremaps
    obtain rfl := eq_of_resolve_zero hruns ht
    cases ofUser?_userWrite.symm.trans hperm
    exact h.goes hreached hanswers hmaps (hsafe.supply hown hx hnew)
      (hfaithful.put_aside fun v _ hv => hv.2) nofun (by rw [hφ]; rfl)
  | move va =>
    obtain ⟨⟨-, hva, -⟩, -⟩ := hfits
    obtain _ | ⟨hsrc, hdst, hperm, hpage, hmaps, hanswers⟩ := hremaps
    obtain rfl := eq_of_resolve_zero hruns hsrc
    obtain rfl := eq_of_resolve_zero hruns hdst
    cases ofUser?_userWrite.symm.trans hperm
    simp only [hword hva] at hmaps
    exact h.goes hreached hanswers hmaps (hsafe.move hown hx hpage) (hfaithful.move hsafe hx hpage)
      nofun (by rw [hφ]; rfl)
  | clear va =>
    obtain _ | _ | ⟨ht, hmaps, hanswers⟩ := hremaps
    obtain rfl := eq_of_resolve_zero hruns ht
    exact h.goes hreached hanswers hmaps (hsafe.clear hown hx)
      (hfaithful.put_aside fun v _ hv => hv.2) nofun (by rw [hφ]; rfl)

/-- Other children go on waiting, whatever becomes of one that is not among them. -/
theorem raises_of_ne (h : Coherent policy ncpu m₀ k contents phase c) {w : UInt32} {u : Slot}
    (hanswers : Answers k k' s w (· = t)) (ht : ¬ (k.sharing contents phase).own t)
    (hid : (phase u).child = some id) (hne : id.slot ≠ t) : k'.Raises u id := by
  have hut : u ≠ t := by
    rintro rfl
    exact ht (h.own_of_child hid)
  exact (h.kin u id hid).congr (hanswers.same u hut).lastId (hanswers.same _ hne)

/-- A waiting child is not started. -/
theorem not_own (h : Coherent policy ncpu m₀ k contents phase c) (hid : (phase s).child = some id) :
    ¬ (k.sharing contents phase).own id.slot :=
  h.safe.kin s id hid

/-- **The child is started.** -/
theorem started (h : Coherent policy ncpu m₀ k contents phase c) (hruns : k.Runs ncpu cpu s)
    (hreached : Reached policy ncpu m₀ k') (hφ : phase s = .completes id)
    (hremaps : Remaps k cpu s { first := id.raw, second := Status.runnable.number } .envSetStatus k') :
    Coherent policy ncpu m₀ k' contents (Phase.moved phase s (.started id)) (c.copy s id.slot) ∧
      ∀ u, k.Wakes k' u ↔ u = id.slot := by
  have hown := own_of_runs hruns contents phase
  have hid : (phase s).child = some id := by rw [hφ]; rfl
  have hnot := h.not_own hid
  obtain _ | _ | _ | _ | ⟨hst, ht, hstatus, -, hmaps, hanswers⟩ := hremaps
  obtain rfl := h.eq_of_resolve_child hruns hid ht
  obtain rfl : Status.runnable = _ := Option.some.inj hst
  have hruns' : ∀ u, (k'.env u).status.canRun = true ↔
      u = id.slot ∨ (k.env u).status.canRun = true := by
    intro u
    by_cases hu : u = id.slot
    · simp only [hu, hstatus, true_or, iff_true]
      rfl
    · simp only [hu, (hanswers.same u hu).status, false_or]
  have heq : k'.sharing contents (Phase.moved phase s (.started id)) =
      ((k.sharing contents phase).start id.slot).goes s (.started id) := by
    unfold sharing Sharing.start Sharing.goes
    simp only [hmaps, hruns']
  refine ⟨⟨hreached, heq ▸ h.safe.start hown hφ, ?_, fun u id' hid' => ?_, fun u => ?_⟩, fun u => ?_⟩
  · rw [heq]
    exact h.faithful.start h.safe hown hφ
  · unfold Phase.moved at hid'
    split at hid'
    · cases hid'
    · next hu =>
      exact h.raises_of_ne hanswers hnot hid' fun heq => hu (h.safe.apart u s id' id hid' hid heq)
  · change (if u = s then some id.slot else c.child u) = _
    unfold Phase.moved
    split
    · rfl
    · exact h.begun u
  · unfold Wakes
    rw [hruns' u]
    constructor
    · rintro ⟨hu, heq | hold⟩
      · exact heq
      · exact absurd hold hu
    · rintro rfl
      exact ⟨hnot, .inl rfl⟩

/-- **The child is destroyed.** -/
theorem discarded (h : Coherent policy ncpu m₀ k contents phase c) (hruns : k.Runs ncpu cpu s)
    (hreached : Reached policy ncpu m₀ k') (hφ : phase s = .discards id)
    (hmaps : k'.mapping = k.mapping.drop id.slot) {w : UInt32}
    (hanswers : Answers k k' s w (· = id.slot)) (hfree : (k'.env id.slot).status = .free) :
    Coherent policy ncpu m₀ k' contents (Phase.moved phase s .alone) c := by
  have hown := own_of_runs hruns contents phase
  have hid : (phase s).child = some id := by rw [hφ]; rfl
  have hnot := h.not_own hid
  have hruns' : ∀ u, (k'.env u).status.canRun = (k.env u).status.canRun := by
    intro u
    by_cases hu : u = id.slot
    · rw [hu, hfree]
      exact (Bool.eq_false_iff.2 hnot).symm
    · rw [(hanswers.same u hu).status]
  have heq : k'.sharing contents (Phase.moved phase s .alone) =
      ((k.sharing contents phase).drop id.slot).goes s .alone := sharing_eq hmaps hruns'
  refine ⟨hreached, heq ▸ h.safe.discard hown hφ, ?_, fun u id' hid' => ?_, fun u => ?_⟩
  · rw [heq]
    exact h.faithful.drop hnot
  · unfold Phase.moved at hid'
    split at hid'
    · cases hid'
    · next hu =>
      exact h.raises_of_ne hanswers hnot hid' fun heq => hu (h.safe.apart u s id' id hid' hid heq)
  · rw [h.begun u]
    unfold Phase.moved
    split
    · next hu => rw [hu, hφ]; rfl
    · rfl

/-- **A child is made.** -/
theorem made (h : Coherent policy ncpu m₀ k contents phase c) (hruns : k.Runs ncpu cpu s)
    (hreached : Reached policy ncpu m₀ k') (hφ : phase s = .alone)
    (hfree : (k.env id.slot).status = .free) (hmaps : k'.mapping = k.mapping)
    {w : UInt32} (hanswers : Answers k k' s w (· = id.slot))
    (hwaits : (k'.env id.slot).status = .notRunnable) (hname : (k'.env id.slot).id = some id)
    (hparent : (k'.env id.slot).parent = (k.env s).id) :
    Coherent policy ncpu m₀ k' contents (Phase.moved phase s (.walks id 0)) c := by
  have hown := own_of_runs hruns contents phase
  have hnot : ¬ (k.sharing contents phase).own id.slot := by
    change ¬ (k.env id.slot).status.canRun = true
    rw [hfree]
    exact nofun
  have hruns' : ∀ u, (k'.env u).status.canRun = (k.env u).status.canRun := by
    intro u
    by_cases hu : u = id.slot
    · rw [hu, hwaits, hfree]
      rfl
    · rw [(hanswers.same u hu).status]
  have hkin : ∀ u id', (phase u).child = some id' → id'.slot ≠ id.slot := by
    intro u id' hid' heq
    have hwaits := (h.kin u id' hid').waits
    rw [heq, hfree] at hwaits
    cases hwaits
  have heq : k'.sharing contents (Phase.moved phase s (.walks id 0)) =
      (k.sharing contents phase).goes s (.walks id 0) := sharing_eq hmaps hruns'
  refine ⟨hreached, heq ▸ h.safe.bear hown hφ hnot hkin fun v => mapping_of_free hfree, ?_,
    fun u id' hid' => ?_, fun u => ?_⟩
  · rw [heq]
    exact h.faithful
  · unfold Phase.moved at hid'
    split at hid'
    · next hu =>
      cases hid'
      have hne : u ≠ id.slot := by
        rintro rfl
        exact hnot (hu ▸ hown)
      have hthere : (k.env s).status ≠ .free := Status.ne_free_of_canRun hown
      refine ⟨hwaits, (Env.id_eq_some_iff.1 hname).2, ?_⟩
      rw [hparent, Env.id_of_not_free hthere, (hanswers.same u hne).lastId, hu]
    · exact h.raises_of_ne hanswers hnot hid' (hkin u id' hid')
  · rw [h.begun u]
    unfold Phase.moved
    split
    · next hu => rw [hu, hφ]; rfl
    · rfl

/-- **A call that is refused** leads to the phase it should. -/
theorem denied (h : Coherent policy ncpu m₀ k contents phase c) (hruns : k.Runs ncpu cpu s)
    (hreached : Reached policy ncpu m₀ k') (hasks : Asks (phase s) call a φ₁ φ₂) (hφ₂ : φ₂ ≠ .never)
    (hmaps : k'.mapping = k.mapping) {w : UInt32} (hanswers : Answers k k' s w fun _ => False) :
    Coherent policy ncpu m₀ k' contents (Phase.moved phase s φ₂) c := by
  have hown := own_of_runs hruns contents phase
  generalize hφ : phase s = φ₀ at hasks
  have hx : (k.sharing contents phase).phase s = φ₀ := hφ
  have hturn : ∀ {φ}, Safe ((k.sharing contents phase).goes s φ) →
      (∀ id, φ.child = some id → φ₀.child = some id) → φ.begun = φ₀.begun →
      Coherent policy ncpu m₀ k' contents (Phase.moved phase s φ) c := fun hsafe hchild hbegun =>
    h.goes hreached hanswers hmaps hsafe h.faithful (hφ ▸ hchild) (hφ ▸ hbegun)
  cases hasks with
  | ownStack | ownUpcall =>
    exact hturn (h.safe.turn hown nofun (by rw [hx]; nofun) (by rw [hx]; exact fun _ _ _ hex => hex)
      trivial) nofun rfl
  | share | childStack | childUpcall | start =>
    exact hturn (h.safe.turn hown (by rw [hx]; exact fun _ hid => hid) (by rw [hx]; nofun)
      (by rw [hx]; exact fun _ _ _ hex => hex.elim) trivial) (fun _ hid => hid) rfl
  | reshare =>
    exact hturn (h.safe.turn hown (by rw [hx]; exact fun _ hid => hid) (by rw [hx]; nofun)
      (by rw [hx]; exact fun _ _ _ hex => ⟨hex.1, hex.2.1⟩) trivial) (fun _ hid => hid) rfl
  | discard | supply | move | clear => exact absurd rfl hφ₂

end Coherent

end Exokernel
