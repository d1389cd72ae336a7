import Mathlib.Data.Nat.Bitwise
import Exokernel.Proofs.Mappings
/-!
# Pages that several environments have mapped

Environments share pages, and what keeps them apart is that a page that is mapped at more than one
place may be written at none of them. The rule has three exceptions: the page a fault handler has
made stands at the scratch address and at the address it is made for; and a page may be written by
its parent and be mapped in the child as long as the fork has not come round to it, or has given up.
In all of them the environment is not writing but in the middle of something, so each of them has a
`Phase`. `Safe` is the rule, with what each phase has found out (`Fits`), and `Faithful` is what
keeping it is for: the environments read what they would read if each had its pages to itself. Two
changes keep the rule, an environment that goes on to another phase (`Safe.goes`) and a page that
goes to an address or leaves one (`Safe.put`).
-/

namespace Exokernel

/-! ## Permissions -/

namespace Perm

/-- A flag is a single bit, which a permission has or has not. -/
theorem and_flag (w : UInt32) (i : Nat) (flag : UInt32) (h : flag.toNat = 2 ^ i) :
    w &&& flag = 0 ∨ w &&& flag = flag := by
  rw [← UInt32.toNat_inj, ← UInt32.toNat_inj, UInt32.toNat_and, h, Nat.and_two_pow]
  cases w.toNat.testBit i <;> simp

/-- A page that is written or copied has one of the two flags. -/
theorem intersects_write_copyOnWrite (p : Perm) : p.intersects (write ||| copyOnWrite) =
    (p.contains write || p.contains copyOnWrite) := by
  have hboth : p.bits &&& (0x802 : UInt32) = p.bits &&& 0x2 ||| p.bits &&& 0x800 := by
    rw [← UInt32.toBitVec_inj]
    exact BitVec.and_or_distrib_left (x := p.bits.toBitVec) (y := 0x2) (z := 0x800)
  have hsides : p.intersects (write ||| copyOnWrite) = (p.bits &&& 0x802 != 0) := rfl
  have hw : p.contains write = (p.bits &&& 0x2 == 0x2) := rfl
  have hc : p.contains copyOnWrite = (p.bits &&& 0x800 == 0x800) := rfl
  rw [hsides, hw, hc, hboth]
  rcases and_flag p.bits 1 0x2 rfl with h | h <;> rcases and_flag p.bits 11 0x800 rfl with h' | h' <;>
    rw [h, h'] <;> rfl

end Perm

namespace User

/-- **A shared page is never mapped for writing.** -/
theorem contains_write_sharedPerm (p : Perm) : (sharedPerm p).contains Perm.write = false := by
  unfold sharedPerm
  split <;> rfl

theorem contains_userRead_sharedPerm (p : Perm) :
    (sharedPerm p).contains Perm.userRead = true := by
  unfold sharedPerm
  split <;> rfl

/-- A shared page is copied when it is written if it could be written before. -/
theorem contains_copyOnWrite_sharedPerm (p : Perm) : (sharedPerm p).contains Perm.copyOnWrite =
    p.intersects (Perm.write ||| Perm.copyOnWrite) := by
  unfold sharedPerm
  cases p.intersects (Perm.write ||| Perm.copyOnWrite) <;> rfl

theorem intersects_sharedPerm (p : Perm) :
    (sharedPerm p).intersects (Perm.write ||| Perm.copyOnWrite) =
      p.intersects (Perm.write ||| Perm.copyOnWrite) := by
  rw [Perm.intersects_write_copyOnWrite, contains_write_sharedPerm, contains_copyOnWrite_sharedPerm,
    Bool.false_or]

end User

/-! ## Phases -/

/-- Where an environment stands in making a child or in handling a fault. -/
inductive Phase where
  | alone
  /-- Everything below an address is shared with the child. -/
  | walks (child : EnvId) (va : Nat)
  /-- A page was found at the address. -/
  | sees (child : EnvId) (va : Nat) (mapped : Perm)
  /-- The page is shared with the child, and is to be mapped anew in the parent. -/
  | reshares (child : EnvId) (va : Nat) (mapped : Perm)
  /-- The child has everything it is to share. -/
  | completes (child : EnvId)
  /-- The child is given up. -/
  | discards (child : EnvId)
  /-- The child can run. -/
  | started (child : EnvId)
  /-- A page that may not be written is to be. -/
  | faults (va : Nat)
  /-- The page is one that is copied. -/
  | supplies (va : Nat)
  /-- There is a new page at the scratch address. -/
  | copies (va : Nat)
  /-- The new page is a copy. -/
  | moves (va : Nat)
  /-- The copy has taken the place of the page. -/
  | clears (va : Nat)
  /-- The page may be written. -/
  | writes (va : Nat)
  /-- The page is one that may not be written. -/
  | refuses (va : Nat)
  /-- A call was refused that is never refused. -/
  | never

namespace Phase

/-- The child that is being made. -/
def child : Phase → Option EnvId
  | walks id _ | sees id _ _ | reshares id _ _ | completes id | discards id => some id
  | _ => none

/-- A page is mapped at the scratch address. -/
def scratches : Phase → Bool
  | copies _ | moves _ | clears _ => true
  | _ => false

/-- A page that may be written at `va` of slot `s` may be mapped at `va'` of slot `t` as well. -/
def Excuses (s : Slot) (va : Nat) (t : Slot) (va' : Nat) : Phase → Prop
  | clears v => t = s ∧ (va = Layout.scratchPage ∧ va' = v ∨ va = v ∧ va' = Layout.scratchPage)
  | discards id => t = id.slot ∧ va' = va
  | reshares id v _ => t = id.slot ∧ va' = va ∧ va = v
  | _ => False

/-- What follows once a page is shared: it is mapped anew in the parent if either could write it. -/
def afterShare (id : EnvId) (va : Nat) (mapped : Perm) : Phase :=
  if mapped.intersects (Perm.write ||| Perm.copyOnWrite) then reshares id va mapped
  else walks id (va + Layout.pageSize)

theorem child_afterShare (id : EnvId) (va : Nat) (mapped : Perm) :
    (afterShare id va mapped).child = some id := by
  unfold afterShare
  split <;> rfl

/-- One environment goes on to a phase. -/
def moved (phase : Slot → Phase) (s : Slot) (φ : Phase) : Slot → Phase :=
  fun t => if t = s then φ else phase t

@[simp] theorem moved_self (phase : Slot → Phase) (s : Slot) : moved phase s (phase s) = phase := by
  funext t
  unfold moved
  split
  · next ht => rw [ht]
  · rfl

end Phase

/-- Two environments map the same page at an address, or none, and neither may write it. -/
inductive Twin : Option (PhysPage × Perm) → Option (PhysPage × Perm) → Prop
  | none : Twin none none
  | some {page : PhysPage} {p q : Perm} : p.contains Perm.write = false →
      q.contains Perm.write = false → q.contains Perm.copyOnWrite = p.contains Perm.copyOnWrite →
      Twin (some (page, p)) (some (page, q))

/-- What environments have mapped and where each of them stands. The environments that are `own` have
been started, and the others are children that have not. -/
structure Sharing where
  maps : Mappings
  bytes : Contents
  phase : Slot → Phase
  own : Slot → Prop

namespace Sharing

/-- Below an address the child has what its parent has. -/
def Twins (x : Sharing) (s t : Slot) (va : Nat) : Prop :=
  ∀ u, u % Layout.pageSize = 0 → u < va → Twin (x.maps s u) (x.maps t u)

/-- The child has nothing from an address on. -/
def Bare (x : Sharing) (t : Slot) (va : Nat) : Prop := ∀ u, va ≤ u → x.maps t u = none

/-- The address of a page that a fault can be about. -/
def PageAddress (va : Nat) : Prop :=
  va % Layout.pageSize = 0 ∧ va < Layout.stackTop ∧ va ≠ Layout.scratchPage

/-- The page at an address may not be written, and is copied when it is. -/
def Shared (x : Sharing) (s : Slot) (va : Nat) (page : PhysPage) : Prop :=
  ∃ p, x.maps s va = some (page, p) ∧ p.contains Perm.copyOnWrite = true ∧
    p.contains Perm.write = false

/-- What the environment of a slot has found out in a phase. -/
def Fits (x : Sharing) (s : Slot) : Phase → Prop
  | .alone | .started _ | .discards _ => True
  | .walks id va => va % Layout.pageSize = 0 ∧ x.Twins s id.slot va ∧ x.Bare id.slot va
  | .sees id va mapped => va % Layout.pageSize = 0 ∧ va < Layout.stackTop ∧
      x.Twins s id.slot va ∧ x.Bare id.slot va ∧ ∃ page, x.maps s va = some (page, mapped)
  | .reshares id va mapped => va % Layout.pageSize = 0 ∧ va < Layout.stackTop ∧
      x.Twins s id.slot va ∧ x.Bare id.slot (va + 1) ∧
      mapped.intersects (Perm.write ||| Perm.copyOnWrite) = true ∧
      ∃ page, x.maps s va = some (page, mapped) ∧
        x.maps id.slot va = some (page, User.sharedPerm mapped)
  | .completes id => x.Twins s id.slot Layout.stackTop
  | .faults va => PageAddress va ∧
      ∀ page p, x.maps s va = some (page, p) → p.contains Perm.write = false
  | .supplies va => PageAddress va ∧ ∃ page, x.Shared s va page
  | .copies va => PageAddress va ∧ (∃ page, x.Shared s va page) ∧
      ∃ new, x.maps s Layout.scratchPage = some (new, Perm.userWrite)
  | .moves va => PageAddress va ∧ ∃ page new, x.Shared s va page ∧
      x.maps s Layout.scratchPage = some (new, Perm.userWrite) ∧ x.bytes new = x.bytes page
  | .clears va => PageAddress va ∧ ∃ new, x.maps s va = some (new, Perm.userWrite) ∧
      x.maps s Layout.scratchPage = some (new, Perm.userWrite)
  | .writes va => PageAddress va ∧ ∃ new, x.maps s va = some (new, Perm.userWrite)
  | .refuses va => PageAddress va ∧ ∀ page p, x.maps s va = some (page, p) →
      p.intersects (Perm.write ||| Perm.copyOnWrite) = false
  | .never => False

/-- **Where a page may be written, it is mapped nowhere else**, but for the exceptions of a phase. -/
structure Safe (x : Sharing) : Prop where
  readable : ∀ s va page p, x.maps s va = some (page, p) → p.contains Perm.userRead = true
  exclusive : ∀ s va t va' page p q, x.maps s va = some (page, p) →
    p.contains Perm.write = true → x.maps t va' = some (page, q) →
    (t = s ∧ va' = va) ∨ (x.phase s).Excuses s va t va'
  scratch : ∀ s, (x.phase s).scratches = false → x.maps s Layout.scratchPage = none
  /-- A child that was not started does nothing. -/
  idle : ∀ s, ¬ x.own s → x.phase s = .alone
  kin : ∀ s id, (x.phase s).child = some id → ¬ x.own id.slot
  /-- Every child has one parent. -/
  apart : ∀ s t id id', (x.phase s).child = some id → (x.phase t).child = some id' →
    id.slot = id'.slot → s = t
  fits : ∀ s, x.Fits s (x.phase s)

/-- The byte an environment has at an address, and whether it may write it. -/
def cell (x : Sharing) (s : Slot) (va : Nat) : Option (UInt8 × Bool) :=
  (x.maps s (pageOf va)).map fun e =>
    (x.bytes e.1 (va % Layout.pageSize), e.2.intersects (Perm.write ||| Perm.copyOnWrite))

/-- **Every environment reads what it would read without sharing.** -/
def Faithful (x : Sharing) (c : Copying) : Prop :=
  ∀ s, x.own s → ∀ va, Ordinary va → x.cell s va = c.cell s va

/-- An environment goes on to a phase. -/
def goes (x : Sharing) (s : Slot) (φ : Phase) : Sharing :=
  { x with phase := Phase.moved x.phase s φ }

/-- A page is mapped, or unmapped. -/
def put (x : Sharing) (t : Slot) (va : Nat) (e : Option (PhysPage × Perm)) : Sharing :=
  { x with maps := x.maps.put t va e }

/-- An environment has nothing mapped any more. -/
def drop (x : Sharing) (t : Slot) : Sharing := { x with maps := x.maps.drop t }

/-- An environment is started. -/
def start (x : Sharing) (t : Slot) : Sharing := { x with own := fun u => u = t ∨ x.own u }

/-- The pages have other bytes. -/
def fill (x : Sharing) (bytes : Contents) : Sharing := { x with bytes := bytes }

variable {x x' : Sharing} {s t : Slot} {φ : Phase} {va : Nat}

@[simp] theorem phase_goes : (x.goes s φ).phase t = if t = s then φ else x.phase t := rfl

@[simp] theorem maps_goes : (x.goes s φ).maps = x.maps := rfl

@[simp] theorem bytes_goes : (x.goes s φ).bytes = x.bytes := rfl

@[simp] theorem maps_put {e : Option (PhysPage × Perm)} {u : Slot} {w : Nat} :
    (x.put t va e).maps u w = if u = t ∧ w = va then e else x.maps u w := rfl

@[simp] theorem bytes_put {e : Option (PhysPage × Perm)} : (x.put t va e).bytes = x.bytes := rfl

@[simp] theorem bytes_fill {c : Contents} : (x.fill c).bytes = c := rfl

@[simp] theorem phase_drop : (x.drop t).phase = x.phase := rfl

@[simp] theorem phase_start : (x.start t).phase = x.phase := rfl

/-- What an environment has found out depends on what it and its child have mapped, and on what is in
the pages it has mapped. -/
theorem Fits.congr (h : x.Fits s φ) (hself : x'.maps s = x.maps s)
    (hchild : ∀ id, φ.child = some id → x'.maps id.slot = x.maps id.slot)
    (hbytes : ∀ va page p, x.maps s va = some (page, p) → x'.bytes page = x.bytes page) :
    x'.Fits s φ := by
  cases φ with
  | moves va =>
    obtain ⟨hva, page, new, hshared, hnew, heq⟩ := h
    refine ⟨hva, page, new, ?_, hself ▸ hnew, ?_⟩
    · simpa only [Shared, hself] using hshared
    · obtain ⟨p, hp, -⟩ := hshared
      rw [hbytes _ _ _ hnew, hbytes _ _ _ hp, heq]
  | walks id | sees id | reshares id | completes id =>
    have := hchild id rfl
    simp only [Fits, Twins, Bare, hself, this] at h ⊢
    exact h
  | _ =>
    simp only [Fits, Shared, hself] at h ⊢
    try exact h

namespace Safe

variable {id : EnvId}

/-- A child that is being made is nobody's yet but its parent's. -/
def Claims (x : Sharing) (s : Slot) (φ : Phase) : Prop :=
  ∀ id, φ.child = some id → ¬ x.own id.slot ∧
    ∀ t id', t ≠ s → (x.phase t).child = some id' → id'.slot ≠ id.slot

/-- The child a phase has been about may go on to be what it is about. -/
theorem claims (h : Safe x) (hchild : ∀ id, φ.child = some id → (x.phase s).child = some id) :
    Claims x s φ := fun id hid =>
  ⟨h.kin s id (hchild id hid), fun t id' hne hid' heq =>
    hne (h.apart t s id' id hid' (hchild id hid) heq)⟩

/-- What an environment has found out in its phase. -/
theorem fits_phase (h : Safe x) (hφ : x.phase s = φ) : x.Fits s φ := hφ ▸ h.fits s

/-- Whoever is started is nobody's child. -/
theorem child_ne (h : Safe x) (hs : x.own s) (hid : (x.phase t).child = some id) : id.slot ≠ s := by
  rintro rfl
  exact h.kin t id hid hs

/-- No other phase excuses anything that concerns an environment that is started. -/
theorem not_excuses (h : Safe x) (hs : x.own s) (hne : t ≠ s) {va va' : Nat} :
    ¬ (x.phase t).Excuses t va s va' := by
  intro hex
  cases hφ : x.phase t with
  | clears v => rw [hφ] at hex; exact hne hex.1.symm
  | discards id => rw [hφ] at hex; exact h.child_ne hs (by rw [hφ]; rfl) hex.1.symm
  | reshares id => rw [hφ] at hex; exact h.child_ne hs (by rw [hφ]; rfl) hex.1.symm
  | _ => rw [hφ] at hex; exact hex

/-- What another environment has found out stays true, when only an environment and its child map
other pages, and only pages that others do not have get other bytes. -/
theorem fits_other (h : Safe x) (hs : x.own s)
    (hmaps : ∀ u, u ≠ s → (∀ id, (x.phase s).child = some id → u ≠ id.slot) → x'.maps u = x.maps u)
    (hbytes : ∀ u va page p, u ≠ s → x.maps u va = some (page, p) → x'.bytes page = x.bytes page)
    (ht : t ≠ s) : x'.Fits t (x.phase t) := by
  by_cases hchild : ∃ id, (x.phase s).child = some id ∧ t = id.slot
  · obtain ⟨id, hid, rfl⟩ := hchild
    rw [h.idle _ (h.kin s id hid)]
    trivial
  · have hnot : ∀ id, (x.phase s).child = some id → t ≠ id.slot := fun id hid heq =>
      hchild ⟨id, hid, heq⟩
    refine (h.fits t).congr (hmaps t ht hnot) (fun id hid => hmaps _ (h.child_ne hs hid) ?_)
      fun va page p hp => hbytes t va page p ht hp
    intro id' hid' heq
    exact ht (h.apart t s id id' hid hid' heq)

theorem idle_goes (h : Safe x) (hs : x.own s) (ht : ¬ x.own t) : (x.goes s φ).phase t = .alone := by
  rw [phase_goes, if_neg]
  · exact h.idle t ht
  · rintro rfl
    exact ht hs

theorem kin_goes (h : Safe x) (hclaims : Claims x s φ) (hid : ((x.goes s φ).phase t).child = some id) :
    ¬ x.own id.slot := by
  rw [phase_goes] at hid
  split at hid
  · exact (hclaims id hid).1
  · exact h.kin t id hid

theorem apart_goes (h : Safe x) (hclaims : Claims x s φ) {u : Slot} {id' : EnvId}
    (hid : ((x.goes s φ).phase t).child = some id) (hid' : ((x.goes s φ).phase u).child = some id')
    (heq : id.slot = id'.slot) : t = u := by
  rw [phase_goes] at hid hid'
  split at hid
  · next ht =>
    split at hid'
    · next hu => exact ht.trans hu.symm
    · next hu => exact absurd heq.symm ((hclaims id hid).2 u id' hu hid')
  · next ht =>
    split at hid'
    · exact absurd heq ((hclaims id' hid').2 t id ht hid)
    · exact h.apart t u id id' hid hid' heq

theorem excuses_goes {u u' : Slot} {v v' : Nat}
    (hexcuses : (x.phase s).Excuses s v u' v' → φ.Excuses s v u' v')
    (hex : (x.phase u).Excuses u v u' v') : ((x.goes s φ).phase u).Excuses u v u' v' := by
  rw [phase_goes]
  split
  · next hu => subst hu; exact hexcuses hex
  · exact hex

theorem scratches_goes (hscratch : (x.phase s).scratches = true → φ.scratches = true)
    (ht : ((x.goes s φ).phase t).scratches = false) : (x.phase t).scratches = false := by
  rw [phase_goes] at ht
  split at ht
  · next hts =>
    subst hts
    exact Bool.eq_false_iff.2 fun hold => by rw [hscratch hold] at ht; cases ht
  · exact ht

/-- **An environment goes on to another phase**, and pages that others do not have get other bytes. -/
theorem goes (h : Safe x) (hs : x.own s) (bytes : Contents)
    (hbytes : ∀ u va page p, u ≠ s → x.maps u va = some (page, p) → bytes page = x.bytes page)
    (hclaims : Claims x s φ) (hscratch : (x.phase s).scratches = true → φ.scratches = true)
    (hexcuses : ∀ va t va', (x.phase s).Excuses s va t va' → φ.Excuses s va t va')
    (hfits : ((x.fill bytes).goes s φ).Fits s φ) : Safe ((x.fill bytes).goes s φ) where
  readable := h.readable
  exclusive t va u va' page p q hp hw hq :=
    (h.exclusive t va u va' page p q hp hw hq).imp_right fun hex =>
      excuses_goes (hexcuses va u va') hex
  scratch t ht := h.scratch t (scratches_goes hscratch ht)
  idle t ht := h.idle_goes hs ht
  kin t id hid := h.kin_goes hclaims hid
  apart t u id id' hid hid' heq := h.apart_goes hclaims hid hid' heq
  fits t := by
    rw [phase_goes]
    split
    · next ht => exact ht ▸ hfits
    · next ht => exact h.fits_other hs (fun _ _ _ => rfl) hbytes ht

end Safe

/-! ## A page at an address -/

/-- **What may be put at an address** by an environment on the way to another phase: a page, or nothing. -/
structure Puts (x : Sharing) (s : Slot) (φ : Phase) (t : Slot) (va : Nat)
    (e : Option (PhysPage × Perm)) : Prop where
  /-- It is the environment's own address or its child's. -/
  place : t = s ∨ ∃ id, (x.phase s).child = some id ∧ t = id.slot
  readable : ∀ page p, e = some (page, p) → p.contains Perm.userRead = true
  /-- Whoever has done with the scratch address clears it. -/
  clears : φ.scratches = false → (x.phase s).scratches = true →
    t = s ∧ va = Layout.scratchPage ∧ e = none
  scratch : va = Layout.scratchPage → e = none ∨ t = s ∧ φ.scratches = true
  /-- What was excused still is, elsewhere. -/
  excuses : ∀ v u v' page p, (x.phase s).Excuses s v u v' → ¬ (s = t ∧ v = va) →
    ¬ (u = t ∧ v' = va) → x.maps u v' = some (page, p) → φ.Excuses s v u v'
  /-- A page that may be written here is mapped nowhere else but where the new phase excuses it. -/
  writes : ∀ page p, e = some (page, p) → p.contains Perm.write = true →
    ∀ u v q, x.maps u v = some (page, q) → ¬ (u = t ∧ v = va) → t = s ∧ φ.Excuses s va u v
  written : ∀ page p, e = some (page, p) → ∀ u v q, x.maps u v = some (page, q) →
    q.contains Perm.write = true → ¬ (u = t ∧ v = va) → u = s ∧ φ.Excuses s v t va

namespace Safe

variable {e : Option (PhysPage × Perm)}

theorem exclusive_put (h : Safe x) (hputs : x.Puts s φ t va e) {u u' : Slot} {v v' : Nat}
    {page : PhysPage} {p q : Perm} (hp : (x.put t va e).maps u v = some (page, p))
    (hw : p.contains Perm.write = true) (hq : (x.put t va e).maps u' v' = some (page, q)) :
    (u' = u ∧ v' = v) ∨ ((x.goes s φ).phase u).Excuses u v u' v' := by
  rw [maps_put] at hp hq
  split at hp
  · next hnew =>
    obtain ⟨rfl, rfl⟩ := hnew
    split at hq
    · next hnew' => exact .inl hnew'
    · next hold' =>
      obtain ⟨rfl, hex⟩ := hputs.writes page p hp hw u' v' q hq hold'
      rw [phase_goes, if_pos rfl]
      exact .inr hex
  · next hold =>
    split at hq
    · next hnew' =>
      obtain ⟨rfl, rfl⟩ := hnew'
      obtain ⟨rfl, hex⟩ := hputs.written page q hq u v p hp hw hold
      rw [phase_goes, if_pos rfl]
      exact .inr hex
    · next hold' =>
      refine (h.exclusive u v u' v' page p q hp hw hq).imp_right fun hex => ?_
      by_cases hu : u = s
      · subst hu
        exact excuses_goes (fun hex => hputs.excuses v u' v' page q hex hold hold' hq) hex
      · rw [phase_goes, if_neg hu]
        exact hex

theorem scratch_put (h : Safe x) (hputs : x.Puts s φ t va e) {u : Slot}
    (hu : ((x.goes s φ).phase u).scratches = false) :
    (x.put t va e).maps u Layout.scratchPage = none := by
  rw [maps_put]
  rw [phase_goes] at hu
  split
  · next hnew =>
    obtain ⟨rfl, rfl⟩ := hnew
    rcases hputs.scratch rfl with he | ⟨rfl, hφ⟩
    · exact he
    · rw [if_pos rfl, hφ] at hu
      cases hu
  · next hold =>
    refine h.scratch u ?_
    split at hu
    · next hus =>
      subst hus
      refine Bool.eq_false_iff.2 fun hold' => hold ?_
      obtain ⟨rfl, rfl, -⟩ := hputs.clears hu hold'
      exact ⟨rfl, rfl⟩
    · exact hu

/-- **A page is mapped or unmapped** on the way to another phase. -/
theorem put (h : Safe x) (hs : x.own s) (hclaims : Claims x s φ) (hputs : x.Puts s φ t va e)
    (hfits : ((x.put t va e).goes s φ).Fits s φ) : Safe ((x.put t va e).goes s φ) where
  readable u v page p hp := by
    rw [maps_goes, maps_put] at hp
    split at hp
    · exact hputs.readable page p hp
    · exact h.readable u v page p hp
  exclusive u v u' v' page p q hp hw hq := h.exclusive_put hputs hp hw hq
  scratch u hu := h.scratch_put hputs hu
  idle u hu := h.idle_goes hs hu
  kin u id hid := h.kin_goes hclaims hid
  apart u u' id id' hid hid' heq := h.apart_goes hclaims hid hid' heq
  fits u := by
    rw [phase_goes]
    split
    · next hu => exact hu ▸ hfits
    · next hu =>
      refine h.fits_other hs (fun w hw hnot => ?_) (fun _ _ _ _ _ _ => rfl) hu
      have hne : w ≠ t := by
        rintro rfl
        rcases hputs.place with rfl | ⟨id, hid, rfl⟩
        · exact hw rfl
        · exact hnot id hid rfl
      funext v
      rw [maps_goes, maps_put, if_neg fun heq => hne heq.1]

end Safe

end Sharing

end Exokernel
