import Exokernel.Proofs.Sharing
/-!
# What is done to shared pages

A fork shares a page with the child and shares it again with the parent, in that order; a fault
handler has a page made, copied, put in the place of the old one and taken from the scratch address;
and an environment that is in neither writes. Each of them keeps the rule for shared pages (`Safe`),
and each of them but the write keeps what the environments read (`Faithful`). The write changes what
one environment reads at one address: the page it goes to is mapped nowhere else.
-/

namespace Exokernel

namespace Sharing

variable {x x' : Sharing} {s t : Slot} {φ : Phase} {va : Nat}

/-! ## The walk through the parent's pages -/

theorem Twins.snoc {t : Slot} (h : x.Twins s t va) (hva : va % Layout.pageSize = 0)
    (htwin : Twin (x.maps s va) (x.maps t va)) : x.Twins s t (va + Layout.pageSize) := by
  intro u hu hlt
  have hcases : u < va ∨ u = va := by
    simp only [Layout.pageSize] at *
    omega
  rcases hcases with hbelow | rfl
  · exact h u hu hbelow
  · exact htwin

theorem Bare.mono {t : Slot} {va' : Nat} (h : x.Bare t va) (hle : va ≤ va') : x.Bare t va' :=
  fun u hu => h u (Nat.le_trans hle hu)

/-- Where no page table is, nothing is shared until the next one. -/
theorem Twins.skip {t : Slot} (h : x.Twins s t va) (hbare : x.Bare t va)
    (hnone : ∀ u, u / Layout.tableSpan = va / Layout.tableSpan → x.maps s u = none) :
    x.Twins s t (User.nextTable va) := by
  intro u hu hlt
  rcases Nat.lt_or_ge u va with hbelow | hge
  · exact h u hu hbelow
  · have hspan : u / Layout.tableSpan = va / Layout.tableSpan := by
      simp only [User.nextTable, Layout.tableSpan, Layout.pageSize] at *
      omega
    rw [hnone u hspan, hbare u hge]
    exact .none

theorem add_pageSize_mod (hva : va % Layout.pageSize = 0) :
    (va + Layout.pageSize) % Layout.pageSize = 0 := by
  rw [Nat.add_mod_right]
  exact hva

theorem nextTable_mod (va : Nat) : User.nextTable va % Layout.pageSize = 0 := by
  simp only [User.nextTable, Layout.tableSpan, Layout.pageSize]
  omega

/-! ## Each move -/

namespace Safe

variable {id : EnvId} {c : Copying} {page : PhysPage} {p mapped : Perm}

/-- Pages that nobody has get other bytes. -/
theorem fill (h : Safe x) {bytes : Contents}
    (hbytes : ∀ u va page p, x.maps u va = some (page, p) → bytes page = x.bytes page) :
    Safe (x.fill bytes) :=
  ⟨h.readable, h.exclusive, h.scratch, h.idle, h.kin, h.apart, fun u =>
    (h.fits u).congr rfl (fun _ _ => rfl) (hbytes u)⟩

/-- An environment goes on to another phase, and nothing else changes. -/
theorem turn (h : Safe x) (hs : x.own s)
    (hchild : ∀ id, φ.child = some id → (x.phase s).child = some id)
    (hscratch : (x.phase s).scratches = true → φ.scratches = true)
    (hexcuses : ∀ va t va', (x.phase s).Excuses s va t va' → φ.Excuses s va t va')
    (hfits : x.Fits s φ) : Safe (x.goes s φ) :=
  h.goes hs x.bytes (fun _ _ _ _ _ _ => rfl) (h.claims hchild) hscratch hexcuses
    (hfits.congr rfl (fun _ _ => rfl) fun _ _ _ _ => rfl)

/-- Who may write a page has it for its own. -/
theorem alone_of_writable (h : Safe x) (hφ : ∀ v u v', ¬ (x.phase s).Excuses s v u v')
    (hpage : x.maps s va = some (page, p)) (hwrite : p.contains Perm.write = true) {u : Slot}
    {v : Nat} {q : Perm} (hq : x.maps u v = some (page, q)) : u = s ∧ v = va :=
  (h.exclusive s va u v page p q hpage hwrite hq).resolve_right (hφ _ _ _)

/-- Nobody but an environment that is started may write the pages it has. -/
theorem eq_of_written (h : Safe x) (hs : x.own s) (hpage : x.maps s va = some (page, p)) {u : Slot}
    {v : Nat} {q : Perm} (hq : x.maps u v = some (page, q)) (hwrite : q.contains Perm.write = true) :
    u = s ∧ (v = va ∨ (x.phase s).Excuses s v s va) := by
  rcases h.exclusive u v s va page q p hq hwrite hpage with ⟨rfl, rfl⟩ | hex
  · exact ⟨rfl, .inl rfl⟩
  · by_cases hu : u = s
    · exact ⟨hu, .inr (hu ▸ hex)⟩
    · exact absurd hex (h.not_excuses hs hu)

/-- The scratch address is no page of the walk. -/
theorem ne_scratchPage (h : Safe x) (hφ : (x.phase s).scratches = false)
    (hpage : x.maps s va = some (page, p)) : va ≠ Layout.scratchPage := by
  rintro rfl
  cases (h.scratch s hφ).symm.trans hpage

/-- **A page that nobody has is mapped for writing.** -/
theorem fresh (h : Safe x) (hs : x.own s) (hnew : ∀ u v p, x.maps u v ≠ some (page, p))
    (ht : t = s ∨ ∃ id, (x.phase s).child = some id ∧ t = id.slot)
    (hchild : ∀ id, φ.child = some id → (x.phase s).child = some id)
    (hscratch : (x.phase s).scratches = false) (hput : va = Layout.scratchPage → t = s ∧ φ.scratches = true)
    (hexcuses : ∀ v u v', ¬ (x.phase s).Excuses s v u v')
    (hfits : ((x.put t va (some (page, Perm.userWrite))).goes s φ).Fits s φ) :
    Safe ((x.put t va (some (page, Perm.userWrite))).goes s φ) := by
  refine h.put hs (h.claims hchild) ?_ hfits
  exact {
    place := ht
    readable := by rintro _ _ ⟨⟩; rfl
    clears := fun _ hold => by cases hscratch.symm.trans hold
    scratch := fun hva => .inr (hput hva)
    excuses := fun v u v' _ _ hex => absurd hex (hexcuses v u v')
    writes := by
      rintro _ _ ⟨⟩ - u v q hq
      exact absurd hq (hnew u v q)
    written := by
      rintro _ _ ⟨⟩ u v q hq
      exact absurd hq (hnew u v q) }

/-- The exception stack of an environment is its own. -/
theorem ownStack (h : Safe x) (hs : x.own s) (hφ : x.phase s = .alone)
    (hnew : ∀ u v p, x.maps u v ≠ some (page, p)) :
    Safe ((x.put s Layout.exceptionStack (some (page, Perm.userWrite))).goes s .alone) :=
  h.fresh hs hnew (.inl rfl) nofun (by rw [hφ]; rfl) (fun hva => absurd hva (by decide))
    (by rw [hφ]; exact fun _ _ _ hex => hex) trivial

/-- The exception stack of a child is its own. -/
theorem childStack (h : Safe x) (hs : x.own s) (hφ : x.phase s = .walks id va)
    (hva : Layout.stackTop ≤ va) (hnew : ∀ u v p, x.maps u v ≠ some (page, p)) :
    Safe ((x.put id.slot Layout.exceptionStack (some (page, Perm.userWrite))).goes s
      (.completes id)) := by
  have hchild : (x.phase s).child = some id := by rw [hφ]; rfl
  obtain ⟨-, htwins, -⟩ := h.fits_phase hφ
  refine h.fresh hs hnew (.inr ⟨id, hchild, rfl⟩) (fun _ hid => by rw [hchild]; exact hid)
    (by rw [hφ]; rfl) (fun hva => absurd hva (by decide)) (by rw [hφ]; exact fun _ _ _ hex => hex)
    fun u hu hlt => ?_
  have hne : u ≠ Layout.exceptionStack := by
    rintro rfl
    exact absurd hlt (by decide)
  simp only [maps_goes, maps_put, hne, and_false, if_false]
  exact htwins u hu (Nat.lt_of_lt_of_le hlt hva)

/-- A handler has a new page at the scratch address. -/
theorem supply (h : Safe x) (hs : x.own s) (hφ : x.phase s = .supplies va)
    (hnew : ∀ u v p, x.maps u v ≠ some (page, p)) :
    Safe ((x.put s Layout.scratchPage (some (page, Perm.userWrite))).goes s (.copies va)) := by
  obtain ⟨hva, old, p, hp, hrights⟩ := h.fits_phase hφ
  refine h.fresh hs hnew (.inl rfl) nofun (by rw [hφ]; rfl) (fun _ => ⟨rfl, rfl⟩)
    (by rw [hφ]; exact fun _ _ _ hex => hex) ⟨hva, ⟨old, p, ?_, hrights⟩, page, ?_⟩
  · rw [maps_goes, maps_put, if_neg fun heq => hva.2.2 heq.2]
    exact hp
  · rw [maps_goes, maps_put, if_pos ⟨rfl, rfl⟩]

/-- A page that is shared is on the way to be written nowhere: in the child it may not be written, and
where its parent may, it is shared again. -/
theorem puts_share (h : Safe x) (hs : x.own s) (hφ : x.phase s = .sees id va mapped)
    (hpage : x.maps s va = some (page, mapped)) :
    x.Puts s (Phase.afterShare id va mapped) id.slot va (some (page, User.sharedPerm mapped)) where
  place := .inr ⟨id, by rw [hφ]; rfl, rfl⟩
  readable := by
    rintro _ _ ⟨⟩
    exact User.contains_userRead_sharedPerm _
  clears _ hold := by
    rw [hφ] at hold
    cases hold
  scratch heq := absurd heq (h.ne_scratchPage (by rw [hφ]; rfl) hpage)
  excuses _ _ _ _ _ hex := by
    rw [hφ] at hex
    exact hex.elim
  writes := by
    rintro _ _ ⟨⟩ hwrite
    cases (User.contains_write_sharedPerm mapped).symm.trans hwrite
  written := by
    rintro _ _ ⟨⟩ u v q hq hwrite -
    obtain ⟨rfl, rfl | hex⟩ := h.eq_of_written hs hpage hq hwrite
    · obtain rfl : mapped = q := (Prod.mk.inj (Option.some.inj (hpage.symm.trans hq))).2
      rw [Phase.afterShare, Perm.intersects_write_copyOnWrite, hwrite]
      exact ⟨rfl, rfl, rfl, rfl⟩
    · rw [hφ] at hex
      exact hex.elim

/-- The child has what its parent has up to the page that is shared, and the parent goes on with the
next one if nobody is to write this one. -/
theorem fits_share (hne : id.slot ≠ s) (hfits : x.Fits s (.sees id va mapped))
    (hpage : x.maps s va = some (page, mapped)) :
    (x.put id.slot va (some (page, User.sharedPerm mapped))).Fits s
      (Phase.afterShare id va mapped) := by
  obtain ⟨hva, hlt, htwins, hbare, -⟩ := hfits
  have hself : ∀ u, (x.put id.slot va (some (page, User.sharedPerm mapped))).maps s u = x.maps s u :=
    fun u => by rw [maps_put, if_neg fun heq => hne heq.1.symm]
  have hhere : (x.put id.slot va (some (page, User.sharedPerm mapped))).maps id.slot va =
      some (page, User.sharedPerm mapped) := by rw [maps_put, if_pos ⟨rfl, rfl⟩]
  have hothers : ∀ u, u ≠ va →
      (x.put id.slot va (some (page, User.sharedPerm mapped))).maps id.slot u = x.maps id.slot u :=
    fun u hu => by rw [maps_put, if_neg fun heq => hu heq.2]
  have htwins' : (x.put id.slot va (some (page, User.sharedPerm mapped))).Twins s id.slot va :=
    fun u hu hlt => by
      rw [hself, hothers u (Nat.ne_of_lt hlt)]
      exact htwins u hu hlt
  have hbare' : (x.put id.slot va (some (page, User.sharedPerm mapped))).Bare id.slot (va + 1) :=
    fun u hu => by
      rw [hothers u (Nat.ne_of_gt hu)]
      exact hbare u (Nat.le_of_lt hu)
  unfold Phase.afterShare
  split
  · next hcow =>
    exact ⟨hva, hlt, htwins', hbare', hcow, page, (hself va).trans hpage, hhere⟩
  · next hcow =>
    have hrights : mapped.contains Perm.write = false ∧ mapped.contains Perm.copyOnWrite = false := by
      rw [Perm.intersects_write_copyOnWrite] at hcow
      simpa using hcow
    have hcow' : (User.sharedPerm mapped).contains Perm.copyOnWrite =
        mapped.contains Perm.copyOnWrite := by
      rw [User.contains_copyOnWrite_sharedPerm, hrights.2]
      simpa using hcow
    refine ⟨add_pageSize_mod hva, htwins'.snoc hva ?_, hbare'.mono (Nat.add_le_add_left (by decide) va)⟩
    rw [hself, hpage, hhere]
    exact .some hrights.1 (User.contains_write_sharedPerm _) hcow'

/-- **A page is shared with the child**, where it may not be written. -/
theorem share (h : Safe x) (hs : x.own s) (hφ : x.phase s = .sees id va mapped)
    (hpage : x.maps s va = some (page, p)) :
    Safe ((x.put id.slot va (some (page, User.sharedPerm mapped))).goes s
      (Phase.afterShare id va mapped)) := by
  have hchild : (x.phase s).child = some id := by rw [hφ]; rfl
  have hfits := h.fits_phase hφ
  obtain rfl : p = mapped := by
    obtain ⟨-, -, -, -, page', hpage'⟩ := hfits
    exact (Prod.mk.inj (Option.some.inj (hpage.symm.trans hpage'))).2
  refine h.put hs (h.claims fun id' hid' => ?_) (h.puts_share hs hφ hpage)
    (fits_share (h.child_ne hs hchild) hfits hpage)
  rw [hchild, ← Phase.child_afterShare id va p, hid']

/-- Where a page is shared again, it may be written nowhere any more. -/
theorem puts_reshare (h : Safe x) (hs : x.own s) (hφ : x.phase s = .reshares id va mapped)
    (hpage : x.maps s va = some (page, mapped)) :
    x.Puts s (.walks id (va + Layout.pageSize)) s va (some (page, User.sharedPerm mapped)) where
  place := .inl rfl
  readable := by
    rintro _ _ ⟨⟩
    exact User.contains_userRead_sharedPerm _
  clears _ hold := by
    rw [hφ] at hold
    cases hold
  scratch heq := absurd heq (h.ne_scratchPage (by rw [hφ]; rfl) hpage)
  excuses := by
    rw [hφ]
    rintro v u v' page p ⟨-, -, rfl⟩ hnot
    exact absurd ⟨rfl, rfl⟩ hnot
  writes := by
    rintro _ _ ⟨⟩ hwrite
    cases (User.contains_write_sharedPerm mapped).symm.trans hwrite
  written := by
    rintro _ _ ⟨⟩ u v q hq hwrite hnot
    obtain ⟨rfl, rfl | hex⟩ := h.eq_of_written hs hpage hq hwrite
    · exact absurd ⟨rfl, rfl⟩ hnot
    · rw [hφ] at hex
      exact absurd hex.1.symm (h.child_ne hs (by rw [hφ]; rfl))

theorem fits_reshare (hne : id.slot ≠ s) (hfits : x.Fits s (.reshares id va mapped))
    (hpage : x.maps s va = some (page, mapped)) :
    (x.put s va (some (page, User.sharedPerm mapped))).Fits s (.walks id (va + Layout.pageSize)) := by
  obtain ⟨hva, -, htwins, hbare, -, page', hpage', hthere⟩ := hfits
  obtain ⟨rfl, -⟩ := Prod.mk.inj (Option.some.inj (hpage.symm.trans hpage'))
  have hothers : ∀ u, (x.put s va (some (page, User.sharedPerm mapped))).maps id.slot u =
      x.maps id.slot u := fun u => by rw [maps_put, if_neg fun heq => hne heq.1]
  refine ⟨add_pageSize_mod hva, Twins.snoc (fun u hu hlt => ?_) hva ?_, fun u hu => ?_⟩
  · rw [maps_put, if_neg fun heq => Nat.ne_of_lt hlt heq.2, hothers]
    exact htwins u hu hlt
  · rw [maps_put, if_pos ⟨rfl, rfl⟩, hothers, hthere]
    exact .some (User.contains_write_sharedPerm _) (User.contains_write_sharedPerm _) rfl
  · rw [hothers]
    exact hbare u (Nat.le_trans (Nat.add_le_add_left (by decide) va) hu)

/-- **The page is mapped anew in the parent**, where it may not be written either. -/
theorem reshare (h : Safe x) (hs : x.own s) (hφ : x.phase s = .reshares id va mapped)
    (hpage : x.maps s va = some (page, p)) :
    Safe ((x.put s va (some (page, User.sharedPerm mapped))).goes s
      (.walks id (va + Layout.pageSize))) := by
  have hchild : (x.phase s).child = some id := by rw [hφ]; rfl
  have hfits := h.fits_phase hφ
  obtain rfl : p = mapped := by
    obtain ⟨-, -, -, -, -, page', hpage', -⟩ := hfits
    exact (Prod.mk.inj (Option.some.inj (hpage.symm.trans hpage'))).2
  exact h.put hs (h.claims fun _ hid => hchild.trans hid) (h.puts_reshare hs hφ hpage)
    (fits_reshare (h.child_ne hs hchild) hfits hpage)

/-- **The page is copied.** Nobody else has the page that it is copied to. -/
theorem copy (h : Safe x) (hs : x.own s) (hφ : x.phase s = .copies va) {new : PhysPage} {q : Perm}
    (hpage : x.maps s va = some (page, p)) (hnew : x.maps s Layout.scratchPage = some (new, q)) :
    Safe ((x.fill (x.bytes.copy page new)).goes s (.moves va)) := by
  obtain ⟨hva, ⟨page', hshared⟩, new', hnew'⟩ := h.fits_phase hφ
  obtain ⟨rfl, rfl⟩ := Prod.mk.inj (Option.some.inj (hnew.symm.trans hnew'))
  obtain ⟨p', hp', hrights⟩ := hshared
  obtain ⟨rfl, rfl⟩ := Prod.mk.inj (Option.some.inj (hpage.symm.trans hp'))
  have halone : ∀ u v q, x.maps u v = some (new, q) → u = s ∧ v = Layout.scratchPage :=
    fun u v q => h.alone_of_writable (by rw [hφ]; exact fun _ _ _ hex => hex) hnew rfl
  have hne : page ≠ new := by
    rintro rfl
    exact hva.2.2 (halone s va p hpage).2
  refine h.goes hs _ (fun u v q r hu hq => ?_) (h.claims nofun) (fun _ => rfl) ?_ ?_
  · refine if_neg ?_
    rintro rfl
    exact hu (halone u v r hq).1
  · rw [hφ]
    exact fun _ _ _ hex => hex.elim
  · refine ⟨hva, page, new, ⟨p, hpage, hrights⟩, hnew, ?_⟩
    rw [bytes_goes, bytes_fill]
    simp only [Contents.copy, if_true, if_neg hne]

/-- **The copy takes the place of the page.** -/
theorem move (h : Safe x) (hs : x.own s) (hφ : x.phase s = .moves va) {new : PhysPage}
    (hnew : x.maps s Layout.scratchPage = some (new, p)) :
    Safe ((x.put s va (some (new, Perm.userWrite))).goes s (.clears va)) := by
  obtain ⟨hva, page, new', -, hnew', -⟩ := h.fits_phase hφ
  obtain ⟨rfl, rfl⟩ := Prod.mk.inj (Option.some.inj (hnew.symm.trans hnew'))
  have halone : ∀ u v q, x.maps u v = some (new, q) → u = s ∧ v = Layout.scratchPage :=
    fun u v q => h.alone_of_writable (by rw [hφ]; exact fun _ _ _ hex => hex) hnew rfl
  have hputs : x.Puts s (.clears va) s va (some (new, Perm.userWrite)) := {
    place := .inl rfl
    readable := by rintro _ _ ⟨⟩; rfl
    clears := nofun
    scratch := fun _ => .inr ⟨rfl, rfl⟩
    excuses := by
      rw [hφ]
      exact fun _ _ _ _ _ hex => hex.elim
    writes := by
      rintro _ _ ⟨⟩ - u v q hq -
      obtain ⟨rfl, rfl⟩ := halone u v q hq
      exact ⟨rfl, rfl, .inr ⟨rfl, rfl⟩⟩
    written := by
      rintro _ _ ⟨⟩ u v q hq - -
      obtain ⟨rfl, rfl⟩ := halone u v q hq
      exact ⟨rfl, rfl, .inl ⟨rfl, rfl⟩⟩ }
  refine h.put hs (h.claims nofun) hputs ⟨hva, new, ?_, ?_⟩
  · rw [maps_goes, maps_put, if_pos ⟨rfl, rfl⟩]
  · rw [maps_goes, maps_put, if_neg fun heq => hva.2.2 heq.2.symm]
    exact hnew

/-- **The scratch address is cleared.** -/
theorem clear (h : Safe x) (hs : x.own s) (hφ : x.phase s = .clears va) :
    Safe ((x.put s Layout.scratchPage none).goes s (.writes va)) := by
  obtain ⟨hva, new, hnew, -⟩ := h.fits_phase hφ
  have hputs : x.Puts s (.writes va) s Layout.scratchPage none := {
    place := .inl rfl
    readable := nofun
    clears := fun _ _ => ⟨rfl, rfl, rfl⟩
    scratch := fun _ => .inl rfl
    excuses := by
      rw [hφ]
      rintro v u v' page p ⟨rfl, ⟨rfl, rfl⟩ | ⟨rfl, rfl⟩⟩ hnot hnot' -
      · exact absurd ⟨rfl, rfl⟩ hnot
      · exact absurd ⟨rfl, rfl⟩ hnot'
    writes := nofun
    written := nofun }
  refine h.put hs (h.claims nofun) hputs ⟨hva, new, ?_⟩
  rw [maps_goes, maps_put, if_neg fun heq => hva.2.2 heq.2]
  exact hnew

/-- **A byte is written.** -/
theorem write (h : Safe x) (hs : x.own s) (hφ : x.phase s = .alone ∨ ∃ v, x.phase s = .writes v)
    (hpage : x.maps s va = some (page, p)) (hwrite : p.contains Perm.write = true) (i : Nat)
    (b : UInt8) : Safe ((x.fill (x.bytes.put page i b)).goes s .alone) := by
  have hexcuses : ∀ v u v', ¬ (x.phase s).Excuses s v u v' := by
    rcases hφ with hφ | ⟨_, hφ⟩ <;> · rw [hφ]; exact fun _ _ _ hex => hex
  refine h.goes hs _ (fun u v q r hu hq => ?_) (h.claims nofun) (fun hold => ?_) (fun v u v' hex => ?_)
    trivial
  · funext j
    refine if_neg ?_
    rintro ⟨rfl, -⟩
    exact hu (h.alone_of_writable hexcuses hpage hwrite hq).1
  · rcases hφ with hφ | ⟨_, hφ⟩ <;> · rw [hφ] at hold; cases hold
  · exact absurd hex (hexcuses v u v')

theorem maps_drop_eq_some {u : Slot} {v : Nat} {e : PhysPage × Perm}
    (he : (x.drop t).maps u v = some e) : u ≠ t ∧ x.maps u v = some e := by
  change (if u = t then none else x.maps u v) = some e at he
  split at he
  · cases he
  · next hne => exact ⟨hne, he⟩

/-- **An environment that waits for nobody is gone.** -/
theorem drop (h : Safe x) (ht : ¬ x.own t)
    (hkin : ∀ u id, (x.phase u).child = some id → id.slot ≠ t) : Safe (x.drop t) := by
  refine ⟨fun u v page p hp => ?_, fun u v u' v' page p q hp hw hq => ?_, fun u hu => ?_, h.idle, h.kin,
    h.apart, fun u => ?_⟩
  · exact h.readable u v page p (maps_drop_eq_some hp).2
  · exact h.exclusive u v u' v' page p q (maps_drop_eq_some hp).2 hw (maps_drop_eq_some hq).2
  · change (if u = t then none else x.maps u Layout.scratchPage) = none
    split
    · rfl
    · exact h.scratch u hu
  · by_cases hu : u = t
    · have hidle : (x.drop t).phase u = .alone := h.idle u (hu ▸ ht)
      rw [hidle]
      trivial
    · refine (h.fits u).congr ?_ (fun id hid => ?_) fun _ _ _ _ => rfl
      · funext v
        exact if_neg hu
      · funext v
        exact if_neg (hkin u id hid)

/-- **The child is destroyed.** -/
theorem discard (h : Safe x) (hs : x.own s) (hφ : x.phase s = .discards id) :
    Safe ((x.drop id.slot).goes s .alone) := by
  have hclaims : Claims x s .alone := h.claims nofun
  refine ⟨fun u v page p hp => ?_, fun u v u' v' page p q hp hw hq => ?_, fun u hu => ?_,
    fun u hu => h.idle_goes hs hu, fun u id hid => h.kin_goes hclaims hid,
    fun u u' id id' hid hid' heq => h.apart_goes hclaims hid hid' heq, fun u => ?_⟩
  · exact h.readable u v page p (maps_drop_eq_some hp).2
  · obtain ⟨-, hp⟩ := maps_drop_eq_some hp
    obtain ⟨hne, hq⟩ := maps_drop_eq_some hq
    refine (h.exclusive u v u' v' page p q hp hw hq).imp_right (excuses_goes fun hex => ?_)
    rw [phase_drop, hφ] at hex
    exact hne hex.1
  · change (if u = id.slot then none else x.maps u Layout.scratchPage) = none
    split
    · rfl
    · exact h.scratch u (scratches_goes (by rw [hφ]; exact nofun) hu)
  · rw [phase_goes]
    split
    · trivial
    · next hu =>
      refine h.fits_other hs (fun w _ hnot => ?_) (fun _ _ _ _ _ _ => rfl) hu
      funext v
      exact if_neg (hnot id (by rw [hφ]; rfl))

/-- **The child is started.** -/
theorem start (h : Safe x) (hs : x.own s) (hφ : x.phase s = .completes id) :
    Safe ((x.start id.slot).goes s (.started id)) := by
  have hchild : (x.phase s).child = some id := by rw [hφ]; rfl
  have hclaims : Claims x s (.started id) := h.claims nofun
  refine ⟨h.readable, fun u v u' v' page p q hp hw hq => ?_, fun u hu => ?_, fun u hu => ?_,
    fun u id' hid' => ?_, fun u u' id id' hid hid' heq => h.apart_goes hclaims hid hid' heq,
    fun u => ?_⟩
  · refine (h.exclusive u v u' v' page p q hp hw hq).imp_right (excuses_goes fun hex => ?_)
    rw [phase_start, hφ] at hex
    exact hex
  · exact h.scratch u (scratches_goes (by rw [hφ]; exact nofun) hu)
  · exact h.idle_goes hs fun hown => hu (.inr hown)
  · rintro (heq | hown)
    · rw [phase_goes] at hid'
      split at hid'
      · cases hid'
      · next hne => exact hne (h.apart u s id' id hid' hchild heq)
    · exact h.kin_goes hclaims hid' hown
  · rw [phase_goes]
    split
    · trivial
    · next hu => exact h.fits_other hs (fun _ _ _ => rfl) (fun _ _ _ _ _ _ => rfl) hu

/-- **An environment has a child to share its pages with**, which has nothing mapped yet. -/
theorem bear (h : Safe x) (hs : x.own s) (hφ : x.phase s = .alone) (hid : ¬ x.own id.slot)
    (hfree : ∀ t id', (x.phase t).child = some id' → id'.slot ≠ id.slot)
    (hbare : ∀ v, x.maps id.slot v = none) : Safe (x.goes s (.walks id 0)) := by
  refine h.goes hs x.bytes (fun _ _ _ _ _ _ => rfl) ?_ (by rw [hφ]; nofun)
    (by rw [hφ]; exact fun _ _ _ hex => hex.elim) ⟨rfl, fun u _ hu => by omega, fun u _ => hbare u⟩
  rintro id' ⟨rfl⟩
  exact ⟨hid, fun t id' _ hid' => hfree t id' hid'⟩

end Safe

/-! ## What the environments read -/

/-- The page of an address that is read and written. -/
theorem pageAddress_of_ordinary (h : Ordinary va) : PageAddress (pageOf va) := by
  obtain ⟨hlt, hscratch⟩ := h
  refine ⟨?_, Nat.lt_of_le_of_lt (Nat.sub_le _ _) hlt, hscratch⟩
  simp only [pageOf, Layout.pageSize]
  omega

/-- What is read lies below the end of the ordinary stack. -/
theorem pageOf_ne {v : Nat} (h : Ordinary v) (hva : Layout.stackTop ≤ va) : pageOf v ≠ va := by
  have hlt := (pageAddress_of_ordinary h).2.1
  omega

theorem cell_congr (hmap : x'.maps s (pageOf va) = x.maps s (pageOf va))
    (hbytes : ∀ page p, x.maps s (pageOf va) = some (page, p) → x'.bytes page = x.bytes page) :
    x'.cell s va = x.cell s va := by
  unfold cell
  rw [hmap]
  cases hpage : x.maps s (pageOf va) with
  | none => rfl
  | some e =>
    have := hbytes e.1 e.2 hpage
    simp only [Option.map_some, this]

/-- The byte and the right to write it, at an address where a page is mapped. -/
theorem cell_eq_some {page : PhysPage} {p : Perm} (h : x.maps s (pageOf va) = some (page, p)) :
    x.cell s va = some (x.bytes page (va % Layout.pageSize),
      p.intersects (Perm.write ||| Perm.copyOnWrite)) := by
  rw [cell, h]
  rfl

namespace Faithful

variable {id : EnvId} {c : Copying} {page : PhysPage} {p mapped : Perm}

/-- Pages get other bytes that nobody reads. -/
theorem fill (h : x.Faithful c) {bytes : Contents}
    (hbytes : ∀ u v page p, x.own u → Ordinary v → x.maps u (pageOf v) = some (page, p) →
      bytes page = x.bytes page) : (x.fill bytes).Faithful c := fun u hu v hv => by
  rw [← h u hu v hv]
  exact cell_congr rfl fun page p hp => hbytes u v page p hu hv hp

/-- A page is mapped where nobody reads. -/
theorem put_aside (h : x.Faithful c) {e : Option (PhysPage × Perm)}
    (haside : ∀ v, x.own t → Ordinary v → pageOf v ≠ va) : (x.put t va e).Faithful c :=
  fun u hu v hv => by
    rw [← h u hu v hv]
    refine cell_congr ?_ fun _ _ _ => rfl
    rw [maps_put, if_neg]
    rintro ⟨rfl, heq⟩
    exact haside v hu hv heq

/-- A page takes the place of one with the same bytes. -/
theorem put_like (h : x.Faithful c) {new : PhysPage} {q : Perm}
    (hpage : x.maps s va = some (page, p)) (hbytes : x.bytes new = x.bytes page)
    (hrights : q.intersects (Perm.write ||| Perm.copyOnWrite) =
      p.intersects (Perm.write ||| Perm.copyOnWrite)) :
    (x.put s va (some (new, q))).Faithful c := fun u hu v hv => by
  rw [← h u hu v hv]
  by_cases hhere : u = s ∧ pageOf v = va
  · obtain ⟨rfl, rfl⟩ := hhere
    have hnew : (x.put u (pageOf v) (some (new, q))).maps u (pageOf v) = some (new, q) := by
      rw [maps_put, if_pos ⟨rfl, rfl⟩]
    rw [cell_eq_some hnew, cell_eq_some hpage, bytes_put, hbytes, hrights]
  · refine cell_congr ?_ fun _ _ _ => rfl
    rw [maps_put, if_neg hhere]

theorem reshare (h : x.Faithful c) (hpage : x.maps s va = some (page, mapped)) :
    (x.put s va (some (page, User.sharedPerm mapped))).Faithful c :=
  h.put_like hpage rfl (User.intersects_sharedPerm mapped)

/-- **Nobody reads the page that is copied to.** -/
theorem copy (h : x.Faithful c) (hsafe : Safe x) (hφ : x.phase s = .copies va) {new : PhysPage}
    {q : Perm} (hnew : x.maps s Layout.scratchPage = some (new, q)) :
    (x.fill (x.bytes.copy page new)).Faithful c := by
  obtain ⟨-, -, new', hnew'⟩ := hsafe.fits_phase hφ
  obtain ⟨rfl, rfl⟩ := Prod.mk.inj (Option.some.inj (hnew.symm.trans hnew'))
  refine h.fill fun u v q r _ hv hq => if_neg ?_
  rintro rfl
  have hplace := hsafe.alone_of_writable (by rw [hφ]; exact fun _ _ _ hex => hex) hnew rfl hq
  exact hv.2 hplace.2

theorem move (h : x.Faithful c) (hsafe : Safe x) (hφ : x.phase s = .moves va) {new : PhysPage}
    (hnew : x.maps s Layout.scratchPage = some (new, p)) :
    (x.put s va (some (new, Perm.userWrite))).Faithful c := by
  obtain ⟨-, page, new', ⟨q, hpage, hcow, -⟩, hnew', hbytes⟩ := hsafe.fits_phase hφ
  obtain ⟨rfl, rfl⟩ := Prod.mk.inj (Option.some.inj (hnew.symm.trans hnew'))
  refine h.put_like hpage hbytes ?_
  rw [Perm.intersects_write_copyOnWrite q, hcow, Bool.or_true]
  rfl

/-- **A byte is written**, and nobody but the writer reads it. -/
theorem write (h : x.Faithful c) (hsafe : Safe x)
    (hφ : x.phase s = .alone ∨ ∃ v, x.phase s = .writes v)
    (hpage : x.maps s (pageOf va) = some (page, p)) (hwrite : p.contains Perm.write = true)
    (b : UInt8) :
    (x.fill (x.bytes.put page (va % Layout.pageSize) b)).Faithful (c.put s va b) := by
  have hexcuses : ∀ v u v', ¬ (x.phase s).Excuses s v u v' := by
    rcases hφ with hφ | ⟨_, hφ⟩ <;> · rw [hφ]; exact fun _ _ _ hex => hex
  intro u hu v hv
  change _ = if u = s ∧ v = va then some (b, true) else c.cell u v
  cases hq : x.maps u (pageOf v) with
  | none =>
    have hne : ¬ (u = s ∧ v = va) := by
      rintro ⟨rfl, rfl⟩
      cases hq.symm.trans hpage
    rw [if_neg hne, ← h u hu v hv]
    exact cell_congr rfl fun page p hp => by cases hq.symm.trans hp
  | some e =>
    obtain ⟨q, r⟩ := e
    rw [cell_eq_some (x := x.fill (x.bytes.put page (va % Layout.pageSize) b)) hq]
    by_cases hhere : u = s ∧ v = va
    · obtain ⟨rfl, rfl⟩ := hhere
      obtain ⟨rfl, rfl⟩ := Prod.mk.inj (Option.some.inj (hpage.symm.trans hq))
      rw [if_pos ⟨rfl, rfl⟩, bytes_fill, Contents.put, if_pos ⟨rfl, rfl⟩,
        Perm.intersects_write_copyOnWrite, hwrite, Bool.true_or]
    · rw [if_neg hhere, ← h u hu v hv, cell_eq_some hq, bytes_fill, Contents.put, if_neg]
      -- the same byte of the same page would be the same address of the same environment
      rintro ⟨rfl, hoffset⟩
      obtain ⟨rfl, hsame⟩ := hsafe.alone_of_writable hexcuses hpage hwrite hq
      refine hhere ⟨rfl, ?_⟩
      have hv' := Nat.sub_add_cancel (Nat.mod_le v Layout.pageSize)
      have hva' := Nat.sub_add_cancel (Nat.mod_le va Layout.pageSize)
      unfold pageOf at hsame
      omega

theorem drop (h : x.Faithful c) (ht : ¬ x.own t) : (x.drop t).Faithful c := fun u hu v hv => by
  rw [← h u hu v hv]
  refine cell_congr (if_neg ?_) fun _ _ _ => rfl
  rintro rfl
  exact ht hu

/-- **A child starts with its parent's bytes.** -/
theorem start (h : x.Faithful c) (hsafe : Safe x) (hs : x.own s) (hφ : x.phase s = .completes id) :
    (x.start id.slot).Faithful (c.copy s id.slot) := by
  have hfits := hsafe.fits_phase hφ
  intro u hu v hv
  change x.cell u v =
    if u = id.slot then if v < Layout.stackTop then c.cell s v else none else c.cell u v
  split
  · next hu =>
    subst hu
    rw [if_pos hv.1, ← h s hs v hv]
    obtain ⟨haligned, hlt, -⟩ := pageAddress_of_ordinary hv
    have htwin := hfits (pageOf v) haligned hlt
    unfold cell
    generalize x.maps s (pageOf v) = e at htwin
    generalize x.maps id.slot (pageOf v) = e' at htwin
    cases htwin with
    | none => rfl
    | some hw hw' hcow =>
      simp only [Option.map_some, Perm.intersects_write_copyOnWrite, hw, hw', hcow]
  · next hne => exact h u (hu.resolve_left hne) v hv

end Faithful

end Sharing

end Exokernel
