import Exokernel.Proofs.Coherence
/-!
# One step of a program that obeys

A program that obeys asks for the calls of its phase, looks at its pages and copies one. Whatever it
does, it obeys from its next phase on, and what it leaves is coherent (`Coherent.turn`). A child that
it makes goes on to obey as well, a child that it starts gets a copy of its bytes, and nobody else
comes, goes or wakes (`Turned`). What a fault handler asks for is refused for want of memory alone.
-/

namespace Exokernel

open MemoryView PageView Memory Sharing

/-- What a program goes on to do once it has read its return register. -/
def Program.answered {α : Type} (w : UInt32) : Program α → Program α
  | .result f => f w
  | p => p

/-- To obey is not to wait for an answer. -/
theorem Obeys.answered {α : Type} {fin : Phase → α → Prop} {φ : Phase} {p : Program α}
    (h : Obeys fin φ p) (w : UInt32) : Obeys fin φ (p.answered w) := by
  cases h with
  | never => exact .never _
  | done h => exact .done h
  | say h => exact .say h
  | stack h => exact .stack h
  | table hva h h' => exact .table hva h h'
  | look hva h h' => exact .look hva h h'
  | fault h => exact .fault h
  | copy h => exact .copy h
  | call hasks h h' => exact .call hasks h h'
  | exofork h h' h'' => exact .exofork h h' h''

variable {M : Type} [Memory M]

omit [Memory M] in
/-- Nothing is done. -/
theorem State.answers_self (k : State M) (s : Slot) :
    State.Answers k k s (k.env s).frame.eax fun _ => False :=
  ⟨rfl, fun _ _ => ⟨rfl, rfl, rfl, rfl⟩, fun _ _ _ => rfl⟩

/-- **What one step of a program leaves**: it obeys from its new phase on, and so does a child that it
has made. A child that is woken gets a copy of its parent's bytes. -/
structure Turned {α : Type} (fin : Phase → α → Prop) (policy : Policy) (ncpu : Nat) (m₀ : M)
    (k k' : State M) (contents : Contents) (phase : Slot → Phase) (s : Slot) (c c' : Copying)
    (φ : Phase) (p : Program α) : Prop where
  coherent : Coherent policy ncpu m₀ k' contents (Phase.moved phase s φ) c'
  obeys : Obeys fin φ (p.answered (k'.env s).frame.eax)
  handles : φ.handles = (phase s).handles
  others : ∀ u, u ≠ s → (k.env u).status ≠ .free → (k'.env u).status ≠ .free →
    (k'.env u).frame = (k.env u).frame
  born : ∀ u, (k.env u).status = .free → (k'.env u).status ≠ .free →
    phase s = .alone ∧ Obeys fin .alone (p.answered (k'.env u).frame.eax)
  woken : (∀ t, ¬ k.Wakes k' t) ∧ c' = c ∨
    (phase s).handles = false ∧
      ∃ t, (∀ u, k.Wakes k' u ↔ u = t) ∧ c.child s = none ∧ c' = c.copy s t

section Turned

open State

variable {α : Type} {fin : Phase → α → Prop} {policy : Policy} {ncpu cpu : Nat} {m₀ : M}
  {k k' : State M} {contents contents' : Contents} {phase : Slot → Phase} {c : Copying} {s : Slot}
  {a : Args} {φ φ₁ φ₂ : Phase} {call : Call} {p p' : Program α} {tf : TrapFrame}

/-- Where every slot keeps its occupant and its state, nobody is born and nobody wakes. -/
theorem turned_of_answers {w : UInt32} (hanswers : Answers k k' s w fun _ => False)
    (hcoherent : Coherent policy ncpu m₀ k' contents (Phase.moved phase s φ) c)
    (hobeys : Obeys fin φ (p.answered w)) (hhandles : φ.handles = (phase s).handles) :
    Turned fin policy ncpu m₀ k k' contents phase s c c φ p where
  coherent := hcoherent
  obeys := hanswers.eax ▸ hobeys
  handles := hhandles
  others u hu _ _ := hanswers.frame u hu not_false
  born u hfree hthere := absurd ((hanswers.same u not_false).status.trans hfree) hthere
  woken := .inl ⟨fun t ⟨hbefore, hafter⟩ =>
    hbefore ((hanswers.same t not_false).status ▸ hafter), rfl⟩

/-- What the environment of a slot has found out in its phase. -/
theorem Coherent.fits (h : Coherent policy ncpu m₀ k contents phase c) (hφ : phase s = φ) :
    (k.sharing contents phase).Fits s φ :=
  h.safe.fits_phase hφ

/-- **An environment that has found something out** goes on to another phase. -/
theorem Coherent.finds (h : Coherent policy ncpu m₀ k contents phase c)
    (hruns : k.Runs ncpu cpu s) (hφ : phase s = φ₁) (hobeys : Obeys fin φ₂ p)
    (hfits : (k.sharing contents phase).Fits s φ₂)
    (hchild : ∀ id, φ₂.child = some id → φ₁.child = some id)
    (hscratch : φ₁.scratches = true → φ₂.scratches = true)
    (hexcuses : ∀ va t va', φ₁.Excuses s va t va' → φ₂.Excuses s va t va')
    (hbegun : φ₂.begun = φ₁.begun) (hhandles : φ₂.handles = φ₁.handles) :
    Turned fin policy ncpu m₀ k k contents phase s c c φ₂ p := by
  subst hφ
  have hsafe := h.safe.turn (Coherent.own_of_runs hruns _ _) hchild hscratch hexcuses hfits
  exact turned_of_answers (answers_self k s)
    (h.goes h.reached (answers_self k s) rfl hsafe h.faithful hchild hbegun) (hobeys.answered _)
    hhandles

/-- The phase stays as it is. -/
theorem Coherent.stays (h : Coherent policy ncpu m₀ k contents phase c) (hobeys : Obeys fin (phase s) p) :
    Turned fin policy ncpu m₀ k k contents phase s c c (phase s) p := by
  refine turned_of_answers (answers_self k s) ?_ (hobeys.answered _) rfl
  rw [Phase.moved_self]
  exact h

/-- **What a fault handler asks for** is refused for want of memory alone. -/
theorem Coherent.short_of_asks (h : Coherent policy ncpu m₀ k contents phase c)
    (hruns : k.Runs ncpu cpu s) (hasks : Asks (phase s) call a φ₁ .never) (hcall : call ≠ .envDestroy)
    {e : KernelError} (hop : perform cpu call a (k.save s tf) = .error e k') :
    ∃ short, e = .memory short := by
  have hself : (k.save s tf).resolve cpu 0 true = .ok s := resolve_zero hruns.2.1 true
  have hlookup : ∀ {va e}, (k.sharing contents phase).maps s va = some e →
      Memory.lookup (k.save s tf).memory ((k.save s tf).env s).pgdir va = some e := by
    intro va e he
    rw [(same_save k s s tf).pgdir]
    exact (mapping_eq_lookup hruns.there).symm.trans he
  generalize hφ : phase s = φ₀ at hasks
  have hfits := h.fits hφ
  cases hasks with
  | discard => exact absurd rfl hcall
  | supply =>
    exact (short_of_pageAlloc hself (by decide) ofUser?_userWrite).of_error hop e rfl
  | move va =>
    obtain ⟨⟨haligned, hva, -⟩, page, new, -, hnew, -⟩ := hfits
    have hva' : va < Layout.userTop := Nat.lt_trans hva (by decide)
    have hscratch : isUserPage Layout.scratchPage = true := by decide
    have hplace := isUserPage_addressWord haligned hva'
    have hpage : (k.save s tf).shareable ((k.save s tf).env s).pgdir Layout.scratchPage
        Perm.userWrite = some new := by
      unfold shareable
      rw [hlookup hnew]
      rfl
    have hends := short_of_pageMap (a :=
      { second := Syscalls.addressWord Layout.scratchPage, fourth := Syscalls.addressWord va,
        fifth := Perm.userWrite.bits }) hself hself hscratch hplace ofUser?_userWrite hpage
    exact hends.of_error hop e rfl
  | clear =>
    exact (short_of_pageUnmap hself (by decide)).of_error hop e rfl

/-- Where a call is not a fork and wakes nobody, nobody comes or goes. -/
theorem State.Remaps.answers (h : Remaps k cpu s a call k') (hfork : call ≠ .exofork)
    (hstart : call ≠ .envSetStatus) : Answers k k' s 0 fun _ => False := by
  cases h with
  | supplied _ _ _ _ h | shared _ _ _ _ _ h | removed _ _ h | upcall _ h => exact h
  | made => exact absurd rfl hfork
  | set => exact absurd rfl hstart

/-- Whether a fault is being handled does not change while it is. -/
theorem Asks.handles (h : Asks φ call a φ₁ φ₂) :
    φ₁.handles = φ.handles ∧ (φ₂ ≠ .never → φ₂.handles = φ.handles) ∧
      (φ₂ = .never → call = .envDestroy ∨ φ.handles = true) := by
  cases h with
  | share id va mapped =>
    refine ⟨?_, fun _ => rfl, nofun⟩
    unfold Phase.afterShare
    split <;> rfl
  | discard => exact ⟨rfl, fun hne => absurd rfl hne, fun _ => .inl rfl⟩
  | supply | move | clear => exact ⟨rfl, fun hne => absurd rfl hne, fun _ => .inr rfl⟩
  | _ => exact ⟨rfl, fun _ => rfl, nofun⟩

theorem Asks.copies (h : Asks φ call a φ₁ φ₂) (hcall : call ≠ .envDestroy) : call.copies = true := by
  cases h <;> first | rfl | exact absurd rfl hcall

theorem Asks.ne_exofork (h : Asks φ call a φ₁ φ₂) : call ≠ .exofork := by
  cases h <;> decide

/-- A phase knows what to do when its call is refused, since memory does not refuse a handler's. -/
theorem Coherent.ne_never (h : Coherent policy ncpu m₀ k contents phase c)
    (hruns : k.Runs ncpu cpu s) (hasks : Asks (phase s) call a φ₁ φ₂) (hcall : call ≠ .envDestroy)
    (htf : tf.eax = call.number) {e : KernelError}
    (hop : performNumber cpu tf.eax a (k.save s tf) = .error e k')
    (hallowed : (phase s).handles = true → ∀ short, e ≠ .memory short) : φ₂ ≠ .never := by
  rintro rfl
  have hhandles := (hasks.handles.2.2 rfl).resolve_left hcall
  rw [htf, performNumber, Call.ofNumber?_number] at hop
  obtain ⟨short, rfl⟩ := h.short_of_asks hruns hasks hcall hop
  exact hallowed hhandles short rfl

/-- Nobody else comes or goes when a child is started. -/
theorem turned_of_started {f : UInt32 → Program α} {id : EnvId}
    (h : Coherent policy ncpu m₀ k contents phase c) (hruns : k.Runs ncpu cpu s)
    (hreached : Reached policy ncpu m₀ k') (hφ : phase s = .completes id)
    (hremaps : Remaps k cpu s { first := id.raw, second := Status.runnable.number } .envSetStatus k')
    (hobeys : Obeys fin (.started id) (f 0)) :
    Turned fin policy ncpu m₀ k k' contents phase s c (c.copy s id.slot) (.started id)
      (.result f) := by
  obtain ⟨hcoherent, hwakes⟩ := h.started hruns hreached hφ hremaps
  have hid : (phase s).child = some id := by rw [hφ]; rfl
  have hwaits := (h.kin s id hid).waits
  obtain _ | _ | _ | _ | ⟨-, ht, -, hframe, -, hanswers⟩ := hremaps
  obtain rfl := h.eq_of_resolve_child hruns hid ht
  have hne : id.slot ≠ s := h.safe.child_ne (Coherent.own_of_runs hruns _ _) hid
  refine ⟨hcoherent, ?_, by rw [hφ]; rfl, fun u hu _ _ => ?_, fun u hfree hthere => ?_,
    .inr ⟨by rw [hφ]; rfl, id.slot, hwakes, ?_, rfl⟩⟩
  · rw [hanswers.eax]
    exact hobeys
  · by_cases heq : u = id.slot
    · rw [heq]
      exact hframe hne
    · exact hanswers.frame u hu heq
  · by_cases heq : u = id.slot
    · rw [heq, hwaits] at hfree
      cases hfree
    · exact absurd ((hanswers.same u heq).status.trans hfree) hthere
  · rw [h.begun s, hφ]
    rfl

/-- The child is gone once it is destroyed, and everybody else is there. -/
theorem turned_of_discarded {f : UInt32 → Program α} {id : EnvId} {w : UInt32}
    (h : Coherent policy ncpu m₀ k contents phase c) (hruns : k.Runs ncpu cpu s)
    (hreached : Reached policy ncpu m₀ k') (hφ : phase s = .discards id)
    (hmaps : k'.mapping = k.mapping.drop id.slot) (hanswers : Answers k k' s w (· = id.slot))
    (hfree : (k'.env id.slot).status = .free) (hobeys : Obeys fin .alone (f w)) :
    Turned fin policy ncpu m₀ k k' contents phase s c c .alone (.result f) := by
  refine ⟨h.discarded hruns hreached hφ hmaps hanswers hfree, ?_, by rw [hφ]; rfl,
    fun u hu _ hthere => ?_, fun u hnone hthere => ?_, .inl ⟨fun u ⟨hbefore, hafter⟩ => ?_, rfl⟩⟩
  · rw [hanswers.eax]
    exact hobeys
  · refine hanswers.frame u hu ?_
    rintro rfl
    exact hthere hfree
  · by_cases heq : u = id.slot
    · exact absurd (heq ▸ hfree) hthere
    · exact absurd ((hanswers.same u heq).status.trans hnone) hthere
  · by_cases heq : u = id.slot
    · rw [heq, hfree] at hafter
      cases hafter
    · exact hbefore ((hanswers.same u heq).status ▸ hafter)

/-- The child goes on as its parent does, but for the answer. -/
theorem turned_of_made {f : UInt32 → Program α}
    (h : Coherent policy ncpu m₀ k contents phase c) (hruns : k.Runs ncpu cpu s)
    (hreached : Reached policy ncpu m₀ k') (hφ : phase s = .alone)
    (hremaps : Remaps k cpu s a .exofork k')
    (hnone : ∀ w v, decodeResult w = .ok v → EnvId.ofRaw? v = none → Obeys fin .alone (f w))
    (hsome : ∀ w v id, decodeResult w = .ok v → EnvId.ofRaw? v = some id →
      Obeys fin (.walks id 0) (f w)) :
    ∃ φ, Turned fin policy ncpu m₀ k k' contents phase s c c φ (.result f) := by
  obtain _ | _ | _ | @⟨_, id, hfree, hlt, hmaps, hanswers, hwaits, hname, hparent, heax⟩ := hremaps
  refine ⟨.walks id 0, h.made hruns hreached hφ hfree hmaps hanswers hwaits hname hparent, ?_,
    by rw [hφ]; rfl, fun u hu hthere _ => ?_, fun u hgone hthere => ⟨hφ, ?_⟩,
    .inl ⟨fun u ⟨hbefore, hafter⟩ => ?_, rfl⟩⟩
  · rw [hanswers.eax]
    exact hsome _ _ id (decodeResult_of_lt hlt) id.ofRaw?_raw
  · refine hanswers.frame u hu ?_
    rintro rfl
    exact hthere hfree
  · by_cases heq : u = id.slot
    · rw [heq, heax]
      exact hnone 0 0 rfl rfl
    · exact absurd ((hanswers.same u heq).status.trans hgone) hthere
  · by_cases heq : u = id.slot
    · rw [heq, hwaits] at hafter
      cases hafter
    · exact hbefore ((hanswers.same u heq).status ▸ hafter)

/-- **A page table is looked for**, and where there is none the walk goes on with the next one. -/
theorem Coherent.lookForTable {va : Nat} {f : Bool → Program α} {b : Bool}
    (h : Coherent policy ncpu m₀ k contents phase c) (hruns : k.Runs ncpu cpu s)
    (hobeys : Obeys fin (phase s) (.tablePresent va f))
    (hnone : b = false → ∀ u, u / Layout.tableSpan = va / Layout.tableSpan → k.mapping s u = none) :
    ∃ φ, Turned fin policy ncpu m₀ k k contents phase s c c φ (f b) := by
  generalize hφ : phase s = φ₀ at hobeys
  have hfits := h.fits hφ
  cases hobeys with
  | never => exact hfits.elim
  | @table id _ _ hva hthere hmissing =>
    cases b with
    | true => exact ⟨_, h.stays (hφ ▸ hthere)⟩
    | false =>
      obtain ⟨-, htwins, hbare⟩ := hfits
      exact ⟨_, h.finds hruns hφ hmissing
        ⟨nextTable_mod va, htwins.skip hbare (hnone rfl), hbare.mono (User.lt_nextTable va).le⟩
        (fun _ hid => hid) nofun (fun _ _ _ hex => hex) rfl rfl⟩

/-- The walk sees a page, or goes on to the next address. -/
theorem Coherent.walk {id : EnvId} {va : Nat} {f : Option Perm → Program α}
    (h : Coherent policy ncpu m₀ k contents phase c) (hruns : k.Runs ncpu cpu s)
    (hφ : phase s = .walks id va) (hva : va < Layout.stackTop)
    (hsome : ∀ mapped, Obeys fin (.sees id va mapped) (f (some mapped)))
    (hnone : Obeys fin (.walks id (va + Layout.pageSize)) (f none)) :
    ∃ φ, Turned fin policy ncpu m₀ k k contents phase s c c φ
      (f ((k.mapping s va).map (·.2))) := by
  obtain ⟨haligned, htwins, hbare⟩ := h.fits hφ
  cases hpage : k.mapping s va with
  | none =>
    have htwin : Twin (k.mapping s va) (k.mapping id.slot va) := by
      rw [hpage, show k.mapping id.slot va = none from hbare va le_rfl]
      exact .none
    exact ⟨_, h.finds hruns hφ hnone
      ⟨add_pageSize_mod haligned, htwins.snoc haligned htwin, hbare.mono (Nat.le_add_right _ _)⟩
      (fun _ hid => hid) nofun (fun _ _ _ hex => hex) rfl rfl⟩
  | some e =>
    obtain ⟨page, mapped⟩ := e
    exact ⟨_, h.finds hruns hφ (hsome mapped) ⟨haligned, hva, htwins, hbare, page, hpage⟩
      (fun _ hid => hid) nofun (fun _ _ _ hex => hex) rfl rfl⟩

/-- A fault handler sees whether the page is one that is copied. It may not be written, or there had
been no fault. -/
theorem Coherent.judge {va : Nat} {f : Option Perm → Program α}
    (h : Coherent policy ncpu m₀ k contents phase c) (hruns : k.Runs ncpu cpu s)
    (hφ : phase s = .faults va)
    (hobeys : ∀ m, Obeys fin
      (if m.any (·.contains Perm.copyOnWrite) then .supplies va else .refuses va)
      (f m)) :
    ∃ φ, Turned fin policy ncpu m₀ k k contents phase s c c φ
      (f ((k.mapping s va).map (·.2))) := by
  obtain ⟨hplace, hwrite⟩ := h.fits hφ
  have hnext := hobeys ((k.mapping s va).map (·.2))
  split at hnext
  · next hcow =>
    have hshared : ∃ page, (k.sharing contents phase).Shared s va page := by
      cases hpage : k.mapping s va with
      | none =>
        rw [hpage] at hcow
        cases hcow
      | some e =>
        obtain ⟨page, p⟩ := e
        rw [hpage] at hcow
        exact ⟨page, p, hpage, hcow, hwrite page p hpage⟩
    exact ⟨_, h.finds hruns hφ hnext ⟨hplace, hshared⟩ nofun nofun (fun _ _ _ hex => hex) rfl rfl⟩
  · next hcow =>
    have hnot : ∀ page p, k.mapping s va = some (page, p) →
        p.intersects (Perm.write ||| Perm.copyOnWrite) = false := by
      intro page p hpage
      rw [hpage] at hcow
      rw [Perm.intersects_write_copyOnWrite, hwrite page p hpage]
      exact Bool.eq_false_iff.2 hcow
    exact ⟨_, h.finds hruns hφ hnext ⟨hplace, hnot⟩ nofun nofun (fun _ _ _ hex => hex) rfl rfl⟩

/-- **A page is looked for.** -/
theorem Coherent.lookForPage {va : Nat} {f : Option Perm → Program α}
    (h : Coherent policy ncpu m₀ k contents phase c) (hruns : k.Runs ncpu cpu s)
    (hobeys : Obeys fin (phase s) (.pagePerm va f)) :
    ∃ φ, Turned fin policy ncpu m₀ k k contents phase s c c φ
      (f ((k.mapping s va).map (·.2))) := by
  generalize hφ : phase s = φ₀ at hobeys
  cases hobeys with
  | never => exact (h.fits hφ).elim
  | stack hobeys => exact ⟨_, h.stays (hφ ▸ hobeys _)⟩
  | look hva hsome hnone => exact h.walk hruns hφ hva hsome hnone
  | fault hobeys => exact h.judge hruns hφ hobeys

/-- **A page is copied** to one that nobody reads. -/
theorem Coherent.copyPage {src dst : Nat} {page page' : PhysPage} {perm perm' : Perm}
    (h : Coherent policy ncpu m₀ k contents phase c) (hruns : k.Runs ncpu cpu s)
    (hobeys : Obeys fin (phase s) (.copyPage src dst p)) (hsrc : k.mapping s src = some (page, perm))
    (hdst : k.mapping s dst = some (page', perm')) :
    ∃ φ, Turned fin policy ncpu m₀ k k (contents.copy page page') phase s c c φ p := by
  generalize hφ : phase s = φ₀ at hobeys
  cases hobeys with
  | never => exact (h.fits hφ).elim
  | copy hobeys =>
    have hanswers := answers_self k s
    have hsafe := h.safe.copy (Coherent.own_of_runs hruns _ _) hφ hsrc hdst
    have hfaithful : Faithful (k.sharing (contents.copy page page') phase) c :=
      h.faithful.copy h.safe hφ hdst
    exact ⟨_, turned_of_answers hanswers
      (h.goes h.reached hanswers rfl hsafe hfaithful nofun (by rw [hφ]; rfl)) (hobeys.answered _)
      (by rw [hφ]; rfl)⟩

variable [MemoryView M] [PageView M] [LawfulMemory M] [LawfulPages M] [FiniteMap M] [FreshPages M]
  {allowed : KernelError → Prop}

/-- **A child is asked for**, and made or refused. -/
theorem Coherent.bear {f : UInt32 → Program α} (h : Coherent policy ncpu m₀ k contents phase c)
    (hm : Valid m₀) (ha : Accounted m₀) (ht : Tidy m₀) (hruns : k.Runs ncpu cpu s)
    (hφ : phase s = .alone) (htf : tf.eax = Call.exofork.number)
    (herror : ∀ w e, decodeResult w = .error e → Obeys fin .alone (f w))
    (hnone : ∀ w v, decodeResult w = .ok v → EnvId.ofRaw? v = none → Obeys fin .alone (f w))
    (hsome : ∀ w v id, decodeResult w = .ok v → EnvId.ofRaw? v = some id →
      Obeys fin (.walks id 0) (f w)) :
    ∃ φ, Turned fin policy ncpu m₀ k (k.syscall cpu tf).2 contents phase s c c φ (.result f) := by
  have hreached : Reached policy ncpu m₀ (k.syscall cpu tf).2 :=
    h.reached.step (a := .syscall cpu tf) hruns.1 rfl
  rcases h.reached.remaps hm ha ht hruns.1 hruns.2.1 rfl htf with
    ⟨e, k₁, -, hmaps, hanswers⟩ | hremaps
  · have hx : (k.sharing contents phase).phase s = .alone := hφ
    have hsafe : Safe ((k.sharing contents phase).goes s .alone) :=
      h.safe.turn (Coherent.own_of_runs hruns _ _) nofun (by rw [hx]; nofun)
        (by rw [hx]; exact fun _ _ _ hex => hex) trivial
    exact ⟨.alone, turned_of_answers hanswers
      (h.goes hreached hanswers hmaps hsafe h.faithful nofun (by rw [hφ]))
      (herror _ _ (decodeResult_encodeResult_toCallError e)) (by rw [hφ])⟩
  · exact turned_of_made h hruns hreached hφ hremaps hnone hsome

omit [LawfulPages M] [FreshPages M] in
/-- **The child is given up.** It waits, so it is gone at once. -/
theorem Coherent.giveUp {f : UInt32 → Program α} {id : EnvId}
    (h : Coherent policy ncpu m₀ k contents phase c) (hm : Valid m₀) (hruns : k.Runs ncpu cpu s)
    (hφ : phase s = .discards id) (htf : tf.eax = Call.envDestroy.number)
    (hargs : tf.args = { first := id.raw }) (hobeys : Obeys fin .alone (f 0)) :
    Turned fin policy ncpu m₀ k (k.syscall cpu tf).2 contents phase s c c .alone (.result f) := by
  have hreached : Reached policy ncpu m₀ (k.syscall cpu tf).2 :=
    h.reached.step (a := .syscall cpu tf) hruns.1 rfl
  have hid : (phase s).child = some id := by rw [hφ]; rfl
  have hne : id.slot ≠ s := h.safe.child_ne (Coherent.own_of_runs hruns _ _) hid
  have hraw : k.resolve cpu tf.args.first true = .ok id.slot := by
    rw [hargs]
    exact h.resolve_child hruns.2.1 hid
  have hwaits := (h.kin s id hid).waits
  obtain ⟨hmaps, hanswers, hfree⟩ := h.reached.destroys hm hruns.1 hruns.2.1 htf hraw hne
    (by rw [hwaits]; exact nofun)
  exact turned_of_discarded h hruns hreached hφ hmaps hanswers hfree hobeys

/-- **A call of a phase**, but for the one that gives up a child, is performed or refused. -/
theorem Coherent.ask {f : UInt32 → Program α} (h : Coherent policy ncpu m₀ k contents phase c)
    (hm : Valid m₀) (ha : Accounted m₀) (ht : Tidy m₀) (hruns : k.Runs ncpu cpu s)
    (hasks : Asks (phase s) call a φ₁ φ₂) (hcall : call ≠ .envDestroy)
    (htf : tf.eax = call.number) (hargs : tf.args = a)
    (hok : ∀ w v, decodeResult w = .ok v → Obeys fin φ₁ (f w))
    (herror : ∀ w e, decodeResult w = .error e → Obeys fin φ₂ (f w))
    (hallowed : ∀ e k', performNumber cpu tf.eax a (k.save s tf) = .error e k' →
      (phase s).handles = true → ∀ short, e ≠ .memory short) :
    ∃ φ c', Turned fin policy ncpu m₀ k (k.syscall cpu tf).2 contents phase s c c' φ (.result f) := by
  have hreached : Reached policy ncpu m₀ (k.syscall cpu tf).2 :=
    h.reached.step (a := .syscall cpu tf) hruns.1 rfl
  have hremaps := h.reached.remaps hm ha ht hruns.1 hruns.2.1 (hasks.copies hcall) htf
  rw [hargs] at hremaps
  rcases hremaps with ⟨e, k₁, hop, hmaps, hanswers⟩ | hremaps
  · have hφ₂ := h.ne_never hruns hasks hcall htf hop (hallowed e k₁ hop)
    exact ⟨φ₂, c, turned_of_answers hanswers (h.denied hruns hreached hasks hφ₂ hmaps hanswers)
      (herror _ _ (decodeResult_encodeResult_toCallError e)) (hasks.handles.2.1 hφ₂)⟩
  · by_cases hstart : call = .envSetStatus
    · generalize hφ : phase s = φ₀ at hasks
      cases hasks with
      | start id => exact ⟨_, _, turned_of_started h hruns hreached hφ hremaps (hok 0 0 rfl)⟩
      | _ => cases hstart
    · exact ⟨φ₁, c, turned_of_answers (hremaps.answers hasks.ne_exofork hstart)
        (h.performed hruns hreached hasks hstart hremaps) (hok 0 0 rfl) hasks.handles.1⟩

/-- **A system call of a program that obeys.** -/
theorem Coherent.enter (h : Coherent policy ncpu m₀ k contents phase c) (hm : Valid m₀)
    (ha : Accounted m₀) (ht : Tidy m₀) (hruns : k.Runs ncpu cpu s)
    (hobeys : Obeys fin (phase s) (.enter call a p)) (htf : tf.eax = call.number) (hargs : tf.args = a)
    (hrefused : ∀ e k', performNumber cpu tf.eax tf.args (k.save s tf) = .error e k' → allowed e)
    (hallowed : (phase s).handles = true → ∀ short, ¬ allowed (.memory short)) :
    ∃ φ c', Turned fin policy ncpu m₀ k (k.syscall cpu tf).2 contents phase s c c' φ p := by
  generalize hφ : phase s = φ₀ at hobeys
  cases hobeys with
  | never => exact (h.fits hφ).elim
  | exofork herror hnone hsome =>
    obtain ⟨φ, hturned⟩ := h.bear hm ha ht hruns hφ htf herror hnone hsome
    exact ⟨φ, c, hturned⟩
  | call hasks hok herror =>
    by_cases hdestroy : call = .envDestroy
    · cases hasks with
      | discard id => exact ⟨_, c, h.giveUp hm hruns hφ htf hargs (hok 0 0 rfl)⟩
      | _ => cases hdestroy
    · refine h.ask hm ha ht hruns (hφ ▸ hasks) hdestroy htf hargs hok herror ?_
      rintro e k' hop hhandles short rfl
      exact hallowed hhandles short (hrefused _ k' (hargs ▸ hop))

/-- **One step of a program that obeys**, by the environment that a CPU runs: it goes on to obey, and
what it leaves is coherent. While a fault is handled memory refuses nothing. -/
theorem Coherent.turn (h : Coherent policy ncpu m₀ k contents phase c) (hm : Valid m₀)
    (ha : Accounted m₀) (ht : Tidy m₀) (hruns : k.Runs ncpu cpu s)
    (hobeys : Obeys fin (phase s) (p.answered (k.env s).frame.eax))
    (hturn : World.Turn allowed k contents cpu s p k' contents' p')
    (hallowed : (phase s).handles = true → ∀ short, ¬ allowed (.memory short)) :
    ∃ φ c', Turned fin policy ncpu m₀ k k' contents' phase s c c' φ p' := by
  cases hturn with
  | enter htf hargs hrefused hcontents =>
    exact (h.refill hm hcontents).enter hm ha ht hruns hobeys htf hargs hrefused hallowed
  | result => exact ⟨_, c, h.stays hobeys⟩
  | @inbox f =>
    generalize hφ : phase s = φ₀ at hobeys
    cases hobeys
    exact (h.fits hφ).elim
  | tablePresent hnone =>
    obtain ⟨φ, hturned⟩ := h.lookForTable hruns hobeys hnone
    exact ⟨φ, c, hturned⟩
  | pagePerm =>
    obtain ⟨φ, hturned⟩ := h.lookForPage hruns hobeys
    exact ⟨φ, c, hturned⟩
  | copyPage hsrc hdst _ _ =>
    obtain ⟨φ, hturned⟩ := h.copyPage hruns hobeys hsrc hdst
    exact ⟨φ, c, hturned⟩
  | say =>
    generalize hφ : phase s = φ₀ at hobeys
    cases hobeys with
    | never => exact (h.fits hφ).elim
    | say hobeys => exact ⟨_, c, h.stays (hφ ▸ hobeys)⟩

end Turned

end Exokernel
