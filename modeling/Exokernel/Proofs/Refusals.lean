import Exokernel.Proofs.Pages
/-!
# What a refusal leaves behind

A call can fail after part of its work is done: a page was taken and cannot be mapped, a slot was taken
and its program cannot be loaded. All of it is undone. What the caller finds in its result register
tells a refused call from any other, since no value the kernel answers with is negative as a signed
word: identifiers stay below 2³¹ (`Numbered`).
-/

namespace Exokernel

open MemoryView PageView Memory

/-- **Identifiers that are given out are not negative.** -/
theorem EnvId.raw_next_lt (prev : Option EnvId) (s : Slot) :
    (EnvId.next prev s).raw.toNat < 0x80000000 := by
  have hg := EnvId.nextGeneration_lt ((prev.map EnvId.generation).getD 0)
  have hs := s.isLt
  rw [EnvId.next, EnvId.raw_ofGeneration]
  simp only [EnvId.generationLimit, EnvId.generationStep, slotCount] at *
  omega

/-- **The error a refused call reports is what its caller reads.** -/
theorem decodeResult_encodeResult_toCallError (e : KernelError) :
    decodeResult (encodeResult (.error e.toCallError)) = .error e.toCallError := by
  cases e with
  | memory e => cases e <;> rfl
  | _ => rfl

theorem decodeResult_of_lt {w : UInt32} (h : w.toNat < 0x80000000) : decodeResult w = .ok w :=
  if_pos h

namespace Memory

variable {M : Type} [Memory M] [MemoryView M] {m m₁ m₂ m₃ : M} {dir : PageDir}

theorem Unchanged.refl (h : Valid m) : Unchanged m m := ⟨h, fun _ => .rfl, fun _ _ _ _ => rfl⟩

/-- **A directory that is made, filled and destroyed leaves nothing behind.** -/
theorem Made.undone (hmade : Made dir m m₁) (hfilled : Keeps (fun d _ => d = dir) m₁ m₂)
    (hgone : Unmade dir m₂ m₃) : Unchanged m m₃ := by
  have hne : ∀ {d}, Live m d → d ≠ dir := by
    rintro d hd rfl
    exact hmade.fresh hd
  refine ⟨hgone.valid, fun d => ?_, fun d va hd _ => ?_⟩
  · rw [hgone.live, hfilled.live, hmade.live]
    exact ⟨fun h => h.2.resolve_left h.1, fun hd => ⟨hne hd, .inr hd⟩⟩
  · have hd₁ : Live m₁ d := (hmade.live d).2 (.inr hd)
    rw [hgone.lookup d va ((hfilled.live d).2 hd₁) (hne hd), hfilled.lookup d va hd₁ (hne hd),
      hmade.lookup d va hd]

end Memory

namespace State

variable {M : Type} {k k' : State M} {policy : Policy} {ncpu cpu : Nat} {m₀ : M} {s : Slot}
  {tf : TrapFrame}

/-! ## Identifiers that are not negative -/

/-- Every identifier in the table was given out by the kernel, and is not negative. -/
def Numbered (k : State M) : Prop :=
  ∀ s id, (k.env s).lastId = some id → id.raw.toNat < 0x80000000

section Identifiers

variable [Memory M]

/-- **A slot gets its next identifier when it is taken**, and keeps it until then. -/
theorem Sound.lastId_effect (h : Sound policy ncpu k) (hk : Effect ncpu k k') (s : Slot) :
    (k'.env s).lastId = (k.env s).lastId ∨
      (k.env s).status = .free ∧ (k'.env s).lastId = some (EnvId.next (k.env s).lastId s) := by
  have htaken : ∀ {cpu : Nat} {t : Slot} (parent : Option EnvId) (dir : PageDir) (mem : M),
      cpu < ncpu → (k.runQueue cpu).freeHead = some t →
        ((k.occupy cpu t parent dir mem).env s).lastId = (k.env s).lastId ∨
          (k.env s).status = .free ∧
            ((k.occupy cpu t parent dir mem).env s).lastId =
              some (EnvId.next (k.env s).lastId s) := by
    intro cpu t parent dir mem hcpu ht
    rw [env_occupy]
    split
    · next hst =>
      subst hst
      exact .inr ⟨(h.head (h.queueOf_lt hcpu) ht).2, rfl⟩
    · exact .inl rfl
  have hfreed : ∀ t, ((k.free t).env s).lastId = (k.env s).lastId := by
    intro t
    rw [env_free]
    split
    · next hst => rw [hst]
    · rfl
  have hdestroyed : ∀ cpu t, ((k.destroy cpu t).2.env s).lastId = (k.env s).lastId := by
    intro cpu t
    rcases destroy_cases k cpu t with ⟨-, hk⟩ | ⟨-, hk⟩
    · rw [hk, env_setEnv]
      split
      · next hst => rw [hst]
      · rfl
    · rw [hk]
      exact hfreed t
  cases hk with
  | alloc hcpu hs => exact htaken _ _ _ hcpu hs
  | free => exact .inl (hfreed _)
  | destroy => exact .inl (hdestroyed _ _)
  | deliver hcpu hk => exact .inl (h.alike_of_delivery hcpu hk s).lastId
  | move hcpu hk =>
    cases hk with
    | change hk =>
      cases hk with
      | speak => exact .inl rfl
      | touch => exact .inl rfl
      | amend he => exact .inl (stays_setEnv k (h.alike_of_amends hcpu he).toStays s).lastId
      | @fork p t dir mem hp ht =>
        rw [env_forked]
        split
        · next hst =>
          subst hst
          exact .inr ⟨(h.head (h.queueOf_lt hcpu) ht).2, rfl⟩
        · exact .inl rfl
    | destroy => exact .inl (hdestroyed _ _)
    | hush => exact .inl rfl
    | refuse => exact .inl rfl
    | occupy hs => exact htaken _ _ _ hcpu hs
    | load => exact .inl rfl
    | spoil => exact .inl rfl
    | launch _ _ hs =>
      exact .inl (stays_setEnv k (Env.Alike.of_occupied hs .runnable nofun nofun _ _).toStays s).lastId
    | drop => exact .inl (hfreed _)
    | run _ hrun => exact .inl (stays_running k _ (Status.ne_free_of_canRun hrun) s).lastId

/-- **In every reached state identifiers are not negative.** -/
theorem Reached.numbered (h : Reached policy ncpu m₀ k) : Numbered k := by
  refine h.invariant (fun k hinit s id hid => ?_) fun k k' hsound hn heffect s id hid => ?_
  · cases (vacant_of_init hinit s).2.1.symm.trans hid
  · rcases hsound.lastId_effect heffect s with heq | ⟨-, heq⟩
    · exact hn s id (heq.symm.trans hid)
    · cases heq.symm.trans hid
      exact EnvId.raw_next_lt _ s

end Identifiers

/-! ## The answer to a call -/

variable [Memory M]

/-- **The answer to a system call** as the caller reads it, unless there is nobody to make the call or
the caller is gone. -/
def answer (k : State M) (cpu : Nat) (tf : TrapFrame) : Option (Except CallError UInt32) :=
  match k.current cpu with
  | some s =>
    let e := (k.syscall cpu tf).2.env s
    if e.status = .free then none else some (decodeResult e.frame.eax)
  | none => none

/-- A refusal leaves slots and queues alone. -/
theorem Refuses.kept {e : KernelError} (h : Refuses k cpu e k') :
    k'.envs = k.envs ∧ k'.queues = k.queues ∧ k'.policy = k.policy := by
  cases h <;> exact ⟨rfl, rfl, rfl⟩

theorem Refuses.env_eq {e : KernelError} (h : Refuses k cpu e k') (s : Slot) : k'.env s = k.env s :=
  congrArg (·[s]) h.kept.1

/-- What the caller finds in its register is the answer, if the caller is still there. -/
theorem answer_of_setResult {next : Next} {w : UInt32} (hc : k.current cpu = some s)
    (hk : k.syscall cpu tf = (next, k'.setResult s w)) (hs : (k'.env s).status ≠ .free) :
    k.answer cpu tf = some (decodeResult w) := by
  have henv : (k.syscall cpu tf).2.env s =
      { k'.env s with frame := { (k'.env s).frame with eax := w } } := by
    rw [hk, env_setResult, if_pos rfl]
  simp only [answer, hc, henv, if_neg hs]

/-- A caller whose call is refused is told so. -/
theorem answer_of_refuses {e : KernelError} (hc : k.current cpu = some s)
    (hs : (k.env s).status ≠ .free) (h : Refuses (k.save s tf) cpu e k')
    (hk : k.syscall cpu tf =
      (.resume, k'.setResult s (encodeResult (.error e.toCallError)))) :
    k.answer cpu tf = some (.error e.toCallError) := by
  rw [answer_of_setResult hc hk, decodeResult_encodeResult_toCallError]
  rw [h.env_eq, env_save, if_pos rfl]
  exact hs

/-- **No value a call answers with is negative.** -/
theorem Performs.value_lt {a : Args} {call : Call} {c : Completion} {v : UInt32}
    (h : Performs k cpu a call c k') (hn : Numbered k) (hcpu : cpu < 0x80000000)
    (hc : c = .value v) : v.toNat < 0x80000000 := by
  have hzero : ∀ {v : UInt32}, Completion.value 0 = .value v → v.toNat < 0x80000000 := by
    rintro v ⟨rfl⟩
    decide
  cases h with
  | @getEnvId id hid =>
    cases hc
    obtain ⟨s, -, hid⟩ := currentId_eq_some_iff.1 hid
    exact hn s id (Env.id_eq_some_iff.1 hid).2
  | @envDestroy victim text =>
    generalize (destroy cpu victim (k.say .debug Log.Target.calls text)).1 = d at hc
    cases d with
    | freedCurrent => cases hc
    | freed | deferred => exact hzero hc
  | exofork =>
    cases hc
    exact EnvId.raw_next_lt _ _
  | getCpuId =>
    cases hc
    rw [UInt32.toNat_ofNat']
    exact Nat.lt_of_le_of_lt (Nat.mod_le _ _) hcpu
  | pageAlloc | pageMap | pageUnmap | envSetStatus | envSetUpcall | ipcTrySend => exact hzero hc
  | yieldCpu | ipcRecv => cases hc

/-- A caller that does not return is gone. -/
theorem Performs.gone {a : Args} {call : Call} {c : Completion} (h : Performs k cpu a call c k')
    (hc : c = .exited) (hs : k.current cpu = some s) : (k'.env s).status = .free := by
  cases h with
  | @envDestroy victim text =>
    have hcur : (k.say .debug Log.Target.calls text).current cpu = some s := hs
    generalize k.say .debug Log.Target.calls text = k₁ at hc hcur
    unfold destroy at hc ⊢
    dsimp only at hc ⊢
    split at hc
    · cases hc
    · next hfar =>
      rw [if_neg hfar]
      split at hc
      · next hvictim =>
        obtain rfl : s = victim := Option.some.inj (hcur.symm.trans hvictim)
        rw [if_pos hvictim, env_free, if_pos rfl]
      · cases hc
  | yieldCpu | ipcRecv => cases hc
  | getEnvId | exofork | getCpuId | pageAlloc | pageMap | pageUnmap | envSetStatus | envSetUpcall
    | ipcTrySend => cases hc

/-- **A call that is performed does not look refused**: whoever is there to read an answer reads a
value. -/
theorem answer_of_performs {call : Call} {c : Completion} (hn : Numbered k) (hcpu : cpu < 0x80000000)
    (hc : k.current cpu = some s) (h : Performs (k.save s tf) cpu tf.args call c k')
    (hk : k.syscall cpu tf = (c.next, k'.conclude s c)) (e : CallError) :
    k.answer cpu tf ≠ some (.error e) := by
  have hn' : Numbered (k.save s tf) := fun t id hid =>
    hn t id (((sameNames_frame k s tf).lastId t).symm.trans hid)
  by_cases hs : (k'.env s).status = .free
  · -- the caller's slot is free, whatever was to be written there
    have hgone : ((k.syscall cpu tf).2.env s).status = .free := by
      rw [hk]
      cases c <;> simp only [conclude, env_setResult, if_true] <;> exact hs
    simp only [answer, hc, if_pos hgone]
    exact nofun
  · cases c with
    | value v =>
      rw [answer_of_setResult hc hk hs]
      rw [show encodeResult (.ok v) = v from rfl,
        decodeResult_of_lt (h.value_lt hn' hcpu rfl)]
      exact nofun
    | yielded =>
      rw [answer_of_setResult hc hk hs]
      exact nofun
    | exited => exact absurd (h.gone rfl hc) hs

/-- **Who reads an error was refused.** -/
theorem refuses_of_answer {e : CallError} (hn : Numbered k) (hcpu : cpu < 0x80000000)
    (hocc : ∀ s, k.current cpu = some s → (k.env s).status ≠ .free)
    (h : k.answer cpu tf = some (.error e)) :
    ∃ s e' k', k.current cpu = some s ∧ Refuses (k.save s tf) cpu e' k' ∧
      k.syscall cpu tf = (.resume, k'.setResult s (encodeResult (.error e))) := by
  have hhandled := handled_syscall cpu tf k
  generalize hk : k.syscall cpu tf = p at hhandled
  obtain ⟨next, k'⟩ := p
  cases hhandled with
  | idle hc =>
    unfold answer at h
    rw [hc] at h
    cases h
  | @refused s e' k' hc hr =>
    have hanswer := answer_of_refuses hc (hocc s hc) hr hk
    cases hanswer.symm.trans h
    exact ⟨s, e', k', hc, hr, rfl⟩
  | performed hc _ hp => exact absurd h (answer_of_performs hn hcpu hc hp hk e)

/-! ## What a refusal leaves of memory -/

variable [MemoryView M] [PageView M] [LawfulMemory M] [LawfulPages M]

/-- **A refused call leaves memory as it was**, whatever it had begun. -/
theorem Refuses.unchanged {e : KernelError} (hr : Refuses k cpu e k') (h : Housed m₀ k)
    (hsound : Sound policy ncpu k) (hcpu : cpu < ncpu) (ha : Accounted k.memory) :
    Unchanged k.memory k'.memory ∧ SamePages k.memory k'.memory := by
  cases hr with
  | check => exact ⟨.refl h.valid, ha, fun _ => .rfl⟩
  | unknown => exact ⟨.refl h.valid, ha, fun _ => .rfl⟩
  | noSpace hop =>
    exact ⟨LawfulMemory.createSpace_error h.valid hop, LawfulPages.createSpace_error ha hop⟩
  | noPage hop => exact ⟨LawfulMemory.allocPage_error h.valid hop, LawfulPages.allocPage_error ha hop⟩
  | unshared hs _ hop =>
    have hlive := h.live_pgdir (hsound.resolve_ne_free hcpu hs)
    exact ⟨LawfulMemory.insert_error h.valid hlive hop, LawfulPages.insert_error ha hlive hop⟩
  | @unsupplied s _ _ _ page _ _ _ hs _ _ halloc hop =>
    have hpage := LawfulMemory.allocPage_ok h.valid halloc
    have hlive := (hpage.live _).2 (h.live_pgdir (hsound.governs_ne_free hcpu hs))
    have hfailed := LawfulMemory.insert_error hpage.valid hlive hop
    obtain ⟨ha₁, hnew, htaken⟩ := LawfulPages.allocPage_ok ha halloc
    obtain ⟨ha₂, hsame⟩ := LawfulPages.insert_error ha₁ hlive hop
    obtain ⟨ha₃, hfreed⟩ := @LawfulPages.freePage M _ _ _ _ _ page ha₂
    refine ⟨(LawfulMemory.freePage hfailed.valid).after (hfailed.after hpage), ha₃, fun p => ?_⟩
    -- the page that is given back is the one that was taken, which was not in use before
    rw [hfreed, hsame, htaken]
    exact ⟨fun hp => hp.2.resolve_left hp.1, fun hp => ⟨fun heq => hnew (heq ▸ hp), .inr hp⟩⟩

/-! ## A program that cannot be loaded -/

omit [MemoryView M] [PageView M] [LawfulMemory M] [LawfulPages M] in
/-- **A slot that is taken and given back** is the first on the list of its CPU again, and no other
slot and no queue has changed. -/
theorem Sound.free_occupy (h : Sound policy ncpu k) (hcpu : cpu < ncpu)
    (hs : (k.runQueue cpu).freeHead = some s) (dir : PageDir) (mem mem' : M) :
    let k' := State.free s { k.occupy cpu s none dir mem with memory := mem' }
    (∀ c, k'.queue c = k.queue c) ∧ (∀ t, t ≠ s → k'.env t = k.env t) ∧
      (k'.env s).status = .free ∧ (k'.env s).nextFree = (k.env s).nextFree ∧
      (k'.env s).cpu = (k.env s).cpu := by
  intro k'
  obtain ⟨howns, hfree⟩ := h.head (h.queueOf_lt hcpu) hs
  have hlt := h.queueOf_lt hcpu
  let k₁ : State M := { k.occupy cpu s none dir mem with memory := mem' }
  have hk₁ : k₁.env s = occupied (k.env s) s none dir := by
    change (k.occupy cpu s none dir mem).env s = _
    rw [env_occupy, if_pos rfl]
  -- the slot names the queue it was taken from
  have hcpu₁ : (k₁.env s).cpu = k.queueOf cpu := by
    rw [hk₁]
    exact h.owner _ s howns
  have hown : k₁.queueOf (k₁.env s).cpu = k.queueOf cpu := by
    rw [hcpu₁]
    exact h.queueOf_self hlt
  have hqueue : ∀ c, k₁.queue c =
      if c = k.queueOf cpu then { k.queue c with freeHead := (k.env s).nextFree } else k.queue c :=
    fun c => queue_occupy k cpu s c none dir mem
  have hhead : (k.queue (k.queueOf cpu)).freeHead = some s := hs
  have hcur : (k.queue (k.queueOf cpu)).current ≠ some s := fun hcur =>
    (h.current _ s hlt hcur).2 hfree
  have henv : k'.env s =
      { k₁.env s with pgdir := PageDir.null, status := .free, inbox := {}, parent := none,
                      nextFree := (k₁.runQueue (k₁.env s).cpu).freeHead } :=
    (env_free k₁ s s).trans (if_pos rfl)
  refine ⟨fun c => ?_, fun t ht => ?_, ?_, ?_, ?_⟩
  · refine (queue_free k₁ s c).trans ?_
    rw [hown, hqueue]
    by_cases hc : c = k.queueOf cpu
    · subst hc
      simp only [if_true, if_neg hcur]
      rw [← hhead]
    · simp only [if_neg hc]
  · refine (env_free k₁ s t).trans ?_
    rw [if_neg ht]
    exact (env_occupy k cpu s t none dir mem).trans (if_neg ht)
  · rw [henv]
  · rw [henv]
    change (k₁.runQueue (k₁.env s).cpu).freeHead = _
    rw [runQueue, hown, hqueue, if_pos rfl]
  · rw [henv]
    change (k₁.env s).cpu = (k.env s).cpu
    rw [hk₁]
    rfl

omit [PageView M] [LawfulPages M] in
/-- Making an environment that is refused after its slot was taken gives everything back. -/
theorem Housed.unchanged_create (h : Housed m₀ k) {image : Image} {dir : PageDir} {mem mem' : M}
    {e : MemoryError} (hdir : Memory.createSpace k.memory = .ok dir mem)
    (hload : Memory.loadImage dir image mem = .error e mem') :
    Unchanged k.memory
      (State.free s { k.occupy cpu s none dir mem with memory := mem' }).memory := by
  have hmade := LawfulMemory.createSpace_ok h.valid hdir
  have hlive : Live mem dir := (hmade.live dir).2 (.inl rfl)
  have hfilled := LawfulMemory.loadImage_error hmade.valid hlive hload
  have hpgdir : ((k.occupy cpu s none dir mem).env s).pgdir = dir := by
    rw [env_occupy, if_pos rfl]
    rfl
  rw [memory_free]
  change Unchanged k.memory (Memory.destroySpace ((k.occupy cpu s none dir mem).env s).pgdir mem')
  rw [hpgdir]
  exact hmade.undone hfilled (LawfulMemory.destroySpace hfilled.valid ((hfilled.live dir).2 hlive))

/-! ## Reached states -/

/-- A call whose caller reads an error has changed the caller's saved registers, and nothing else. -/
theorem Reached.kept_of_answer (h : Reached policy ncpu m₀ k) (hm : Valid m₀) (ha : Accounted m₀)
    (hcpu : cpu < ncpu) {e : CallError} (hanswer : k.answer cpu tf = some (.error e)) :
    ∃ s k', k.current cpu = some s ∧ k.syscall cpu tf = (.resume, k') ∧
      k'.env s = { k.env s with frame := { tf with eax := encodeResult (.error e) } } ∧
      (∀ t, t ≠ s → k'.env t = k.env t) ∧ (∀ c, k'.queue c = k.queue c) ∧ k'.policy = k.policy ∧
      Unchanged k.memory k'.memory ∧ ∀ page, Taken k'.memory page ↔ Taken k.memory page := by
  have hsound := h.sound
  have hlt : cpu < 0x80000000 :=
    Nat.lt_of_lt_of_le hcpu (Nat.le_trans hsound.division.le (by decide))
  obtain ⟨s, e', k₁, hc, hr, hk⟩ := refuses_of_answer h.numbered hlt
    (fun s hs => hsound.current_ne_free hcpu hs) hanswer
  have hsaved : Sound policy ncpu (k.save s tf) := hsound.setEnv (.of_registers _ _ _)
  have hhoused : Housed m₀ (k.save s tf) :=
    (h.housed hm).setEnv (Env.Alike.of_registers _ _ _).toStays
  obtain ⟨hmem, -, htaken⟩ := hr.unchanged hhoused hsaved hcpu (h.accounted hm ha)
  obtain ⟨-, hqueues, hpolicy⟩ := hr.kept
  refine ⟨s, _, hc, hk, ?_, fun t ht => ?_, fun c => congrArg (·[c]) hqueues, hpolicy, hmem, htaken⟩
  · rw [env_setResult, if_pos rfl, hr.env_eq, env_save, if_pos rfl]
  · rw [env_setResult, if_neg ht, hr.env_eq, env_save, if_neg ht]

/-- **A refusal leaves no trace.** In every reached state a system call whose caller reads an error has
changed nothing but the caller's saved registers, which are those of the call with the error in place
of the result: every slot is otherwise as it was, every run queue with its list of free slots, every
address space with its mappings, and the same pages are in use. Making an environment that is refused,
at whatever step, leaves every slot alone but the first free one of the CPU, which stays free where it
was on the list, and every run queue and every address space. -/
theorem Reached.refusal_leaves_no_trace (h : Reached policy ncpu m₀ k) (hm : Valid m₀)
    (ha : Accounted m₀) (hcpu : cpu < ncpu) :
    (∀ tf e, k.answer cpu tf = some (.error e) →
      ∃ s k', k.current cpu = some s ∧ k.syscall cpu tf = (.resume, k') ∧
        k'.env s = { k.env s with frame := { tf with eax := encodeResult (.error e) } } ∧
        (∀ t, t ≠ s → k'.env t = k.env t) ∧ (∀ c, k'.queue c = k.queue c) ∧
        k'.policy = k.policy ∧ Unchanged k.memory k'.memory ∧
        ∀ page, Taken k'.memory page ↔ Taken k.memory page) ∧
      ∀ image e k', (create image cpu).run k = (.error e, k') →
        (∀ t, (k.runQueue cpu).freeHead ≠ some t → k'.env t = k.env t) ∧
        (∀ t, (k.env t).status ≠ .free → k'.env t = k.env t) ∧
        (∀ t, (k.env t).status = .free →
          (k'.env t).status = .free ∧ (k'.env t).nextFree = (k.env t).nextFree) ∧
        (∀ c, k'.queue c = k.queue c) ∧ k'.policy = k.policy ∧
        Unchanged k.memory k'.memory := by
  have hsound := h.sound
  have hhoused := h.housed hm
  refine ⟨fun tf e hanswer => h.kept_of_answer hm ha hcpu hanswer, fun image e k' hrun => ?_⟩
  have hall : Ends (create image cpu) k fun r k' => ∀ e, r = .error e →
      (∀ t, (k.runQueue cpu).freeHead ≠ some t → k'.env t = k.env t) ∧
      (∀ t, (k.env t).status ≠ .free → k'.env t = k.env t) ∧
      (∀ t, (k.env t).status = .free →
        (k'.env t).status = .free ∧ (k'.env t).nextFree = (k.env t).nextFree) ∧
      (∀ c, k'.queue c = k.queue c) ∧ k'.policy = k.policy ∧ Unchanged k.memory k'.memory := by
    refine ends_create (fun _ _ _ => ?_) (fun e mem hdir _ _ => ?_)
      (fun s dir mem e mem' hs hdir hload _ _ => ?_) fun _ _ _ _ _ _ _ _ => nofun
    · exact ⟨fun _ _ => rfl, fun _ _ => rfl, fun _ ht => ⟨ht, rfl⟩, fun _ => rfl, rfl,
        .refl hhoused.valid⟩
    · exact ⟨fun _ _ => rfl, fun _ _ => rfl, fun _ ht => ⟨ht, rfl⟩, fun _ => rfl, rfl,
        LawfulMemory.createSpace_error hhoused.valid hdir⟩
    · obtain ⟨hqueue, hother, hfree, hnext, -⟩ := hsound.free_occupy hcpu hs dir mem mem'
      refine ⟨fun t ht => hother t fun heq => ht (heq ▸ hs), fun t ht => hother t ?_, fun t ht => ?_,
        hqueue, rfl, hhoused.unchanged_create hdir hload⟩
      · rintro rfl
        exact ht (hsound.head (hsound.queueOf_lt hcpu) hs).2
      · by_cases hts : t = s
        · rw [hts]
          exact ⟨hfree, hnext⟩
        · rw [hother t hts]
          exact ⟨ht, rfl⟩
  have hend := Op.ends_iff_run.1 hall
  rw [hrun] at hend
  exact hend e rfl

/-- With memory for one environment and its stack only, the environment is refused another page. -/
theorem Reached.refusal_leaves_no_trace_memory :
    ∃ (k k' : State Frames) (tf : TrapFrame), Reached .perCpu 1 ({ budget := some 2 } : Frames) k ∧
      Valid ({ budget := some 2 } : Frames) ∧ Accounted ({ budget := some 2 } : Frames) ∧ 0 < 1 ∧
      k.answer 0 tf = some (.error .outOfMemory) ∧ k.syscall 0 tf = (.resume, k') ∧
      k'.env 0 = { k.env 0 with frame := { tf with eax := encodeResult (.error .outOfMemory) } } ∧
      ∀ page, Taken k'.memory page ↔ Taken k.memory page := by
  have hm : Valid ({ budget := some 2 } : Frames) := ⟨.nil, nofun⟩
  have ha : Accounted ({ budget := some 2 } : Frames) := ⟨nofun, nofun⟩
  let tf := TrapFrame.user.calling Call.pageAlloc.number { second := 0x800000, third := 7 }
  obtain ⟨k, hk, hseen⟩ := exists_of_map_toOption
    (f := fun k => ((k.answer 0 tf).map fun r => (r.isOk, encodeResult r), k.current 0))
    (b := (some (false, encodeResult (.error .outOfMemory)), some 0))
    (x := ran .perCpu 1 ({ budget := some 2 } : Frames) [.create [0x7f] 0, .schedule 0])
    (by decide +kernel)
  obtain ⟨hanswer, hcur⟩ := Prod.mk.inj hseen
  obtain ⟨r, hanswer, hr⟩ := Option.map_eq_some_iff.1 hanswer
  obtain ⟨hno, hword⟩ := Prod.mk.inj hr
  obtain rfl : r = .error .outOfMemory := by
    cases r with
    | ok => cases hno
    | error e => cases e <;> first | rfl | cases hword
  have h := reached_of_ran hk
  obtain ⟨hcall, -⟩ := h.refusal_leaves_no_trace hm ha (by decide : 0 < 1)
  obtain ⟨s, k', hs, hk', henv, -, -, -, -, htaken⟩ := hcall tf _ hanswer
  obtain rfl : 0 = s := Option.some.inj (hcur.symm.trans hs)
  exact ⟨k, k', tf, h, hm, ha, by decide, hanswer, hk', henv, htaken⟩

end State

end Exokernel
