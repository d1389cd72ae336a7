import Exokernel.Proofs.Mappings
/-!
# Worlds that are played

A world of counted page frames can be played: it is told what the environment that has the CPU does
next, and goes on as far as memory suffices (`World.play`). What is played is a run of the world
(`World.Run.play`); whom a call wakes is found out by asking whom it names.
-/

namespace Exokernel

open MemoryView PageView Memory

instance (va : Nat) : Decidable (Ordinary va) := inferInstanceAs (Decidable (_ ∧ _))

namespace State

variable {M : Type}

/-- The environment that runs on a CPU. -/
def running? (k : State M) (cpu : Nat) : Option Slot :=
  (k.current cpu).filter fun s => (k.env s).status = .running

/-- The environment a word names, if it can run now and could not before. -/
def woken? (k k' : State M) (cpu : Nat) (raw : UInt32) : Option Slot :=
  (k.resolve cpu raw true).toOption.filter fun t =>
    !(k.env t).status.canRun && (k'.env t).status.canRun

end State

namespace World

/-- What is to happen next. -/
inductive Cue where
  | read (va : Nat)
  | write (va : Nat) (b : UInt8)
  | fork (entry : Nat)
  /-- What the environment is in the middle of goes on up to the next call, or to its end. -/
  | go
  | schedule

/-- The page that user code can write at an address. -/
def writable? (w : World Frames) (s : Slot) (va : Nat) : Option PhysPage :=
  match w.kernel.mapping s (pageOf va) with
  | some (page, perm) => if perm.contains Perm.userWrite then some page else none
  | none => none

section Program

variable {α : Type} (k : State Frames) (s : Slot)

/-- A program goes on for at most so many steps, until it calls the kernel. -/
def quietly : Nat → Contents → Program α → Contents × Program α
  | n + 1, contents, .result f => quietly n contents (f (k.env s).frame.eax)
  | n + 1, contents, .inbox f => quietly n contents (f (k.env s).inbox.words)
  | n + 1, contents, .tablePresent va f =>
    quietly n contents (f (Frames.tablePresent k.memory (k.env s).pgdir va))
  | n + 1, contents, .pagePerm va f => quietly n contents (f ((k.mapping s va).map (·.2)))
  | n + 1, contents, .copyPage src dst p =>
    match k.mapping s src, k.mapping s dst with
    | some (page, perm), some (page', perm') =>
      if perm.contains Perm.userRead && perm'.contains Perm.userWrite then
        quietly n (contents.copy page page') p
      else (contents, .copyPage src dst p)
    | _, _ => (contents, .copyPage src dst p)
  | n + 1, contents, .say _ p => quietly n contents p
  | _, contents, p => (contents, p)

/-- A call of a program, with the environment it wakes. Memory has to suffice for it. -/
def call? (cpu : Nat) : Program α → Option (Option Slot × State Frames × Program α)
  | .enter c args p =>
    let tf := TrapFrame.user.calling c.number args
    if c.copies then
      match State.performNumber cpu tf.eax tf.args (k.mapEnv s fun e => { e with frame := tf }) with
      | .error (.memory _) _ => none
      | _ =>
        let k' := (k.syscall cpu tf).2
        some (k.woken? k' cpu args.first, k', p)
    else none
  | _ => none

end Program

/-- An environment goes on up to its next call. -/
def settled (w : World Frames) (s : Slot) : World Frames :=
  match w.task s with
  | .rests => w
  | .forks p =>
    let (contents, p') := quietly w.kernel s 4096 w.contents p
    ({ w with contents := contents } : World Frames).doing s (.forks p')
  | .faults va b p =>
    let (contents, p') := quietly w.kernel s 4096 w.contents p
    ({ w with contents := contents } : World Frames).doing s (.faults va b p')

/-- The next call of an environment, or its end. -/
def goOn? (w : World Frames) (cpu : Nat) (s : Slot) : Option (Option Event × World Frames) :=
  match w.task s with
  | .rests => none
  | .forks (.done r) => some (some (.forked s r), w.doing s .rests)
  | .forks p => (call? w.kernel s cpu p).map fun (woken, k, p') =>
      (woken.map (.start s), w.forking k w.contents s p')
  | .faults va b (.done (.ok ())) => (w.writable? s va).map fun page =>
      (some (.write s va b), (w.written page va b).doing s .rests)
  | .faults va _ (.done (.error _)) => some (some (.refuse s va), w.doing s .rests)
  | .faults va b p => (call? w.kernel s cpu p).map fun (_, k, p') =>
      (none, ({ w with kernel := k } : World Frames).doing s (.faults va b p'))

/-- What an environment begins that rests. -/
def begin? (w : World Frames) (s : Slot) : Cue → Option (Option Event × World Frames)
  | .read va => if Ordinary va then some (some (.read s va (w.byte s va)), w) else none
  | .write va b =>
    if Ordinary va then
      match w.writable? s va with
      | some page => some (some (.write s va b), w.written page va b)
      | none => some (none, w.doing s (.faults va b
          (User.handleCowFault Program.syscalls Program.space va User.faultOnWrite).run))
    else none
  | .fork entry => some (none, w.doing s
      (.forks (User.fork Program.syscalls Program.space entry).run))
  | _ => none

/-- What happens next on a CPU, if it can. -/
def next? (w : World Frames) (cpu : Nat) (cue : Cue) : Option (Option Event × World Frames) :=
  match cue, w.kernel.running? cpu with
  | .schedule, _ =>
    match w.kernel.scheduleNext cpu with
    | .ok (_, k) => some (none, { w with kernel := k })
    | .error _ => none
  | _, none => none
  | .go, some s => (w.settled s).goOn? cpu s
  | cue, some s =>
    match w.task s with
    | .rests => w.begin? s cue
    | _ => none

/-- What happens on cue, one after the other. -/
def play (cpu : Nat) : List Cue → World Frames → List Event → Option (List Event × World Frames)
  | [], w, l => some (l, w)
  | cue :: cues, w, l =>
    match w.next? cpu cue with
    | some (e, w') => play cpu cues w' (l ++ e.toList)
    | none => none

/-! ## What is played is a run -/

end World

namespace State

/-- **A call by which environments are copied** wakes nobody but whom it names. -/
theorem Reached.resolve_of_wakes {M : Type} [Memory M] [MemoryView M] [PageView M] [LawfulMemory M]
    [LawfulPages M] [FiniteMap M] [FreshPages M] {k : State M} {policy : Policy} {ncpu cpu : Nat}
    {m₀ : M} {s t : Slot} {tf : TrapFrame} {call : Call} (h : Reached policy ncpu m₀ k)
    (hm : Valid m₀) (ha : Accounted m₀) (ht : Tidy m₀) (hcpu : cpu < ncpu)
    (hcur : k.current cpu = some s) (hcall : call.copies = true) (htf : tf.eax = call.number)
    (hwakes : k.Wakes (k.syscall cpu tf).2 t) : k.resolve cpu tf.args.first true = .ok t := by
  have hquiet : ∀ {w : UInt32} {P : Slot → Prop}, Answers k (k.syscall cpu tf).2 s w P → P t :=
    fun hanswers => Classical.byContradiction fun hnot =>
      hwakes.1 ((hanswers.same t hnot).status ▸ hwakes.2)
  rcases h.remaps hm ha ht hcpu hcur hcall htf with ⟨_, _, -, -, hanswers⟩ | hremaps
  · exact (hquiet hanswers).elim
  · generalize (k.syscall cpu tf).2 = k' at hremaps hwakes hquiet
    cases hremaps with
    | supplied _ _ _ _ hanswers | shared _ _ _ _ _ hanswers | removed _ _ hanswers
    | upcall _ hanswers => exact (hquiet hanswers).elim
    | made _ _ _ hanswers hwaits =>
      have hrun := hwakes.2
      rw [hquiet hanswers, hwaits] at hrun
      cases hrun
    | set _ hres _ _ _ hanswers =>
      rw [hquiet hanswers]
      exact hres

variable {M : Type} {k k' : State M} {cpu ncpu : Nat} {s t : Slot} {raw : UInt32}

theorem woken?_eq_some_iff : k.woken? k' cpu raw = some t ↔
    k.resolve cpu raw true = .ok t ∧ k.Wakes k' t := by
  unfold woken? Wakes
  rw [Option.filter_eq_some_iff]
  cases k.resolve cpu raw true with
  | error e => simp [Except.toOption]
  | ok u => simp [Except.toOption]

theorem runs_of_running? (hcpu : cpu < ncpu) (h : k.running? cpu = some s) : k.Runs ncpu cpu s := by
  obtain ⟨hcur, hrunning⟩ := Option.filter_eq_some_iff.1 h
  exact ⟨hcpu, hcur, of_decide_eq_true hrunning⟩

end State

namespace World

variable {w w₀ w' : World Frames} {l : List Event} {e : Option Event} {cpu ncpu : Nat} {s : Slot}
  {va : Nat} {page : PhysPage}

theorem writable?_eq_some_iff : w.writable? s va = some page ↔ w.WritableAt s va page := by
  unfold writable? WritableAt
  cases w.kernel.mapping s (pageOf va) with
  | none => simp
  | some e =>
    obtain ⟨page', perm⟩ := e
    by_cases hperm : perm.contains Perm.userWrite = true
    · simp only [hperm, if_true, Option.some.injEq, Prod.mk.injEq]
      constructor
      · rintro rfl
        exact ⟨perm, ⟨rfl, rfl⟩, hperm⟩
      · rintro ⟨_, ⟨rfl, rfl⟩, -⟩
        rfl
    · simp only [hperm, Option.some.injEq, Prod.mk.injEq]
      constructor
      · nofun
      · rintro ⟨_, ⟨rfl, rfl⟩, hwrite⟩
        exact absurd hwrite hperm

/-- A page table without pages covers no mapping. -/
theorem mapping_of_tablePresent {k : State Frames}
    (hb : Frames.tablePresent k.memory (k.env s).pgdir va = false) (u : Nat)
    (hu : u / Layout.tableSpan = va / Layout.tableSpan) : k.mapping s u = none := by
  unfold State.mapping
  split
  · rfl
  · cases hlookup : Memory.lookup k.memory (k.env s).pgdir u with
    | none => rfl
    | some x =>
      have hentry := Assoc.mem_entries_of_get? hlookup
      have hpresent := List.any_eq_false.1 hb _ hentry
      simp [hu] at hpresent

/-- **What each step of a program keeps**, going on quietly keeps. -/
theorem quietly_keeps {α : Type} {allowed : KernelError → Prop} {k : State Frames}
    {P : Contents → Program α → Prop}
    (hstep : ∀ {contents contents' p p'}, P contents p →
      Turn allowed k contents cpu s p k contents' p' → P contents' p') :
    ∀ (n : Nat) (contents : Contents) (p : Program α), P contents p →
      P (quietly k s n contents p).1 (quietly k s n contents p).2 := by
  intro n
  induction n with
  | zero => exact fun _ _ h => h
  | succ n ih =>
    intro contents p h
    cases p with
    | done a => exact h
    | enter c args p => exact h
    | result f => exact ih _ _ (hstep h .result)
    | inbox f => exact ih _ _ (hstep h .inbox)
    | tablePresent va f =>
      exact ih _ _ (hstep h (.tablePresent mapping_of_tablePresent))
    | pagePerm va f => exact ih _ _ (hstep h .pagePerm)
    | say r p => exact ih _ _ (hstep h .say)
    | copyPage src dst p =>
      unfold quietly
      split
      · next page perm page' perm' hsrc hdst =>
        split
        · next hrights =>
          obtain ⟨hread, hwrite⟩ := Bool.and_eq_true_iff.1 hrights
          exact ih _ _ (hstep h (.copyPage hsrc hdst hread hwrite))
        · exact h
      · exact h

theorem Run.step (h : Run ncpu w₀ l w) (hstep : Step ncpu w e w') :
    Run ncpu w₀ (l ++ e.toList) w' := by
  cases e with
  | none => exact (List.append_nil l).symm ▸ .quiet h hstep
  | some e => exact .event h hstep

/-- One step of a fork that is no call. -/
theorem Run.forksOn {contents contents' : Contents}
    {p p' : Program (Except CallError (Option EnvId))}
    (h : Run ncpu w₀ l (({ w with contents := contents } : World Frames).doing s (.forks p)))
    (hs : w.kernel.Runs ncpu cpu s)
    (hturn : Turn (fun _ => True) w.kernel contents cpu s p w.kernel contents' p') :
    Run ncpu w₀ l (({ w with contents := contents' } : World Frames).doing s (.forks p')) := by
  let w₁ := ({ w with contents := contents } : World Frames).doing s (.forks p)
  have hstep : Step ncpu w₁ none (w₁.forking w₁.kernel contents' s p') :=
    .forking hs (if_pos rfl) hturn fun _ hwakes => hwakes.1 hwakes.2
  have hafter : w₁.forking w₁.kernel contents' s p' =
      ({ w with contents := contents' } : World Frames).doing s (.forks p') :=
    (forking_self w₁ contents' s p').trans (doing_doing { w with contents := contents' } s _ _)
  exact hafter ▸ h.quiet hstep

/-- One step of a handler that is no call. -/
theorem Run.handlesOn {contents contents' : Contents} {b : UInt8}
    {p p' : Program (Except PageFaultError Unit)}
    (h : Run ncpu w₀ l (({ w with contents := contents } : World Frames).doing s (.faults va b p)))
    (hs : w.kernel.Runs ncpu cpu s)
    (hturn : Turn (fun e => ∀ short, e ≠ .memory short) w.kernel contents cpu s p w.kernel contents'
      p') :
    Run ncpu w₀ l (({ w with contents := contents' } : World Frames).doing s (.faults va b p')) := by
  let w₁ := ({ w with contents := contents } : World Frames).doing s (.faults va b p)
  have hstep : Step ncpu w₁ none
      (({ w₁ with contents := contents' } : World Frames).doing s (.faults va b p')) :=
    .handle hs (if_pos rfl) hturn
  have hafter : ({ w₁ with contents := contents' } : World Frames).doing s (.faults va b p') =
      ({ w with contents := contents' } : World Frames).doing s (.faults va b p') :=
    doing_doing { w with contents := contents' } s _ _
  exact hafter ▸ h.quiet hstep

/-- **Going on quietly** is a run that shows nothing. -/
theorem Run.settled (h : Run ncpu w₀ l w) (hs : w.kernel.Runs ncpu cpu s) :
    Run ncpu w₀ l (w.settled s) := by
  unfold World.settled
  cases htask : w.task s with
  | rests => exact h
  | forks p =>
    exact quietly_keeps (P := fun contents p =>
      Run ncpu w₀ l (({ w with contents := contents } : World Frames).doing s (.forks p)))
      (fun hrun hturn => hrun.forksOn hs hturn) 4096 w.contents p ((w.doing_self htask).symm ▸ h)
  | faults va b p =>
    exact quietly_keeps (P := fun contents p =>
      Run ncpu w₀ l (({ w with contents := contents } : World Frames).doing s (.faults va b p)))
      (fun hrun hturn => hrun.handlesOn hs hturn) 4096 w.contents p
      ((w.doing_self htask).symm ▸ h)

/-- A call that is made is a step of the program. -/
theorem turn_of_call? {α : Type} {k k' : State Frames} {p p' : Program α} {woken : Option Slot}
    (contents : Contents) (h : call? k s cpu p = some (woken, k', p')) :
    Turn (fun e => ∀ short, e ≠ .memory short) k contents cpu s p k' contents p' ∧
      ∃ (c : Call) (args : Args), c.copies = true ∧
        k' = (k.syscall cpu (TrapFrame.user.calling c.number args)).2 ∧
        woken = k.woken? k' cpu args.first := by
  unfold call? at h
  split at h
  · next c args p =>
    dsimp only at h
    split at h
    · next hcopies =>
      split at h
      · cases h
      · next hnot =>
        cases h
        refine ⟨.enter rfl rfl (fun e k' he short hshort => ?_) fun _ _ => rfl, c, args, hcopies, rfl,
          rfl⟩
        subst hshort
        exact hnot short k' he
    · cases h
  · cases h

section Play

variable {policy : Policy} {m₀ : Frames}

/-- **An environment that goes on** makes a step of the world. -/
theorem step_of_goOn? (hreached : State.Reached policy ncpu m₀ w.kernel) (hm : Valid m₀)
    (ha : Accounted m₀) (ht : Tidy m₀) (hs : w.kernel.Runs ncpu cpu s)
    (h : w.goOn? cpu s = some (e, w')) : Step ncpu w e w' := by
  unfold goOn? at h
  split at h
  · cases h
  · next r htask =>
    cases h
    exact .forked hs htask
  · next p _ htask =>
    obtain ⟨⟨woken, k, p'⟩, hcall, heq⟩ := Option.map_eq_some_iff.1 h
    cases heq
    obtain ⟨hturn, c, args, hcopies, rfl, hwoken⟩ := turn_of_call? w.contents hcall
    have hturn' := hturn.imp fun _ _ => trivial
    cases hw : w.kernel.woken? _ cpu args.first with
    | none =>
      refine hwoken ▸ hw ▸ .forking hs htask hturn' fun t hwakes => ?_
      have hres := hreached.resolve_of_wakes hm ha ht hs.1 hs.2.1 hcopies rfl hwakes
      cases hw.symm.trans (State.woken?_eq_some_iff.2 ⟨hres, hwakes⟩)
    | some t =>
      exact hwoken ▸ hw ▸ .start hs htask hturn' (State.woken?_eq_some_iff.1 hw).2
  · next va b htask =>
    obtain ⟨page, hpage, heq⟩ := Option.map_eq_some_iff.1 h
    cases heq
    exact .retry hs htask (writable?_eq_some_iff.1 hpage)
  · next va b e htask =>
    cases h
    exact .refuse hs htask
  · next va b p _ _ htask =>
    obtain ⟨⟨woken, k, p'⟩, hcall, heq⟩ := Option.map_eq_some_iff.1 h
    cases heq
    exact .handle hs htask (turn_of_call? _ hcall).1

/-- **What an environment begins** is a step of the world. -/
theorem step_of_begin? {cue : Cue} (hs : w.kernel.Runs ncpu cpu s) (htask : w.task s = .rests)
    (h : w.begin? s cue = some (e, w')) : Step ncpu w e w' := by
  unfold begin? at h
  split at h
  · split at h
    · next hva =>
      cases h
      exact .read hs htask hva
    · cases h
  · next va b =>
    split at h
    · next hva =>
      split at h
      · next page hpage =>
        cases h
        exact .write hs htask hva (writable?_eq_some_iff.1 hpage)
      · next hnone =>
        cases h
        refine .fault hs htask hva (fun page hpage => ?_) (by decide)
        cases hnone.symm.trans (writable?_eq_some_iff.2 hpage)
    · cases h
  · cases h
    exact .fork _ hs htask
  · cases h

/-- A step leaves a state of the kernel that operations lead to. -/
theorem Step.reached (h : Step ncpu w e w') (hreached : State.Reached policy ncpu m₀ w.kernel) :
    State.Reached policy ncpu m₀ w'.kernel := by
  have hturns : ∀ {α : Type} {allowed : KernelError → Prop} {cpu : Nat} {s : Slot}
      {p p' : Program α} {k : State Frames} {contents : Contents}, w.kernel.Runs ncpu cpu s →
      Turn allowed w.kernel w.contents cpu s p k contents p' → State.Reached policy ncpu m₀ k := by
    intro α allowed cpu s p p' k contents hs hturn
    cases hturn with
    | enter => exact hreached.step (a := .syscall cpu _) hs.1 rfl
    | _ => exact hreached
  cases h with
  | schedule hcpu hk => exact hreached.step (a := .schedule _) hcpu (congrArg (Prod.snd <$> ·) hk)
  | resume hcpu hk => exact hreached.step (a := .resume _) hcpu (congrArg (Prod.snd <$> ·) hk)
  | reap hcpu => exact hreached.step (a := .reap _) hcpu rfl
  | handle hs _ hturn | forking hs _ hturn _ | start hs _ hturn _ => exact hturns hs hturn
  | read | write | fault | retry | refuse | fork | forked => exact hreached

/-- **What happens on cue** goes on a run. -/
theorem Run.next {cue : Cue} (h : Run ncpu w₀ l w)
    (hreached : State.Reached policy ncpu m₀ w.kernel) (hm : Valid m₀) (ha : Accounted m₀)
    (ht : Tidy m₀) (hcpu : cpu < ncpu) (hnext : w.next? cpu cue = some (e, w')) :
    Run ncpu w₀ (l ++ e.toList) w' ∧ State.Reached policy ncpu m₀ w'.kernel := by
  have hsteps : ∀ {w : World Frames}, Run ncpu w₀ l w →
      State.Reached policy ncpu m₀ w.kernel → Step ncpu w e w' →
      Run ncpu w₀ (l ++ e.toList) w' ∧ State.Reached policy ncpu m₀ w'.kernel :=
    fun hrun hreached hstep => ⟨hrun.step hstep, hstep.reached hreached⟩
  unfold next? at hnext
  split at hnext
  · split at hnext
    · next hk =>
      cases hnext
      exact hsteps h hreached (.schedule hcpu hk)
    · cases hnext
  · cases hnext
  · next s hrunning =>
    have hs := State.runs_of_running? hcpu hrunning
    have hkernel : (w.settled s).kernel = w.kernel := by
      unfold World.settled
      split <;> rfl
    rw [← hkernel] at hreached hs
    exact hsteps (h.settled (hkernel ▸ hs)) hreached
      (step_of_goOn? hreached hm ha ht hs hnext)
  · next s _ _ hrunning =>
    have hs := State.runs_of_running? hcpu hrunning
    split at hnext
    · next htask => exact hsteps h hreached (step_of_begin? hs htask hnext)
    · cases hnext

/-- **What is played is a run of the world.** -/
theorem Run.play (hm : Valid m₀) (ha : Accounted m₀) (ht : Tidy m₀) (hcpu : cpu < ncpu)
    {l' : List Event} (cues : List Cue) : ∀ {w : World Frames} {l : List Event}, Run ncpu w₀ l w →
      State.Reached policy ncpu m₀ w.kernel → World.play cpu cues w l = some (l', w') →
      Run ncpu w₀ l' w' := by
  induction cues with
  | nil =>
    intro w l hrun _ hplay
    cases hplay
    exact hrun
  | cons cue cues ih =>
    intro w l hrun hreached hplay
    unfold World.play at hplay
    split at hplay
    · next hnext =>
      obtain ⟨hrun', hreached'⟩ := hrun.next hreached hm ha ht hcpu hnext
      exact ih hrun' hreached' hplay
    · cases hplay

end Play

end World

end Exokernel
