import Exokernel.Proofs.Plays
import Exokernel.Proofs.Turning
/-!
# Copy-on-write is copying

Environments fork and read and write their own pages, on any CPUs and in any order, and none of them
can tell that pages are shared: whatever happens in a run could happen as well if every fork had given
the child a copy of its own of everything (`World.Run.copies_on_write`). `World.Tracks` ties a world to
what the environments would have without sharing. Each step of the world is either none without
sharing, or the one step it shows (`World.Tracks.step`).
-/

namespace Exokernel

open MemoryView PageView Memory Sharing

/-- What an environment is doing suits its phase. -/
def Phase.Suits (φ : Phase) (w : UInt32) : Task → Prop
  | .rests => φ = .alone
  | .forks p => φ.handles = false ∧ Obeys ForkEnds φ (p.answered w)
  | .faults va _ p =>
    Ordinary va ∧ φ.handles = true ∧ Obeys (FaultEnds (pageOf va)) φ (p.answered w)

/-- What happens without sharing while a world shows an event, or none. -/
def Copying.Follows (c : Copying) : Option World.Event → Copying → Prop
  | none, c' => c' = c
  | some e, c' => Step c e c'

/-- What an environment keeps while others get the CPU, and it may get it. -/
structure Env.Waits (e e' : Env) : Prop where
  lastId : e'.lastId = e.lastId
  parent : e'.parent = e.parent
  pgdir : e'.pgdir = e.pgdir
  frame : e'.frame = e.frame
  canRun : e'.status.canRun = e.status.canRun
  status : e.status.canRun = false → e'.status = e.status

theorem State.waits_running {M : Type} {k : State M} {s : Slot}
    (hs : (k.env s).status.canRun = true) (cpu : Nat) (u : Slot) :
    Env.Waits (k.env u) ((k.running cpu s).env u) := by
  rw [env_running]
  split
  · next hu =>
    subst hu
    exact ⟨rfl, rfl, rfl, rfl, hs.symm, fun hnot => by rw [hnot] at hs; cases hs⟩
  · split
    · next hrunning =>
      exact ⟨rfl, rfl, rfl, rfl, by rw [hrunning.2]; rfl, fun hnot => by
        rw [hrunning.2] at hnot; cases hnot⟩
    · exact ⟨rfl, rfl, rfl, rfl, rfl, fun _ => rfl⟩

/-- Where no child was started there is nothing to settle. -/
theorem Copying.settle_of_none {c : Copying} {s : Slot} (h : c.child s = none) : c.settle s = c := by
  unfold Copying.settle
  congr 1
  funext t
  split
  · next ht => rw [ht, h]
  · rfl

namespace World

variable {M : Type} [Memory M]

/-- **A world in which it begins**: its kernel is one that came about, every environment rests, all
pages can be read by user code, nothing is at the scratch address and no page is mapped twice. -/
structure Begins (policy : Policy) (ncpu : Nat) (m₀ : M) (w : World M) : Prop where
  reached : State.Reached policy ncpu m₀ w.kernel
  rests : ∀ s, w.task s = .rests
  readable : ∀ s va page p, w.kernel.mapping s va = some (page, p) →
    p.contains Perm.userRead = true
  scratch : ∀ s, w.kernel.mapping s Layout.scratchPage = none
  once : ∀ s va t va' page p q, w.kernel.mapping s va = some (page, p) →
    w.kernel.mapping t va' = some (page, q) → t = s ∧ va' = va

/-- **The world is as the copying says**, and every environment goes on as its phase asks. -/
structure Tracks (policy : Policy) (ncpu : Nat) (m₀ : M) (w : World M) (phase : Slot → Phase)
    (c : Copying) : Prop where
  coherent : Coherent policy ncpu m₀ w.kernel w.contents phase c
  suits : ∀ s, (w.kernel.env s).status ≠ .free →
    (phase s).Suits (w.kernel.env s).frame.eax (w.task s)

variable {policy : Policy} {ncpu cpu : Nat} {m₀ : M} {w w' : World M} {phase : Slot → Phase}
  {c c' : Copying} {s t : Slot} {va : Nat} {b : UInt8} {φ : Phase} {contents : Contents}
  {k : State M} {page : PhysPage} {task : Task}

/-- What can be read is what is mapped. -/
theorem page_eq_mapping (h : ∀ page p, w.kernel.mapping s (pageOf va) = some (page, p) →
    p.contains Perm.userRead = true) : w.page s va = w.kernel.mapping s (pageOf va) := by
  unfold World.page
  cases hpage : w.kernel.mapping s (pageOf va) with
  | none => rfl
  | some e =>
    obtain ⟨page, p⟩ := e
    rw [Option.filter_some, if_pos (h page p hpage)]

/-- **Where it begins every environment has what it has.** -/
theorem Begins.tracks (h : w.Begins policy ncpu m₀) :
    w.Tracks policy ncpu m₀ (fun _ => .alone) w.copies := by
  refine ⟨⟨h.reached, ?_, fun s _ va _ => ?_, nofun, fun _ => rfl⟩, fun s _ => ?_⟩
  · exact ⟨h.readable, fun s va t va' page p q hp _ hq => .inl (h.once s va t va' page p q hp hq),
      fun s _ => h.scratch s, fun _ _ => rfl, nofun, nofun, fun _ => trivial⟩
  · change _ = (w.page s va).map _
    rw [page_eq_mapping fun page p => h.readable s _ page p]
    rfl
  · rw [h.rests]
    rfl

/-- **A byte is read** that its reader would have without sharing. -/
theorem Tracks.byte (h : w.Tracks policy ncpu m₀ phase c) (hs : w.kernel.Runs ncpu cpu s)
    (hva : Ordinary va) : w.byte s va = (c.cell s va).map (·.1) := by
  rw [← h.coherent.faithful s (Coherent.own_of_runs hs _ _) va hva]
  unfold World.byte
  rw [page_eq_mapping fun page p => h.coherent.safe.readable s _ page p]
  unfold Sharing.cell
  rw [Option.map_map]
  rfl

/-! ## The scheduler -/

/-- The scheduler has stopped or started some environments. -/
theorem Tracks.scheduled (h : w.Tracks policy ncpu m₀ phase c)
    (hreached : State.Reached policy ncpu m₀ k) (hmem : k.memory = w.kernel.memory)
    (henv : ∀ u, Env.Waits (w.kernel.env u) (k.env u)) :
    ({ w with kernel := k } : World M).Tracks policy ncpu m₀ phase c := by
  have hfree : ∀ u, (k.env u).status = .free ↔ (w.kernel.env u).status = .free := by
    intro u
    constructor
    · intro hu
      have hnot : (w.kernel.env u).status.canRun = false := by
        rw [← (henv u).canRun, hu]
        rfl
      rw [← (henv u).status hnot, hu]
    · intro hu
      rw [(henv u).status (by rw [hu]; rfl), hu]
  have hmaps : k.mapping = w.kernel.mapping :=
    State.mapping_congr hfree (fun u => (henv u).pgdir) fun u va _ => by rw [hmem]
  have heq : k.sharing w.contents phase = w.kernel.sharing w.contents phase :=
    State.sharing_eq hmaps fun u => (henv u).canRun
  have hcoherent := h.coherent
  refine ⟨⟨hreached, heq ▸ hcoherent.safe, heq ▸ hcoherent.faithful, fun s id hid => ?_,
    hcoherent.begun⟩, fun s hs => ?_⟩
  · have hraises := hcoherent.kin s id hid
    have hchild := henv id.slot
    refine ⟨?_, hchild.lastId.trans hraises.name, ?_⟩
    · rw [hchild.status (by rw [hraises.waits]; rfl), hraises.waits]
    · rw [hchild.parent, hraises.parent, (henv s).lastId]
  · have hsuits := h.suits s (mt (hfree s).2 hs)
    rw [← (henv s).frame] at hsuits
    exact hsuits

/-- **An environment gets a CPU.** -/
theorem Tracks.running (h : w.Tracks policy ncpu m₀ phase c)
    (hreached : State.Reached policy ncpu m₀ (w.kernel.running cpu s))
    (hs : (w.kernel.env s).status.canRun = true) :
    ({ w with kernel := w.kernel.running cpu s } : World M).Tracks policy ncpu m₀ phase c :=
  h.scheduled hreached (State.memory_running _ _ _) (State.waits_running hs cpu)

/-- **The scheduler shows nothing.** -/
theorem Tracks.schedule (h : w.Tracks policy ncpu m₀ phase c) (hcpu : cpu < ncpu)
    {d : Except NothingRunnable Dispatch} (hk : w.kernel.scheduleNext cpu = .ok (d, k)) :
    ({ w with kernel := k } : World M).Tracks policy ncpu m₀ phase c := by
  have hreached : State.Reached policy ncpu m₀ k :=
    h.coherent.reached.step (a := .schedule cpu) hcpu (congrArg (Prod.snd <$> ·) hk)
  rcases h.coherent.reached.sound.scheduleNext_cases hcpu with ⟨e, hk'⟩ | ⟨s, -, hs, hk'⟩
  · cases hk.symm.trans hk'
    exact h
  · cases hk.symm.trans hk'
    exact h.running hreached hs

theorem Tracks.resume (h : w.Tracks policy ncpu m₀ phase c) (hcpu : cpu < ncpu)
    {d : Option Dispatch} (hk : w.kernel.resume cpu = .ok (d, k)) :
    ({ w with kernel := k } : World M).Tracks policy ncpu m₀ phase c := by
  have hreached : State.Reached policy ncpu m₀ k :=
    h.coherent.reached.step (a := .resume cpu) hcpu (congrArg (Prod.snd <$> ·) hk)
  rcases h.coherent.reached.sound.resume_cases hcpu with ⟨hk', -⟩ | ⟨s, -, hs, hk'⟩
  · cases hk.symm.trans hk'
    exact h
  · cases hk.symm.trans hk'
    exact h.running hreached (by rw [hs]; rfl)

/-- **What is dying goes away.** -/
theorem Tracks.reap [MemoryView M] [PageView M] [LawfulMemory M] [FiniteMap M]
    (h : w.Tracks policy ncpu m₀ phase c) (hm : Valid m₀) (hcpu : cpu < ncpu) :
    ({ w with kernel := (w.kernel.reap cpu).2 } : World M).Tracks policy ncpu m₀ phase c := by
  have hreached : State.Reached policy ncpu m₀ (w.kernel.reap cpu).2 :=
    h.coherent.reached.step (a := .reap cpu) hcpu rfl
  revert hreached
  unfold State.reap
  split
  · next s hs =>
    split
    · next hdying =>
      intro hreached
      refine ⟨h.coherent.gone hm hreached hdying, fun u hu => ?_⟩
      have hsuits := h.suits u
      dsimp only at hu ⊢
      rw [State.env_free] at hu ⊢
      split at hu
      · exact absurd rfl hu
      · next hus =>
        rw [if_neg hus]
        exact hsuits hu
    · exact fun _ => h
  · exact fun _ => h

/-! ## What one environment does -/

/-- One environment goes on to do something else. -/
theorem Tracks.doing (h : w.Tracks policy ncpu m₀ phase c)
    (hcoherent : Coherent policy ncpu m₀ w.kernel contents (Phase.moved phase s φ) c')
    (hsuits : φ.Suits (w.kernel.env s).frame.eax task) :
    (({ w with contents := contents } : World M).doing s task).Tracks policy ncpu m₀
      (Phase.moved phase s φ) c' := by
  refine ⟨hcoherent, fun u hu => ?_⟩
  change (if u = s then φ else phase u).Suits _ (if u = s then task else w.task u)
  split
  · next hus => exact hus ▸ hsuits
  · exact h.suits u hu

/-- **The phase changes, and what the environment is doing.** -/
theorem Tracks.turns (h : w.Tracks policy ncpu m₀ phase c) (hs : w.kernel.Runs ncpu cpu s)
    (hscratch : (phase s).scratches = true → φ.scratches = true)
    (hexcuses : ∀ va t va', (phase s).Excuses s va t va' → φ.Excuses s va t va')
    (hchild : φ.child = none) (hbegun : φ.begun = none)
    (hfits : (w.kernel.sharing w.contents phase).Fits s φ)
    (hsuits : φ.Suits (w.kernel.env s).frame.eax task) :
    (w.doing s task).Tracks policy ncpu m₀ (Phase.moved phase s φ) (c.settle s) := by
  have hcoherent := h.coherent
  have hnone : ∀ id, φ.child = some id → (phase s).child = some id := by
    rw [hchild]
    exact nofun
  have hsafe := hcoherent.safe.turn (Coherent.own_of_runs hs _ _) hnone hscratch hexcuses hfits
  have hsettled : (c.settle s).child s = φ.begun.map EnvId.slot := by
    rw [hbegun]
    exact if_pos rfl
  have hnext : Coherent policy ncpu m₀ w.kernel w.contents (Phase.moved phase s φ) (c.settle s) :=
    hcoherent.advance hcoherent.reached (State.answers_self w.kernel s) rfl hsafe
      hcoherent.faithful hnone hsettled fun u hu => if_neg hu
  exact h.doing hnext hsuits

/-- **A byte is written**, which only its writer has. -/
theorem Tracks.write (h : w.Tracks policy ncpu m₀ phase c) (hs : w.kernel.Runs ncpu cpu s)
    (hva : Ordinary va) (hφ : phase s = .alone ∨ ∃ v, phase s = .writes v)
    (hpage : w.WritableAt s va page) (b : UInt8) :
    ((w.written page va b).doing s .rests).Tracks policy ncpu m₀ (Phase.moved phase s .alone)
      (c.put s va b) ∧ Copying.Step c (.write s va b) (c.put s va b) := by
  obtain ⟨p, hmapped, hright⟩ := hpage
  have hcoherent := h.coherent
  have hown := Coherent.own_of_runs hs w.contents phase
  have hread := hcoherent.safe.readable s _ page p hmapped
  have hwrite : p.contains Perm.write = true := Perm.contains_userWrite hread ▸ hright
  have hbegun : (phase s).begun = none := by
    rcases hφ with hφ | ⟨v, hφ⟩ <;> rw [hφ] <;> rfl
  constructor
  · refine h.doing (hcoherent.advance hcoherent.reached (State.answers_self w.kernel s) rfl
      (hcoherent.safe.write hown hφ hmapped hwrite _ b)
      (hcoherent.faithful.write hcoherent.safe hφ hmapped hwrite b) nofun ?_ fun _ _ => rfl) rfl
    change c.child s = none
    rw [hcoherent.begun s, hbegun]
    rfl
  · have hcell := hcoherent.faithful s hown va hva
    rw [cell_eq_some hmapped, Perm.intersects_write_copyOnWrite, hwrite, Bool.true_or] at hcell
    exact .write b hcell.symm

/-- The phase of an environment that does what it is not in the middle of. -/
theorem Tracks.alone_of_rests (h : w.Tracks policy ncpu m₀ phase c) (hs : w.kernel.Runs ncpu cpu s)
    (htask : w.task s = .rests) : phase s = .alone := by
  have hsuits := h.suits s hs.there
  rw [htask] at hsuits
  exact hsuits

/-- **A write that may not be made faults**, and the fault is handled. -/
theorem Tracks.fault (h : w.Tracks policy ncpu m₀ phase c) (hs : w.kernel.Runs ncpu cpu s)
    (htask : w.task s = .rests) (hva : Ordinary va) (hnot : ∀ page, ¬ w.WritableAt s va page)
    {err : UInt32} (herr : err &&& User.faultOnWrite ≠ 0) :
    (w.doing s (.faults va b (User.handleCowFault Program.syscalls Program.space va err).run)).Tracks
      policy ncpu m₀ (Phase.moved phase s (.faults (pageOf va))) c := by
  have hφ := h.alone_of_rests hs htask
  have hsettled : c.settle s = c := Copying.settle_of_none (by rw [h.coherent.begun s, hφ]; rfl)
  have hunwritable : ∀ page p, (w.kernel.sharing w.contents phase).maps s (pageOf va) =
      some (page, p) → p.contains Perm.write = false := by
    intro page p hpage
    have hread := h.coherent.safe.readable s _ page p hpage
    refine Bool.eq_false_iff.2 fun hwrite => hnot page ⟨p, hpage, ?_⟩
    rw [Perm.contains_userWrite hread, hwrite]
  rw [← hsettled]
  exact h.turns hs (by rw [hφ]; exact nofun) (by rw [hφ]; exact fun _ _ _ hex => hex.elim) rfl rfl
    ⟨pageAddress_of_ordinary hva, hunwritable⟩
    ⟨hva, rfl, (obeys_handleCowFault herr).answered _⟩

/-- **A fork begins.** -/
theorem Tracks.fork (h : w.Tracks policy ncpu m₀ phase c) (hs : w.kernel.Runs ncpu cpu s)
    (htask : w.task s = .rests) (entry : Nat) :
    (w.doing s (.forks (User.fork Program.syscalls Program.space entry).run)).Tracks policy ncpu m₀
      (Phase.moved phase s .alone) c := by
  have hφ := h.alone_of_rests hs htask
  have hsettled : c.settle s = c := Copying.settle_of_none (by rw [h.coherent.begun s, hφ]; rfl)
  rw [← hsettled]
  exact h.turns hs (by rw [hφ]; exact nofun) (by rw [hφ]; exact fun _ _ _ hex => hex.elim) rfl rfl
    trivial ⟨rfl, (obeys_fork entry).answered _⟩

/-- A program that obeys and is done ends as it should. -/
theorem Tracks.ends {α : Type} {fin : Phase → α → Prop} {x : α}
    (h : w.Tracks policy ncpu m₀ phase c) (hobeys : Obeys fin (phase s) (.done x)) :
    fin (phase s) x := by
  generalize hφ : phase s = φ at hobeys ⊢
  cases hobeys with
  | never => exact (h.coherent.fits hφ).elim
  | done hends => exact hends

/-- **A fork is over**, and says whether there is a child. -/
theorem Tracks.forked (h : w.Tracks policy ncpu m₀ phase c) (hs : w.kernel.Runs ncpu cpu s)
    {r : Except CallError (Option EnvId)} (htask : w.task s = .forks (.done r)) :
    (w.doing s .rests).Tracks policy ncpu m₀ (Phase.moved phase s .alone) (c.settle s) ∧
      Copying.Step c (.forked s r) (c.settle s) := by
  have hsuits := h.suits s hs.there
  rw [htask] at hsuits
  have hends : ForkEnds (phase s) r := h.ends hsuits.2
  have hbegun := h.coherent.begun s
  unfold ForkEnds at hends
  split at hends
  · next id hid =>
    refine ⟨h.turns hs (by rw [hends]; exact nofun) (by rw [hends]; exact fun _ _ _ hex => hex.elim) rfl
      rfl trivial rfl, .forked ?_⟩
    rw [hbegun, hends, hid]
    rfl
  · next hnone =>
    refine ⟨h.turns hs (by rw [hends]; exact nofun) (by rw [hends]; exact fun _ _ _ hex => hex.elim) rfl
      rfl trivial rfl, .forked ?_⟩
    rw [hbegun, hends, hnone]
    rfl

/-- **A fault is over that cannot be handled**: the byte could not be written without sharing either. -/
theorem Tracks.refuse (h : w.Tracks policy ncpu m₀ phase c) (hs : w.kernel.Runs ncpu cpu s)
    {e : PageFaultError} (htask : w.task s = .faults va b (.done (.error e))) :
    (w.doing s .rests).Tracks policy ncpu m₀ (Phase.moved phase s .alone) c ∧
      Copying.Step c (.refuse s va) c := by
  have hsuits := h.suits s hs.there
  rw [htask] at hsuits
  obtain ⟨hva, -, hobeys⟩ := hsuits
  rcases h.ends hobeys with hφ | hφ
  · obtain ⟨-, hnot⟩ := h.coherent.fits hφ
    have hsettled : c.settle s = c := Copying.settle_of_none (by rw [h.coherent.begun s, hφ]; rfl)
    have hcell := h.coherent.faithful s (Coherent.own_of_runs hs _ _) va hva
    constructor
    · rw [← hsettled]
      exact h.turns hs (by rw [hφ]; exact nofun) (by rw [hφ]; exact fun _ _ _ hex => hex.elim) rfl rfl
        trivial rfl
    · refine .refuse fun old hold => ?_
      rw [← hcell] at hold
      obtain ⟨⟨page, p⟩, hpage, heq⟩ := Option.map_eq_some_iff.1 hold
      have hright := hnot page p hpage
      cases hright.symm.trans (Prod.mk.inj heq).2
  · exact (h.coherent.fits hφ).elim

/-- **A fault that was handled** has left a page that may be written. -/
theorem Tracks.writable (h : w.Tracks policy ncpu m₀ phase c)
    (hs : (w.kernel.env s).status ≠ .free) (htask : w.task s = .faults va b (.done (.ok ()))) :
    Ordinary va ∧ phase s = .writes (pageOf va) ∧ ∃ page, w.WritableAt s va page := by
  have hsuits := h.suits s hs
  rw [htask] at hsuits
  obtain ⟨hva, -, hobeys⟩ := hsuits
  have hends : FaultEnds (pageOf va) (phase s) (.ok ()) := h.ends hobeys
  have hφ : phase s = .writes (pageOf va) := hends
  obtain ⟨-, page, hpage⟩ := h.coherent.fits hφ
  exact ⟨hva, hφ, page, _, hpage, rfl⟩

/-! ## Each step -/

variable [MemoryView M] [PageView M] [LawfulMemory M] [LawfulPages M] [FiniteMap M] [FreshPages M]

/-- **A step of a fork**, which shows a child that is started and nothing else. -/
theorem Tracks.forking (h : w.Tracks policy ncpu m₀ phase c) (hm : Valid m₀) (ha : Accounted m₀)
    (ht : Tidy m₀) (hs : w.kernel.Runs ncpu cpu s)
    {p p' : Program (Except CallError (Option EnvId))} (htask : w.task s = .forks p)
    (hturn : Turn (fun _ => True) w.kernel w.contents cpu s p k contents p') :
    ∃ phase' c', (w.forking k contents s p').Tracks policy ncpu m₀ phase' c' ∧
      ((∀ t, ¬ w.kernel.Wakes k t) ∧ c' = c ∨
        ∃ t, (∀ u, w.kernel.Wakes k u ↔ u = t) ∧ Copying.Step c (.start s t) c') := by
  have hthere := hs.there
  have hsuits := h.suits s hthere
  rw [htask] at hsuits
  obtain ⟨hhandles, hobeys⟩ := hsuits
  obtain ⟨φ, c', hturned⟩ := h.coherent.turn hm ha ht hs hobeys hturn fun hold => by
    rw [hhandles] at hold
    cases hold
  refine ⟨Phase.moved phase s φ, c', ⟨hturned.coherent, fun u hu => ?_⟩, ?_⟩
  · change (if u = s then φ else phase u).Suits (k.env u).frame.eax (if u = s ∨ _ then _ else w.task u)
    by_cases hus : u = s
    · rw [if_pos hus, if_pos (.inl hus), hus]
      exact ⟨hturned.handles.trans hhandles, hturned.obeys⟩
    · rw [if_neg hus]
      by_cases hfree : (w.kernel.env u).status = .free
      · -- a child goes on as its parent, but for the answer
        obtain ⟨-, hborn⟩ := hturned.born u hfree hu
        have hidle : phase u = .alone := h.coherent.safe.idle u (by
          change ¬ (w.kernel.env u).status.canRun = true
          rw [hfree]
          exact nofun)
        rw [if_pos (.inr ⟨hfree, hu⟩), hidle]
        exact ⟨rfl, hborn⟩
      · rw [if_neg (by simp [hus, hfree]), hturned.others u hus hfree hu]
        exact h.suits u hfree
  · rcases hturned.woken with hquiet | ⟨-, t, hwakes, hnone, rfl⟩
    · exact .inl hquiet
    · exact .inr ⟨t, hwakes, .start hnone⟩

/-- **A step of a fault handler** shows nothing, and makes no child. -/
theorem Tracks.handle (h : w.Tracks policy ncpu m₀ phase c) (hm : Valid m₀) (ha : Accounted m₀)
    (ht : Tidy m₀) (hs : w.kernel.Runs ncpu cpu s) {p p' : Program (Except PageFaultError Unit)}
    (htask : w.task s = .faults va b p)
    (hturn : Turn (fun e => ∀ short, e ≠ .memory short) w.kernel w.contents cpu s p k contents p') :
    ∃ phase', (({ w with kernel := k, contents := contents } : World M).doing s
      (.faults va b p')).Tracks policy ncpu m₀ phase' c := by
  have hthere := hs.there
  have hsuits := h.suits s hthere
  rw [htask] at hsuits
  obtain ⟨hva, hhandles, hobeys⟩ := hsuits
  obtain ⟨φ, c', hturned⟩ := h.coherent.turn hm ha ht hs hobeys hturn
    fun _ short hshort => hshort short rfl
  have hsame : c' = c := by
    rcases hturned.woken with ⟨-, hsame⟩ | ⟨hnot, -⟩
    · exact hsame
    · cases hhandles.symm.trans hnot
  refine ⟨Phase.moved phase s φ, hsame ▸ hturned.coherent, fun u hu => ?_⟩
  change (if u = s then φ else phase u).Suits (k.env u).frame.eax
    (if u = s then .faults va b p' else w.task u)
  split
  · next hus =>
    rw [hus]
    exact ⟨hva, hturned.handles.trans hhandles, hturned.obeys⟩
  · next hus =>
    have hfree : (w.kernel.env u).status ≠ .free := by
      intro hfree
      obtain ⟨halone, -⟩ := hturned.born u hfree hu
      rw [halone] at hhandles
      cases hhandles
    rw [hturned.others u hus hfree hu]
    exact h.suits u hfree

/-- **Every step of a world is one that can happen without sharing**, or one that shows nothing. -/
theorem Tracks.step (h : w.Tracks policy ncpu m₀ phase c) (hm : Valid m₀) (ha : Accounted m₀)
    (ht : Tidy m₀) {e : Option Event} (hstep : Step ncpu w e w') :
    ∃ phase' c', w'.Tracks policy ncpu m₀ phase' c' ∧ c.Follows e c' := by
  cases hstep with
  | schedule hcpu hk => exact ⟨_, c, h.schedule hcpu hk, rfl⟩
  | resume hcpu hk => exact ⟨_, c, h.resume hcpu hk, rfl⟩
  | reap hcpu => exact ⟨_, c, h.reap hm hcpu, rfl⟩
  | @read cpu s va hs htask hva =>
    refine ⟨_, c, h, ?_⟩
    rw [h.byte hs hva]
    exact .read s va
  | @write cpu s va b page hs htask hva hpage =>
    obtain ⟨htracks, hwrite⟩ := h.write hs hva (.inl (h.alone_of_rests hs htask)) hpage b
    rw [(w.written page va b).doing_self htask] at htracks
    exact ⟨_, _, htracks, hwrite⟩
  | fault hs htask hva hnot herr => exact ⟨_, c, h.fault hs htask hva hnot herr, rfl⟩
  | handle hs htask hturn =>
    obtain ⟨phase', htracks⟩ := h.handle hm ha ht hs htask hturn
    exact ⟨phase', c, htracks, rfl⟩
  | @retry cpu s va b page hs htask hpage =>
    obtain ⟨hva, hφ, -⟩ := h.writable hs.there htask
    obtain ⟨htracks, hwrite⟩ := h.write hs hva (.inr ⟨_, hφ⟩) hpage b
    exact ⟨_, _, htracks, hwrite⟩
  | refuse hs htask =>
    obtain ⟨htracks, hrefuse⟩ := h.refuse hs htask
    exact ⟨_, c, htracks, hrefuse⟩
  | fork entry hs htask => exact ⟨_, c, h.fork hs htask entry, rfl⟩
  | forking hs htask hturn hquiet =>
    obtain ⟨phase', c', htracks, ⟨-, rfl⟩ | ⟨t, hwakes, -⟩⟩ := h.forking hm ha ht hs htask hturn
    · exact ⟨phase', c', htracks, rfl⟩
    · exact absurd ((hwakes t).2 rfl) (hquiet t)
  | @start cpu s t p p' k contents hs htask hturn hwake =>
    obtain ⟨phase', c', htracks, ⟨hquiet, -⟩ | ⟨t', hwakes, hstart⟩⟩ :=
      h.forking hm ha ht hs htask hturn
    · exact absurd hwake (hquiet t)
    · obtain rfl := (hwakes t).1 hwake
      exact ⟨phase', c', htracks, hstart⟩
  | forked hs htask =>
    obtain ⟨htracks, hforked⟩ := h.forked hs htask
    exact ⟨_, _, htracks, hforked⟩

/-- **What a run shows can happen without sharing.** -/
theorem Tracks.run (h : w.Tracks policy ncpu m₀ phase c) (hm : Valid m₀) (ha : Accounted m₀)
    (ht : Tidy m₀) {l : List Event} (hrun : Run ncpu w l w') :
    ∃ phase' c', w'.Tracks policy ncpu m₀ phase' c' ∧ Copying.Run c l c' := by
  induction hrun with
  | start => exact ⟨phase, c, h, .start⟩
  | quiet _ hstep ih =>
    obtain ⟨phase₁, c₁, h₁, hrun⟩ := ih
    obtain ⟨phase₂, c₂, h₂, rfl⟩ := h₁.step hm ha ht hstep
    exact ⟨phase₂, c₂, h₂, hrun⟩
  | event _ hstep ih =>
    obtain ⟨phase₁, c₁, h₁, hrun⟩ := ih
    obtain ⟨phase₂, c₂, h₂, hnext⟩ := h₁.step hm ha ht hstep
    exact ⟨phase₂, c₂, h₂, .event hrun hnext⟩

/-- **Copy-on-write is copying.** Environments fork, read and write where all pages are readable, no
page is mapped twice and nothing is at the scratch address to begin with. What a run shows is then what
could happen if every environment had bytes of its own from the start and each child that is started
got a copy of everything its parent has below the end of the stack: every read finds the reader's own
byte, a write changes nothing but the writer's own byte, and is made exactly where the byte may be
written, and a fork says that there is a child if it has started one. A fault that was handled can be
followed by the write. -/
theorem Run.copies_on_write (h : w.Begins policy ncpu m₀) (hm : Valid m₀) (ha : Accounted m₀)
    (ht : Tidy m₀) {l : List Event} (hrun : Run ncpu w l w') :
    (∃ c, Copying.Run w.copies l c) ∧
      ∀ cpu s va b, w'.kernel.Runs ncpu cpu s → w'.task s = .faults va b (.done (.ok ())) →
        ∃ page, w'.WritableAt s va page := by
  obtain ⟨phase, c, htracks, hcopied⟩ := h.tracks.run hm ha ht hrun
  refine ⟨⟨c, hcopied⟩, fun cpu s va b hs htask => ?_⟩
  obtain ⟨-, -, hpage⟩ := htracks.writable (by rw [hs.2.2]; exact nofun) htask
  exact hpage

omit [MemoryView M] [PageView M] [LawfulMemory M] [LawfulPages M] [FiniteMap M] [FreshPages M] in
/-- A world of counted page frames with a single mapping. -/
theorem begins_of_entry {w : World Frames} {m₀ : Frames} {d : PageDir} {perm : Perm}
    (hreached : State.Reached policy ncpu m₀ w.kernel) (hm : Valid m₀) (hrests : ∀ s, w.task s = .rests)
    (hentry : w.kernel.memory.mappings.entries = [((d, va), page, perm)])
    (hread : perm.contains Perm.userRead = true) (hva : va ≠ Layout.scratchPage) :
    w.Begins policy ncpu m₀ := by
  have hmapped : ∀ {s v e}, w.kernel.mapping s v = some e →
      w.kernel.Holds s d ∧ v = va ∧ e = (page, perm) := by
    intro s v e he
    by_cases hs : (w.kernel.env s).status = .free
    · cases (State.mapping_of_free hs).symm.trans he
    · have hmem := Assoc.mem_entries_of_get? ((State.mapping_eq_lookup hs).symm.trans he)
      rw [hentry, List.mem_singleton] at hmem
      obtain ⟨hplace, rfl⟩ := Prod.mk.inj hmem
      obtain ⟨rfl, rfl⟩ := Prod.mk.inj hplace
      exact ⟨⟨hs, rfl⟩, rfl, rfl⟩
  refine ⟨hreached, hrests, fun s v page' p hp => ?_, fun s => ?_, fun s v t v' page' p q hp hq => ?_⟩
  · obtain ⟨-, -, heq⟩ := hmapped hp
    rw [(Prod.mk.inj heq).2]
    exact hread
  · by_contra hsome
    obtain ⟨e, he⟩ := Option.ne_none_iff_exists'.1 hsome
    exact hva (hmapped he).2.1.symm
  · obtain ⟨hs, rfl, -⟩ := hmapped hp
    obtain ⟨ht, rfl, -⟩ := hmapped hq
    exact ⟨(hreached.housed hm).apart t s d ht hs, rfl⟩

/-- A parent writes 7 into its stack, makes a child and writes 9 there, for which it gets a copy of the
page; its child finds the 7. -/
theorem Run.copies_on_write_forked :
    ∃ (w w' : World Frames) (c : Copying) (l : List Event) (id : EnvId),
      w.Begins .perCpu 1 ({} : Frames) ∧ Valid ({} : Frames) ∧ Accounted ({} : Frames) ∧
      Tidy ({} : Frames) ∧ Run 1 w l w' ∧
      l = [.write 0 0xeebfdfff 7, .start 0 1, .forked 0 (.ok (some id)), .write 0 0xeebfdfff 9,
        .forked 1 (.ok none), .read 1 0xeebfdfff (some 7)] ∧
      Copying.Run w.copies l c := by
  have hm : Valid ({} : Frames) := ⟨.nil, nofun⟩
  have ha : Accounted ({} : Frames) := ⟨nofun, nofun⟩
  have ht : Tidy ({} : Frames) := fun _ _ _ => rfl
  let child : EnvId := ⟨0x1001, by decide⟩
  let world (k : State Frames) : World Frames := ⟨k, fun _ _ => 0, fun _ => .rests⟩
  let cues : List Cue := [.write 0xeebfdfff 7, .fork 0x800000] ++ List.replicate 9 .go ++
    [.write 0xeebfdfff 9] ++ List.replicate 4 .go ++ [.schedule, .go, .read 0xeebfdfff]
  obtain ⟨k, hk, hseen⟩ := exists_of_map_toOption
    (f := fun k => (k.memory.mappings.entries, (World.play 0 cues (world k) []).map (·.1)))
    (b := ([((⟨0x1000⟩, 0xeebfd000), ⟨0x2000⟩, ⟨7⟩)],
      some [.write 0 0xeebfdfff 7, .start 0 1, .forked 0 (.ok (some child)),
        .write 0 0xeebfdfff 9, .forked 1 (.ok none), .read 1 0xeebfdfff (some 7)]))
    (x := State.ran .perCpu 1 ({} : Frames) [.create [0x7f] 0, .schedule 0]) (by decide +kernel)
  obtain ⟨hentry, hplayed⟩ := Prod.mk.inj hseen
  obtain ⟨⟨l, w'⟩, hplay, rfl⟩ := Option.map_eq_some_iff.1 hplayed
  have hreached := State.reached_of_ran hk
  have hbegins : (world k).Begins .perCpu 1 ({} : Frames) :=
    begins_of_entry hreached hm (fun _ => rfl) hentry (by decide) (by decide)
  have hrun := Run.start.play hm ha ht (by decide : 0 < 1) cues hreached hplay
  obtain ⟨⟨c, hcopied⟩, -⟩ := hrun.copies_on_write hbegins hm ha ht
  exact ⟨world k, w', c, _, _, hbegins, hm, ha, ht, hrun, rfl, hcopied⟩

end World

end Exokernel
