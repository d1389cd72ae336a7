import Mathlib.Control.Monad.Basic
import Exokernel.Proofs.Pages
import Exokernel.User.Fork
/-!
# Environments that fork and use their pages

A world is the kernel together with what is in the pages and what each environment is doing: it
rests, or it is inside `User.fork`, or inside `User.handleCowFault` because it wrote to a page that
may not be written. The user library runs step by step, so that the environments of all CPUs may
come in between anywhere, and what it sees of its page tables is what the kernel has mapped
(`World.Step`). A `Copying` is the same without any sharing: every environment has bytes of its own,
and a fork copies them.
-/

namespace Exokernel

/-! ## Programs -/

/-- A computation of user code, by what it asks of the machine and what it does with the answer. -/
inductive Program (α : Type) where
  | done (a : α)
  /-- A system call. -/
  | enter (c : Call) (args : Args) (p : Program α)
  /-- The return register is read. -/
  | result (f : UInt32 → Program α)
  | inbox (f : MessageWords → Program α)
  | tablePresent (va : Nat) (f : Bool → Program α)
  | pagePerm (va : Nat) (f : Option Perm → Program α)
  | copyPage (src dst : Nat) (p : Program α)
  | say (r : Log.Record) (p : Program α)

namespace Program

variable {α β : Type}

/-- A program and what comes after it. -/
def bind (f : α → Program β) : Program α → Program β
  | done a => f a
  | enter c args p => enter c args (p.bind f)
  | result g => result fun w => (g w).bind f
  | inbox g => inbox fun w => (g w).bind f
  | tablePresent va g => tablePresent va fun b => (g b).bind f
  | pagePerm va g => pagePerm va fun m => (g m).bind f
  | copyPage src dst p => copyPage src dst (p.bind f)
  | say r p => say r (p.bind f)

instance : Monad Program where
  pure := done
  bind p f := p.bind f

instance : MonadLog Program where
  say r := say r (done ⟨⟩)

/-- The way into the kernel. -/
def syscalls : Syscalls Program where
  call c args := enter c args (result done)
  inbox := inbox done

/-- The program's view of its own page tables. -/
def space : AddressSpace Program where
  tablePresent va := tablePresent va done
  pagePerm va := pagePerm va done
  copyPage src dst := copyPage src dst (done ⟨⟩)

end Program

/-! ## Worlds -/

/-- The bytes of each page. -/
abbrev Contents := PhysPage → Nat → UInt8

/-- A page has one byte changed. -/
def Contents.put (c : Contents) (page : PhysPage) (i : Nat) (b : UInt8) : Contents :=
  fun q j => if q = page ∧ j = i then b else c q j

/-- A page has the bytes of another one. -/
def Contents.copy (c : Contents) (src dst : PhysPage) : Contents :=
  fun q => if q = dst then c src else c q

/-- What an environment is doing. -/
inductive Task where
  /-- It does nothing that concerns its pages. -/
  | rests
  /-- It makes a child. -/
  | forks (p : Program (Except CallError (Option EnvId)))
  /-- It writes a byte, and the fault that this raised is being handled. -/
  | faults (va : Nat) (b : UInt8) (p : Program (Except PageFaultError Unit))

/-- The kernel, the bytes of the pages and what each environment is doing. -/
structure World (M : Type) where
  kernel : State M
  contents : Contents
  task : Slot → Task

/-- The addresses environments read and write: those below the end of the ordinary stack, but for
the page a fault handler copies through. -/
def Ordinary (va : Nat) : Prop := va < Layout.stackTop ∧ pageOf va ≠ Layout.scratchPage

/-- What can be told of a world from outside. -/
inductive World.Event where
  /-- A byte is read; there is none where no page is mapped. -/
  | read (s : Slot) (va : Nat) (b : Option UInt8)
  | write (s : Slot) (va : Nat) (b : UInt8)
  /-- A byte cannot be written. -/
  | refuse (s : Slot) (va : Nat)
  /-- A child can run from now on. -/
  | start (parent child : Slot)
  /-- An environment comes back from making a child. -/
  | forked (s : Slot) (r : Except CallError (Option EnvId))
deriving DecidableEq

/-- What each environment has mapped at each address. -/
abbrev Mappings := Slot → Nat → Option (PhysPage × Perm)

namespace State

variable {M : Type} [Memory M]

/-- The page an environment has mapped at an address, with its permission. -/
def mapping (k : State M) : Mappings := fun s va =>
  if (k.env s).status = .free then none else Memory.lookup k.memory (k.env s).pgdir va

omit [Memory M] in
/-- The environment of a slot runs on a CPU. -/
def Runs (ncpu : Nat) (k : State M) (cpu : Nat) (s : Slot) : Prop :=
  cpu < ncpu ∧ k.current cpu = some s ∧ (k.env s).status = .running

omit [Memory M] in
/-- Who runs is there. -/
theorem Runs.there {k : State M} {ncpu cpu : Nat} {s : Slot} (h : k.Runs ncpu cpu s) :
    (k.env s).status ≠ .free := by
  rw [h.2.2]
  exact nofun

omit [Memory M] in
/-- An environment can run that could not before. -/
def Wakes (k k' : State M) (s : Slot) : Prop :=
  ¬ (k.env s).status.canRun ∧ (k'.env s).status.canRun

end State

namespace World

open MemoryView Memory

variable {M : Type} [Memory M]

/-- The page user code can read at an address. -/
def page (w : World M) (s : Slot) (va : Nat) : Option (PhysPage × Perm) :=
  (w.kernel.mapping s (pageOf va)).filter (·.2.contains Perm.userRead)

/-- The byte user code reads at an address. -/
def byte (w : World M) (s : Slot) (va : Nat) : Option UInt8 :=
  (w.page s va).map fun e => w.contents e.1 (va % Layout.pageSize)

/-- User code can write at the address, in the page `page`. -/
def WritableAt (w : World M) (s : Slot) (va : Nat) (page : PhysPage) : Prop :=
  ∃ perm, w.kernel.mapping s (pageOf va) = some (page, perm) ∧ perm.contains Perm.userWrite

/-- An environment goes on to do something else. -/
def doing (w : World M) (s : Slot) (t : Task) : World M :=
  { w with task := fun u => if u = s then t else w.task u }

/-- A byte of a page is written. -/
def written (w : World M) (page : PhysPage) (va : Nat) (b : UInt8) : World M :=
  { w with contents := w.contents.put page (va % Layout.pageSize) b }

/-- **One step of a program** of the environment that runs on a CPU: the kernel, the bytes and the
program it leaves. Only refusals that are `allowed` happen. What is in pages that were not mapped
does not matter. -/
inductive Turn [MemoryView M] {α : Type} (allowed : KernelError → Prop) (k : State M)
    (contents : Contents) (cpu : Nat) (s : Slot) :
    Program α → State M → Contents → Program α → Prop
  | enter {c : Call} {args : Args} {p : Program α} {tf : TrapFrame} {contents' : Contents} :
      tf.eax = c.number → tf.args = args →
      (∀ e k', State.performNumber cpu tf.eax tf.args
        (k.mapEnv s fun e => { e with frame := tf }) = .error e k' → allowed e) →
      (∀ page, Mapped k.memory page → contents' page = contents page) →
      Turn allowed k contents cpu s (.enter c args p) (k.syscall cpu tf).2 contents' p
  | result {f : UInt32 → Program α} :
      Turn allowed k contents cpu s (.result f) k contents (f (k.env s).frame.eax)
  | inbox {f : MessageWords → Program α} :
      Turn allowed k contents cpu s (.inbox f) k contents (f (k.env s).inbox.words)
  /-- A region without a page table has no page mapped in it. -/
  | tablePresent {va : Nat} {f : Bool → Program α} {b : Bool} :
      (b = false → ∀ u, u / Layout.tableSpan = va / Layout.tableSpan → k.mapping s u = none) →
      Turn allowed k contents cpu s (.tablePresent va f) k contents (f b)
  | pagePerm {va : Nat} {f : Option Perm → Program α} :
      Turn allowed k contents cpu s (.pagePerm va f) k contents (f ((k.mapping s va).map (·.2)))
  | copyPage {src dst : Nat} {p : Program α} {page page' : PhysPage} {perm perm' : Perm} :
      k.mapping s src = some (page, perm) → k.mapping s dst = some (page', perm') →
      perm.contains Perm.userRead → perm'.contains Perm.userWrite →
      Turn allowed k contents cpu s (.copyPage src dst p) k (contents.copy page page') p
  | say {r : Log.Record} {p : Program α} : Turn allowed k contents cpu s (.say r p) k contents p

theorem Turn.imp [MemoryView M] {α : Type} {allowed allowed' : KernelError → Prop} {k k' : State M}
    {contents contents' : Contents} {cpu : Nat} {s : Slot} {p p' : Program α}
    (h : Turn allowed k contents cpu s p k' contents' p') (himp : ∀ e, allowed e → allowed' e) :
    Turn allowed' k contents cpu s p k' contents' p' := by
  cases h with
  | enter htf hargs hrefused hcontents =>
    exact .enter htf hargs (fun e k' he => himp e (hrefused e k' he)) hcontents
  | result => exact .result
  | inbox => exact .inbox
  | tablePresent hnone => exact .tablePresent hnone
  | pagePerm => exact .pagePerm
  | copyPage hsrc hdst hread hwrite => exact .copyPage hsrc hdst hread hwrite
  | say => exact .say

/-- What environments do while the one of slot `s` goes on with a fork: a child that was not there
before goes on as its parent does. -/
def forking (w : World M) (k : State M) (contents : Contents) (s : Slot)
    (p : Program (Except CallError (Option EnvId))) : World M where
  kernel := k
  contents := contents
  task t :=
    if t = s ∨ (w.kernel.env t).status = .free ∧ (k.env t).status ≠ .free then .forks p
    else w.task t

section Doing

omit [Memory M]

/-- An environment goes on to do what it is doing. -/
theorem doing_self (w : World M) {s : Slot} {t : Task} (h : w.task s = t) : w.doing s t = w := by
  have htasks : (fun u => if u = s then t else w.task u) = w.task := by
    funext u
    split
    · next hu => rw [hu, h]
    · rfl
  unfold doing
  rw [htasks]

/-- An environment goes on to do something, and then something else. -/
theorem doing_doing (w : World M) (s : Slot) (t t' : Task) :
    (w.doing s t).doing s t' = w.doing s t' := by
  unfold doing
  congr 1
  funext u
  dsimp only
  split <;> rfl

/-- A fork that goes on without a call leaves all other environments to theirs. -/
theorem forking_self (w : World M) (contents : Contents) (s : Slot)
    (p : Program (Except CallError (Option EnvId))) :
    w.forking w.kernel contents s p =
      ({ w with contents := contents } : World M).doing s (.forks p) := by
  unfold forking doing
  congr 1
  funext u
  simp only [and_not_self_iff, or_false]

end Doing

/-- **One step of the world.** The scheduler may come in at any time, on any CPU. An environment that
runs makes a child, reads or writes a byte, and a write to a page without the right to is handled
first; then the environment writes again. Handling a fault finds enough memory. -/
inductive Step [MemoryView M] (ncpu : Nat) (w : World M) : Option Event → World M → Prop
  | schedule {cpu : Nat} {d : Except NothingRunnable Dispatch} {k : State M} : cpu < ncpu →
      w.kernel.scheduleNext cpu = .ok (d, k) → Step ncpu w none { w with kernel := k }
  | resume {cpu : Nat} {d : Option Dispatch} {k : State M} : cpu < ncpu →
      w.kernel.resume cpu = .ok (d, k) → Step ncpu w none { w with kernel := k }
  | reap {cpu : Nat} : cpu < ncpu → Step ncpu w none { w with kernel := (w.kernel.reap cpu).2 }
  | read {cpu : Nat} {s : Slot} {va : Nat} : w.kernel.Runs ncpu cpu s → w.task s = .rests →
      Ordinary va → Step ncpu w (some (.read s va (w.byte s va))) w
  | write {cpu : Nat} {s : Slot} {va : Nat} {b : UInt8} {page : PhysPage} :
      w.kernel.Runs ncpu cpu s → w.task s = .rests → Ordinary va → w.WritableAt s va page →
      Step ncpu w (some (.write s va b)) (w.written page va b)
  /-- A write to a page that may not be written faults. -/
  | fault {cpu : Nat} {s : Slot} {va : Nat} {b : UInt8} {err : UInt32} :
      w.kernel.Runs ncpu cpu s → w.task s = .rests → Ordinary va →
      (∀ page, ¬ w.WritableAt s va page) → err &&& User.faultOnWrite ≠ 0 →
      Step ncpu w none (w.doing s
        (.faults va b (User.handleCowFault Program.syscalls Program.space va err).run))
  | handle {cpu : Nat} {s : Slot} {va : Nat} {b : UInt8}
      {p p' : Program (Except PageFaultError Unit)} {k : State M} {contents : Contents} :
      w.kernel.Runs ncpu cpu s → w.task s = .faults va b p →
      Turn (fun e => ∀ short, e ≠ .memory short) w.kernel w.contents cpu s p k contents p' →
      Step ncpu w none (({ w with kernel := k, contents := contents }).doing s (.faults va b p'))
  /-- The fault was handled, and the write is made again. -/
  | retry {cpu : Nat} {s : Slot} {va : Nat} {b : UInt8} {page : PhysPage} :
      w.kernel.Runs ncpu cpu s → w.task s = .faults va b (.done (.ok ())) → w.WritableAt s va page →
      Step ncpu w (some (.write s va b)) ((w.written page va b).doing s .rests)
  | refuse {cpu : Nat} {s : Slot} {va : Nat} {b : UInt8} {e : PageFaultError} :
      w.kernel.Runs ncpu cpu s → w.task s = .faults va b (.done (.error e)) →
      Step ncpu w (some (.refuse s va)) (w.doing s .rests)
  | fork {cpu : Nat} {s : Slot} (entry : Nat) : w.kernel.Runs ncpu cpu s → w.task s = .rests →
      Step ncpu w none (w.doing s
        (.forks (User.fork Program.syscalls Program.space entry).run))
  | forking {cpu : Nat} {s : Slot} {p p' : Program (Except CallError (Option EnvId))}
      {k : State M} {contents : Contents} :
      w.kernel.Runs ncpu cpu s → w.task s = .forks p →
      Turn (fun _ => True) w.kernel w.contents cpu s p k contents p' →
      (∀ t, ¬ w.kernel.Wakes k t) → Step ncpu w none (w.forking k contents s p')
  /-- The fork lets a child run. -/
  | start {cpu : Nat} {s t : Slot} {p p' : Program (Except CallError (Option EnvId))}
      {k : State M} {contents : Contents} :
      w.kernel.Runs ncpu cpu s → w.task s = .forks p →
      Turn (fun _ => True) w.kernel w.contents cpu s p k contents p' → w.kernel.Wakes k t →
      Step ncpu w (some (.start s t)) (w.forking k contents s p')
  | forked {cpu : Nat} {s : Slot} {r : Except CallError (Option EnvId)} :
      w.kernel.Runs ncpu cpu s → w.task s = .forks (.done r) →
      Step ncpu w (some (.forked s r)) (w.doing s .rests)

/-- **A run of the world**, with the events it shows. -/
inductive Run [MemoryView M] (ncpu : Nat) (w : World M) : List Event → World M → Prop
  | start : Run ncpu w [] w
  | quiet {l : List Event} {w₁ w₂ : World M} : Run ncpu w l w₁ → Step ncpu w₁ none w₂ →
      Run ncpu w l w₂
  | event {l : List Event} {e : Event} {w₁ w₂ : World M} : Run ncpu w l w₁ →
      Step ncpu w₁ (some e) w₂ → Run ncpu w (l ++ [e]) w₂

end World

/-! ## Without sharing -/

/-- Every environment has bytes of its own, each of which it may write or not. -/
structure Copying where
  cell : Slot → Nat → Option (UInt8 × Bool)
  /-- The child that the fork an environment is in has let run. -/
  child : Slot → Option Slot

namespace Copying

/-- An environment has a byte changed. -/
def put (c : Copying) (s : Slot) (va : Nat) (b : UInt8) : Copying :=
  { c with cell := fun t u => if t = s ∧ u = va then some (b, true) else c.cell t u }

/-- The child gets a copy of everything its parent has below the end of the ordinary stack. -/
def copy (c : Copying) (parent child : Slot) : Copying where
  cell t va :=
    if t = child then if va < Layout.stackTop then c.cell parent va else none else c.cell t va
  child t := if t = parent then some child else c.child t

/-- The fork an environment was in is over. -/
def settle (c : Copying) (s : Slot) : Copying :=
  { c with child := fun t => if t = s then none else c.child t }

/-- **What can happen without sharing.** A read finds the reader's own byte, a write changes the
writer's own byte, and a child starts with its parent's bytes. A fork that let a child run says so, and
no other one does. -/
inductive Step (c : Copying) : World.Event → Copying → Prop
  | read (s : Slot) (va : Nat) : Step c (.read s va ((c.cell s va).map (·.1))) c
  | write {s : Slot} {va : Nat} {old : UInt8} (b : UInt8) : c.cell s va = some (old, true) →
      Step c (.write s va b) (c.put s va b)
  | refuse {s : Slot} {va : Nat} : (∀ old, c.cell s va ≠ some (old, true)) →
      Step c (.refuse s va) c
  | start {parent child : Slot} : c.child parent = none →
      Step c (.start parent child) (c.copy parent child)
  | forked {s : Slot} {r : Except CallError (Option EnvId)} :
      c.child s = (r.toOption.join).map EnvId.slot → Step c (.forked s r) (c.settle s)

/-- The events of a list can happen without sharing, one after the other. -/
inductive Run (c : Copying) : List World.Event → Copying → Prop
  | start : Run c [] c
  | event {l : List World.Event} {e : World.Event} {c₁ c₂ : Copying} : Run c l c₁ →
      Step c₁ e c₂ → Run c (l ++ [e]) c₂

end Copying

/-- A copy of all that environments have mapped. -/
def World.copies {M : Type} [Memory M] (w : World M) : Copying where
  cell s va := (w.page s va).map fun e =>
    (w.contents e.1 (va % Layout.pageSize), e.2.intersects (Perm.write ||| Perm.copyOnWrite))
  child _ := none

end Exokernel
