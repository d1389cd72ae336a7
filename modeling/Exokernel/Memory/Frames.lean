import Exokernel.Assoc
import Exokernel.Memory.Interface
import Exokernel.Text.Bytes
/-!
# Counted page frames

A memory that keeps page tables as tables and counts, for each page, the places it is mapped at.
Addresses of directories and pages come from one counter, so none is given out twice. A page whose
last mapping goes is forgotten. Every operation but looking up is written into a journal.

Memory can be made short: by a budget of allocations, and by a switch that makes every mapping
fail.
-/

namespace Exokernel

/-- An operation on memory, as the journal shows it. -/
inductive MemoryEvent where
  | create (dir : Option PageDir)
  | destroy (dir : PageDir)
  | alloc (page : Option PhysPage)
  | free (page : PhysPage)
  | insert (dir : PageDir) (page : PhysPage) (va : Nat) (perm : Perm) (ok : Bool)
  | remove (dir : PageDir) (va : Nat)
  | load (dir : PageDir) (image : Image)

/-- Page tables and the pages they map. -/
structure Frames where
  /-- The address given out last. -/
  lastAddress : Nat := 0
  /-- The allocations that still succeed, if they are limited. -/
  budget : Option Nat := none
  /-- Mapping a page fails. -/
  insertFails : Bool := false
  /-- The directories, oldest first. -/
  spaces : List PageDir := []
  mappings : Assoc (PageDir × Nat) (PhysPage × Perm) := {}
  /-- For each page the number of its mappings. -/
  counts : Assoc PhysPage Nat := {}
  /-- The byte that fills a page, where it is not 0. -/
  contents : Assoc PhysPage UInt8 := {}
  /-- What was done to the memory, latest first. -/
  journal : List MemoryEvent := []

namespace Frames

/-- Writes an operation into the journal. -/
def note (e : MemoryEvent) (f : Frames) : Frames := { f with journal := e :: f.journal }

/-- Takes a fresh address, if the budget allows it. -/
def fresh (f : Frames) : Option (Nat × Frames) :=
  let a := f.lastAddress + Layout.pageSize
  match f.budget with
  | none => some (a, { f with lastAddress := a })
  | some 0 => none
  | some (n + 1) => some (a, { f with lastAddress := a, budget := some n })

/-- The byte that fills a page. -/
def content (f : Frames) (page : PhysPage) : UInt8 := (f.contents.get? page).getD 0

/-- Fills a page with a byte. -/
def fill (page : PhysPage) (b : UInt8) (f : Frames) : Frames :=
  { f with contents := f.contents.insert page b }

/-- Counts one mapping of a page less, and forgets the page with its last one. -/
def release (page : PhysPage) (f : Frames) : Frames :=
  match f.counts.get? page with
  | some (n + 2) => { f with counts := f.counts.insert page (n + 1) }
  | _ => { f with counts := f.counts.erase page, contents := f.contents.erase page }

/-- Unmaps the page at an address. -/
def unmap (dir : PageDir) (va : Nat) (f : Frames) : Frames :=
  match f.mappings.get? (dir, va) with
  | some (page, _) => release page { f with mappings := f.mappings.erase (dir, va) }
  | none => f

/-- Maps a page at an address. The page gains its mapping before the one it replaces loses its
own, so that mapping a page over itself keeps it. -/
def map (dir : PageDir) (page : PhysPage) (va : Nat) (perm : Perm) (f : Frames) : Frames :=
  let old := f.mappings.get? (dir, va)
  let f := { f with counts := f.counts.insert page ((f.counts.get? page).getD 0 + 1)
                    mappings := f.mappings.insert (dir, va) (page, perm ||| Perm.present) }
  match old with
  | some (page, _) => release page f
  | none => f

/-- The addresses a directory maps. -/
def addresses (f : Frames) (dir : PageDir) : List Nat :=
  (f.mappings.entries.filter (·.1.1 = dir)).map (·.1.2)

/-- Makes a directory. -/
def createSpace : EStateM MemoryError Frames PageDir := fun f =>
  match f.fresh with
  | some (a, f) =>
    .ok ⟨a⟩ (note (.create (some ⟨a⟩)) { f with spaces := f.spaces ++ [⟨a⟩] })
  | none => .error .outOfMemory (note (.create none) f)

/-- Unmaps everything of a directory and frees it. -/
def destroySpace (dir : PageDir) (f : Frames) : Frames :=
  let f := note (.destroy dir) f
  let f := (f.addresses dir).foldl (fun f va => unmap dir va f) f
  { f with spaces := f.spaces.erase dir }

/-- Takes a page that is mapped nowhere. -/
def allocPage : EStateM MemoryError Frames PhysPage := fun f =>
  match f.fresh with
  | some (a, f) =>
    .ok ⟨a⟩ (note (.alloc (some ⟨a⟩)) { f with counts := f.counts.insert ⟨a⟩ 0 })
  | none => .error .outOfMemory (note (.alloc none) f)

/-- Gives back a page that was never mapped. -/
def freePage (page : PhysPage) (f : Frames) : Frames :=
  note (.free page)
    { f with counts := f.counts.erase page, contents := f.contents.erase page }

/-- Maps a page, unless mapping is made to fail. -/
def insert (dir : PageDir) (page : PhysPage) (va : Nat) (perm : Perm) :
    EStateM MemoryError Frames Unit := fun f =>
  if f.insertFails then
    .error .outOfMemory (note (.insert dir page va perm false) f)
  else
    .ok () (note (.insert dir page va perm true) (map dir page va perm f))

/-- Unmaps the page at an address. -/
def remove (dir : PageDir) (va : Nat) (f : Frames) : Frames :=
  unmap dir va (note (.remove dir va) f)

/-- Where a program starts that does not say so itself. -/
def defaultEntry : Nat := 0x800020

/-- The entry point of a program: its first eight bytes, if it has as many. -/
def entryOf (image : Image) : Nat :=
  if image.length < 8 then defaultEntry else Bytes.value (image.take 8)

/-- Loads a program: an image without bytes is none, and any other needs a page for its stack. -/
def loadImage (dir : PageDir) (image : Image) : EStateM MemoryError Frames Nat := do
  modify (note (.load dir image))
  if image = [] then
    throw .badImage
  let page ← allocPage
  insertOrFree page
  pure (entryOf image)
where
  /-- Maps the stack, or gives its page back. -/
  insertOrFree (page : PhysPage) : EStateM MemoryError Frames Unit := fun f =>
    match insert dir page (Layout.stackTop - Layout.pageSize) Perm.userWrite f with
    | .ok () f => .ok () f
    | .error e f => .error e (freePage page f)

instance : Memory Frames where
  createSpace := createSpace
  destroySpace := destroySpace
  allocPage := allocPage
  freePage := freePage
  insert := insert
  lookup f dir va := f.mappings.get? (dir, va)
  remove := remove
  loadImage := loadImage

/-- Maps a new page filled with a byte. A page that cannot be mapped stays taken. -/
def mapFilled (dir : PageDir) (va : Nat) (perm : Perm) (b : UInt8) :
    EStateM MemoryError Frames Unit := do
  let page ← allocPage
  modify (fill page b)
  insert dir page va perm

/-- Copies the page mapped at one address to the page mapped at another, where both are. -/
def copy (dir : PageDir) (src dst : Nat) (f : Frames) : Frames :=
  match f.mappings.get? (dir, src), f.mappings.get? (dir, dst) with
  | some (from', _), some (to', _) => fill to' (f.content from') f
  | _, _ => f

/-- A page of a directory is mapped in the span of the page table that covers an address. -/
def tablePresent (f : Frames) (dir : PageDir) (va : Nat) : Bool :=
  f.mappings.entries.any fun e =>
    e.1.1 = dir && e.1.2 / Layout.tableSpan == va / Layout.tableSpan

/-- The mappings, by directory and address. -/
def mappingTable (f : Frames) : List (PageDir × Nat × PhysPage × Perm) :=
  (f.mappings.entries.map fun e => (e.1.1, e.1.2, e.2.1, e.2.2)).mergeSort fun a b =>
    a.1.paddr < b.1.paddr || a.1.paddr == b.1.paddr && a.2.1 ≤ b.2.1

/-- The pages with the numbers of their mappings, by address. -/
def countTable (f : Frames) : List (PhysPage × Nat) :=
  f.counts.entries.mergeSort fun a b => a.1.paddr ≤ b.1.paddr

/-- The pages that are not filled with zeros, by address. -/
def contentTable (f : Frames) : List (PhysPage × UInt8) :=
  (f.contents.entries.filter fun e => e.2 ≠ 0).mergeSort fun a b => a.1.paddr ≤ b.1.paddr

/-- The journal so far, oldest first, and the memory with an empty one. -/
def takeJournal (f : Frames) : List MemoryEvent × Frames :=
  (f.journal.reverse, { f with journal := [] })

end Frames

end Exokernel
