import Exokernel.Perm
/-!
# Memory

The kernel reaches pages and page tables through the operations of `Memory` alone. Each of them
may fail only with a `MemoryError`, and leaves a new memory behind in either case.
-/

namespace Exokernel

/-- The physical address of a page directory; 0 is that of no directory. -/
structure PageDir where
  paddr : Nat
deriving DecidableEq, Inhabited

/-- What a free slot holds for a page directory. -/
def PageDir.null : PageDir := ⟨0⟩

/-- The physical address of a page. -/
structure PhysPage where
  paddr : Nat
deriving DecidableEq, Inhabited

/-- Why memory refuses. -/
inductive MemoryError where
  | outOfMemory
  | badImage
deriving DecidableEq, Inhabited

/-- What went wrong. -/
def MemoryError.message : MemoryError → String
  | .outOfMemory => "out of memory"
  | .badImage => "bad program image"

/-- The name of the reason. -/
def MemoryError.name : MemoryError → String
  | .outOfMemory => "OutOfMemory"
  | .badImage => "BadImage"

/-- A program image. -/
abbrev Image := List UInt8

/-- Pages, page tables and program images. -/
class Memory (M : Type) where
  /-- Makes a page directory that holds the kernel's mappings. -/
  createSpace : EStateM MemoryError M PageDir
  /-- Unmaps every user page of a directory and frees it. -/
  destroySpace : PageDir → M → M
  /-- Takes a page of zeros that is mapped nowhere. -/
  allocPage : EStateM MemoryError M PhysPage
  /-- Gives back a page that was never mapped. -/
  freePage : PhysPage → M → M
  /-- Maps a page at an address, replacing what is mapped there. -/
  insert : PageDir → PhysPage → Nat → Perm → EStateM MemoryError M Unit
  /-- The page mapped at an address, with its permission. -/
  lookup : M → PageDir → Nat → Option (PhysPage × Perm)
  /-- Unmaps the page at an address, if there is one. -/
  remove : PageDir → Nat → M → M
  /-- Loads a program and maps its first stack; the answer is the entry point. -/
  loadImage : PageDir → Image → EStateM MemoryError M Nat

end Exokernel
