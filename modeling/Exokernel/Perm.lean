import Exokernel.Layout
/-!
# Page permissions

The permission bits of a mapping. A user environment may ask only for a present user page, with
the write bit and the bits left to software at its choice (`Perm.ofUser?`).
-/

namespace Exokernel

/-- The permission bits of a mapping. -/
structure Perm where
  bits : UInt32
deriving DecidableEq, Inhabited

namespace Perm

/-- No permission at all. -/
def empty : Perm := ⟨0⟩

/-- The page is present. -/
def present : Perm := ⟨0x001⟩

/-- The page may be written. -/
def write : Perm := ⟨0x002⟩

/-- User code may reach the page. -/
def user : Perm := ⟨0x004⟩

/-- Writes go through the cache. -/
def writeThrough : Perm := ⟨0x008⟩

/-- The page is not cached. -/
def cacheDisabled : Perm := ⟨0x010⟩

/-- The page has been read or written. -/
def accessed : Perm := ⟨0x020⟩

/-- The page has been written. -/
def dirty : Perm := ⟨0x040⟩

/-- The entry maps a large page. -/
def largePage : Perm := ⟨0x080⟩

/-- The mapping outlives a change of page directory. -/
def global : Perm := ⟨0x100⟩

/-- A page that is copied before it is written; one of the bits left to software. -/
def copyOnWrite : Perm := ⟨0x800⟩

/-- The bits left to software. -/
def available : Perm := ⟨0xe00⟩

/-- The bits of both. -/
def union (a b : Perm) : Perm := ⟨a.bits ||| b.bits⟩

instance : OrOp Perm := ⟨union⟩

/-- Every bit of `b` is in `a`. -/
def contains (a b : Perm) : Bool := a.bits &&& b.bits == b.bits

/-- Some bit of `b` is in `a`. -/
def intersects (a b : Perm) : Bool := a.bits &&& b.bits != 0

/-- The bits a user environment may ask for. -/
def userBits : Perm := present ||| write ||| user ||| available

/-- All bits with a meaning. -/
def known : Perm :=
  present ||| write ||| user ||| writeThrough ||| cacheDisabled ||| accessed ||| dirty |||
    largePage ||| global ||| available

/-- A present page user code may read. -/
def userRead : Perm := user ||| present

/-- A present page user code may read and write. -/
def userWrite : Perm := user ||| write ||| present

/-- The bits of a word, if all have a meaning. -/
def ofKnown? (raw : UInt32) : Option Perm :=
  if known.contains ⟨raw⟩ then some ⟨raw⟩ else none

/-- The permission a user environment asks for with a word: the page is present and a user's, and
no bit is outside the user's. -/
def ofUser? (raw : UInt32) : Option Perm :=
  let perm : Perm := ⟨raw⟩
  if perm.contains userRead && userBits.contains perm then some perm else none

/-- The flags with their names, single bits and sets of them. -/
def flags : List (String × Perm) :=
  [("P", present), ("W", write), ("U", user), ("PWT", writeThrough), ("PCD", cacheDisabled),
    ("A", accessed), ("D", dirty), ("PS", largePage), ("G", global), ("COW", copyOnWrite),
    ("AVAIL", available), ("USER", userBits)]

/-- The names of the flags that are wholly in a permission. -/
def flagNames (p : Perm) : List String :=
  (flags.filter fun f => p.contains f.2).map (·.1)

end Perm

/-- A page-aligned address below the end of the user's. -/
def isUserPage (va : Nat) : Bool :=
  va < Layout.userTop && va % Layout.pageSize == 0

/-- The address of the page an address lies in. -/
def pageOf (va : Nat) : Nat := va - va % Layout.pageSize

end Exokernel
