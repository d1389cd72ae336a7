/-!
# Physical memory

What the search for the firmware's tables may read: some ranges of physical addresses, each with
as many bytes as it is long.
-/

namespace Exokernel

/-- Read-only physical memory. -/
structure PhysMemory where
  /-- The bytes of a range, given by its first address and its length, if it can be read. -/
  bytes : Nat → Nat → Option (List UInt8)
  length_bytes : ∀ {p n l}, bytes p n = some l → l.length = n

/-- A readable piece of physical memory. -/
structure Region where
  start : Nat
  content : List UInt8

/-- Puts bytes over those from an offset on; bytes past the end are dropped. -/
def Region.put (r : Region) (offset : Nat) (bytes : List UInt8) : Region :=
  let n := r.content.length
  { r with content := (r.content.take offset ++ bytes ++
      r.content.drop (offset + bytes.length)).take n }

namespace PhysMemory

/-- The region an address belongs to: the one with the greatest start that is not past it. -/
def regionOf (regions : List Region) (p : Nat) : Option Region :=
  regions.foldl (fun best r =>
    if r.start ≤ p then
      match best with
      | some b => if b.start ≤ r.start then some r else best
      | none => some r
    else
      best) none

/-- The memory that consists of some regions. A range can be read if it lies in one of them as a
whole. -/
def ofRegions (regions : List Region) : PhysMemory where
  bytes p n :=
    match regionOf regions p with
    | some r =>
      if p - r.start + n ≤ r.content.length then
        some ((r.content.drop (p - r.start)).take n)
      else
        none
    | none => none
  length_bytes := by
    intro p n l h
    split at h
    · split at h
      · cases h
        simp only [List.length_take, List.length_drop]
        omega
      · cases h
    · cases h

end PhysMemory

/-- Physical memory seen through a linear mapping: the address `p` is at `p + offset`. -/
structure LinearView where
  offset : Nat

/-- Neither end of a range, as the view sees it, is past the last 64-bit address. -/
def LinearView.covers (v : LinearView) (p n : Nat) : Bool :=
  p + v.offset < UInt64.size && p + v.offset + n < UInt64.size

end Exokernel
