/-!
# Hexadecimal text

Numbers in the lower-case hexadecimal of the kernel's messages, and bytes as two digits each.
-/

namespace Exokernel

namespace Hex

/-- The fewest hexadecimal digits of a number. -/
def digits (n : Nat) : String :=
  String.ofList (Nat.toDigits 16 n)

/-- At least `width` digits, with zeros in front. -/
def padded (width n : Nat) : String :=
  let s := digits n
  String.ofList (List.replicate (width - s.length) '0') ++ s

/-- An address as messages show it: `0x` and the fewest digits. -/
def address (n : Nat) : String :=
  "0x" ++ digits n

/-- Bytes, two digits each. -/
def ofBytes (l : List UInt8) : String :=
  String.join (l.map fun b => padded 2 b.toNat)

/-- The value of a hexadecimal digit. -/
def digit? (c : Char) : Option Nat :=
  if '0' ≤ c ∧ c ≤ '9' then some (c.toNat - '0'.toNat)
  else if 'a' ≤ c ∧ c ≤ 'f' then some (c.toNat - 'a'.toNat + 10)
  else none

/-- The bytes a list of digits denotes, two for each. -/
def bytesOfDigits : List Char → Option (List UInt8)
  | [] => some []
  | [_] => none
  | a :: b :: rest => do
    let high ← digit? a
    let low ← digit? b
    pure (UInt8.ofNat (16 * high + low) :: (← bytesOfDigits rest))

/-- The bytes a text denotes. -/
def toBytes? (s : String) : Option (List UInt8) := bytesOfDigits s.toList

end Hex

end Exokernel
