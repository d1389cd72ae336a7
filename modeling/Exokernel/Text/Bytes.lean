/-!
# Little-endian words

Words laid out in memory with their least byte first, and the fields of a record at their byte
offsets. Reading what was written gives the number back (`value_ofNat`).
-/

namespace Exokernel

namespace Bytes

/-- The `n` low bytes of a number, least first. -/
def ofNat : Nat → Nat → List UInt8
  | 0, _ => []
  | n + 1, v => UInt8.ofNat (v % 256) :: ofNat n (v / 256)

/-- The number bytes spell, least first. -/
def value : List UInt8 → Nat
  | [] => 0
  | b :: rest => b.toNat + 256 * value rest

@[simp] theorem length_ofNat (n v : Nat) : (ofNat n v).length = n := by
  induction n generalizing v with
  | zero => rfl
  | succ n ih => simp [ofNat, ih]

/-- Bytes spell the number they are of, reduced to their width. -/
theorem value_ofNat (n v : Nat) : value (ofNat n v) = v % Nat.pow 256 n := by
  induction n generalizing v with
  | zero => simp [ofNat, value, Nat.mod_one]
  | succ n ih =>
    have : (UInt8.ofNat (v % 256)).toNat = v % 256 := by simp
    have hpow : Nat.pow 256 (n + 1) = 256 * Nat.pow 256 n := Nat.mul_comm _ _
    rw [ofNat, value, this, ih, hpow, Nat.mod_mul]

/-- The bytes of a 16-bit word. -/
def ofWord16 (w : UInt16) : List UInt8 := ofNat 2 w.toNat

/-- The bytes of a 32-bit word. -/
def ofWord32 (w : UInt32) : List UInt8 := ofNat 4 w.toNat

/-- The `n` bytes from an offset on. -/
def sliceAt (l : List UInt8) (i n : Nat) : List UInt8 :=
  (l.drop i).take n

/-- The byte at an offset. -/
def byteAt (l : List UInt8) (i : Nat) : UInt8 :=
  l.getD i 0

/-- The 16-bit word at an offset. -/
def word16At (l : List UInt8) (i : Nat) : UInt16 :=
  UInt16.ofNat (value (sliceAt l i 2))

/-- The 32-bit word at an offset. -/
def word32At (l : List UInt8) (i : Nat) : UInt32 :=
  UInt32.ofNat (value (sliceAt l i 4))

/-- The sum of all bytes, modulo 256. -/
def checksum (l : List UInt8) : UInt8 :=
  l.foldl (· + ·) 0

/-- The first `n` pieces of `size` bytes each. -/
def pieces (size : Nat) : Nat → List UInt8 → List (List UInt8)
  | 0, _ => []
  | n + 1, l => l.take size :: pieces size n (l.drop size)

end Bytes

end Exokernel
