import Exokernel.EnvId
/-!
# Identifiers in decimal

The decimal text of an identifier: an optional `+` and ASCII digits, naming a word other than 0.
Digits are taken from the left, and the first thing wrong decides the error.
-/

namespace Exokernel

namespace EnvId

/-- Why a text is not an identifier. -/
inductive DecimalError where
  | empty
  | invalidDigit
  | tooLarge
  | zero
deriving DecidableEq

/-- What is wrong with the text. -/
def DecimalError.message : DecimalError → String
  | .empty => "cannot parse integer from empty string"
  | .invalidDigit => "invalid digit found in string"
  | .tooLarge => "number too large to fit in target type"
  | .zero => "number would be zero for non-zero type"

/-- The value of a decimal digit. -/
def digit? (c : Char) : Option Nat :=
  if '0' ≤ c ∧ c ≤ '9' then some (c.toNat - '0'.toNat) else none

/-- The word a run of digits continues `n` to. -/
def ofDigits (n : Nat) : List Char → Except DecimalError Nat
  | [] => .ok n
  | c :: rest =>
    match digit? c with
    | none => .error .invalidDigit
    | some d =>
      if 10 * n + d < UInt32.size then ofDigits (10 * n + d) rest else .error .tooLarge

/-- The word a decimal text denotes. -/
def wordOfDecimal : List Char → Except DecimalError Nat
  | [] => .error .empty
  | ['+'] => .error .invalidDigit
  | '+' :: rest => ofDigits 0 rest
  | text => ofDigits 0 text

/-- The identifier a decimal text denotes. -/
def ofDecimal (text : String) : Except DecimalError EnvId := do
  let n ← wordOfDecimal text.toList
  match ofRaw? (UInt32.ofNat n) with
  | some id => .ok id
  | none => .error .zero

end EnvId

end Exokernel
