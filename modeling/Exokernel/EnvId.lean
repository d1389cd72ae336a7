import Exokernel.Layout
import Exokernel.Fault
import Exokernel.Text.Hex
/-!
# Environment identifiers

An identifier is a nonzero 32-bit word. Its low bits name a slot of the environment table, the
bits from `EnvId.generationShift` on count the occupants of that slot, so that the identifier of
an earlier occupant no longer matches. Generations run from 1 to `EnvId.generationLimit - 1` and
then start over, which keeps every identifier the kernel gives out below 2³¹.
-/

namespace Exokernel

/-- The identifier of an environment. -/
structure EnvId where
  raw : UInt32
  raw_ne_zero : raw ≠ 0
deriving DecidableEq

namespace EnvId

/-- The first bit of the generation. -/
abbrev generationShift : Nat := 12

/-- The distance between two generations of a slot. -/
abbrev generationStep : Nat := 4096

/-- The first generation that is not given out: its identifiers would be negative as signed
words. -/
abbrev generationLimit : Nat := 0x80000

/-- The identifier a word stands for; 0 stands for none. -/
def ofRaw? (raw : UInt32) : Option EnvId :=
  if h : raw ≠ 0 then some ⟨raw, h⟩ else none

/-- Identifiers are ordered as words. -/
instance : Ord EnvId := ⟨fun a b => compare a.raw b.raw⟩

/-- The slot an identifier names. -/
def slot (id : EnvId) : Slot :=
  ⟨id.raw.toNat % slotCount, Nat.mod_lt _ (by decide)⟩

/-- The count of the slot's occupants, as far as the identifier holds it. -/
def generation (id : EnvId) : Nat :=
  id.raw.toNat / generationStep

/-- The generation after `g`: the next one, or 1 again when the identifiers would run out. -/
def nextGeneration (g : Nat) : Nat :=
  if g + 1 < generationLimit then g + 1 else 1

theorem nextGeneration_pos (g : Nat) : 0 < nextGeneration g := by
  unfold nextGeneration
  split <;> omega

theorem nextGeneration_lt (g : Nat) : nextGeneration g < generationLimit := by
  unfold nextGeneration
  split
  · assumption
  · decide

/-- The identifier of a generation of a slot. -/
def ofGeneration (g : Nat) (pos : 0 < g) (lt : g < generationLimit) (s : Slot) : EnvId where
  raw := UInt32.ofNatLT (g * generationStep + s) (by
    have := s.isLt
    simp only [generationLimit, generationStep, slotCount, UInt32.size] at *
    omega)
  raw_ne_zero := by
    intro h
    have := congrArg UInt32.toNat h
    simp only [UInt32.toNat_ofNatLT, UInt32.toNat_zero, generationStep] at this
    omega

/-- The identifier of the occupant of `s` that follows the one called `prev`. -/
def next (prev : Option EnvId) (s : Slot) : EnvId :=
  let g := nextGeneration ((prev.map generation).getD 0)
  ofGeneration g (nextGeneration_pos _) (nextGeneration_lt _) s

@[simp] theorem raw_ofGeneration (g : Nat) (pos : 0 < g) (lt : g < generationLimit) (s : Slot) :
    (ofGeneration g pos lt s).raw.toNat = g * generationStep + s := rfl

/-- The next identifier of a slot names that slot. -/
@[simp] theorem slot_next (prev : Option EnvId) (s : Slot) : (next prev s).slot = s := by
  apply Fin.ext
  simp only [slot, next, raw_ofGeneration, generationStep, slotCount]
  have := s.isLt
  simp only [slotCount] at this
  omega

/-- The next identifier of a slot is of the next generation. -/
@[simp] theorem generation_next (prev : Option EnvId) (s : Slot) :
    (next prev s).generation = nextGeneration ((prev.map generation).getD 0) := by
  simp only [generation, next, raw_ofGeneration, generationStep]
  have := s.isLt
  simp only [slotCount] at this
  omega

/-- The next identifier of the slot with a number, which has to be a slot's. -/
def next? (prev : Option EnvId) (n : Nat) : Except Fault EnvId :=
  if h : n < slotCount then .ok (next prev ⟨n, h⟩) else .error (.failed none)

/-- The word that names an environment, with 0 for none. -/
def rawOrZero (id : Option EnvId) : UInt32 :=
  match id with
  | some id => id.raw
  | none => 0

/-- Identifiers as messages show them: eight hexadecimal digits. -/
def text (id : EnvId) : String :=
  Hex.padded 8 id.raw.toNat

/-- An identifier or none, as messages show it. -/
def textOrZero (id : Option EnvId) : String :=
  Hex.padded 8 (rawOrZero id).toNat

end EnvId

end Exokernel
