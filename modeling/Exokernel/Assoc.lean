/-!
# Association tables

A finite table from keys to values, latest entry first and no key twice. Reading after writing is
`get?_insert_self` and `get?_insert_ne`; reading after erasing is `get?_erase_self` and
`get?_erase_ne`.
-/

namespace Exokernel

/-- A finite table from keys to values. -/
structure Assoc (κ α : Type) where
  /-- The entries, latest first. -/
  entries : List (κ × α) := []

namespace Assoc

variable {κ α : Type} [DecidableEq κ]

/-- The table without entries. -/
def empty : Assoc κ α := ⟨[]⟩

/-- The value at a key, if there is one. -/
def get? (t : Assoc κ α) (k : κ) : Option α :=
  (t.entries.find? (·.1 = k)).map (·.2)

/-- The table without the entry at a key. -/
def erase (t : Assoc κ α) (k : κ) : Assoc κ α :=
  ⟨t.entries.filter (·.1 ≠ k)⟩

/-- The table with a value put at a key, replacing the one there. -/
def insert (t : Assoc κ α) (k : κ) (a : α) : Assoc κ α :=
  ⟨(k, a) :: (t.erase k).entries⟩

/-- The table of a list of entries; a later entry replaces an earlier one. -/
def ofList (l : List (κ × α)) : Assoc κ α :=
  l.foldl (fun t e => t.insert e.1 e.2) empty

@[simp] theorem get?_empty (k : κ) : (empty : Assoc κ α).get? k = none := rfl

@[simp] theorem get?_insert_self (t : Assoc κ α) (k : κ) (a : α) :
    (t.insert k a).get? k = some a := by
  simp [get?, insert]

@[simp] theorem get?_erase_self (t : Assoc κ α) (k : κ) : (t.erase k).get? k = none := by
  simp [get?, erase]

theorem get?_erase_ne (t : Assoc κ α) {k k' : κ} (h : k' ≠ k) :
    (t.erase k).get? k' = t.get? k' := by
  unfold get? erase
  congr 1
  induction t.entries with
  | nil => rfl
  | cons e l ih =>
    by_cases he : e.1 = k
    · have : e.1 ≠ k' := fun h' => h (h' ▸ he)
      simp_all
    · by_cases hk : e.1 = k' <;> simp_all

theorem get?_insert_ne (t : Assoc κ α) {k k' : κ} (a : α) (h : k' ≠ k) :
    (t.insert k a).get? k' = t.get? k' := by
  rw [← get?_erase_ne t h]
  have : ¬ k = k' := fun h' => h h'.symm
  simp [get?, insert, this]

/-- What is read is an entry of the table. -/
theorem mem_entries_of_get? {t : Assoc κ α} {k : κ} {a : α} (h : t.get? k = some a) :
    (k, a) ∈ t.entries := by
  obtain ⟨e, he, rfl⟩ := Option.map_eq_some_iff.1 h
  have hk : e.1 = k := by simpa using List.find?_some he
  rw [← hk]
  exact List.mem_of_find?_eq_some he

end Assoc

end Exokernel
