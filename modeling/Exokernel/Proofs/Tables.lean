import Mathlib.Data.List.Basic
import Mathlib.Data.Nat.ModEq
import Exokernel.Firmware.Discovery
/-!
# Configuration tables as they are written

The bytes after the header of a configuration table are its entries, one after the other. An `Item`
is an entry with everything that is written in it, and `spell` writes a list of them. Reading the
entries of a table gives back the items that were written and no others (`entriesFrom_spell`,
`exists_spell_of_entriesFrom`). A whole table is written with its own length and with the byte that
makes its sum 0 (`tableOf`), and its header is read as it was written (`ofBytes_tableOf`).
-/

namespace Exokernel

/-! ## Fields of a record -/

namespace Bytes

variable {l : List UInt8} {i m n : Nat}

theorem ofNat_value (l : List UInt8) : ofNat l.length (value l) = l := by
  induction l with
  | nil => rfl
  | cons b rest ih =>
    have hlow : (b.toNat + 256 * value rest) % 256 = b.toNat := by
      have := b.toNat_lt
      omega
    have hhigh : (b.toNat + 256 * value rest) / 256 = value rest := by
      have := b.toNat_lt
      omega
    rw [value, List.length_cons, ofNat, hlow, hhigh, ih, UInt8.ofNat_toNat]

theorem value_lt (l : List UInt8) : value l < 256 ^ l.length := by
  induction l with
  | nil => exact Nat.one_pos
  | cons b rest ih =>
    have := b.toNat_lt
    rw [value, List.length_cons, Nat.pow_succ]
    omega

theorem length_sliceAt (h : i + n ≤ l.length) : (sliceAt l i n).length = n := by
  rw [sliceAt, List.length_take, List.length_drop]
  omega

/-- Neighbouring fields make up a larger one. -/
theorem sliceAt_append (l : List UInt8) (i m n : Nat) :
    sliceAt l i m ++ sliceAt l (i + m) n = sliceAt l i (m + n) := by
  rw [sliceAt, sliceAt, sliceAt, List.take_add, List.drop_drop]

theorem cons_byteAt (h : i < l.length) (rest : List UInt8) :
    byteAt l i :: rest = sliceAt l i 1 ++ rest := by
  have hbyte : byteAt l i = l[i] := by
    rw [byteAt, List.getD_eq_getElem?_getD, List.getElem?_eq_getElem h, Option.getD_some]
  rw [hbyte, sliceAt, List.drop_eq_getElem_cons h]
  rfl

theorem ofWord32_word32At (h : i + 4 ≤ l.length) : ofWord32 (word32At l i) = sliceAt l i 4 := by
  have hlen := length_sliceAt h
  have hlt : value (sliceAt l i 4) < 2 ^ 32 :=
    Nat.lt_of_lt_of_le (value_lt _) (by simp [hlen])
  rw [ofWord32, word32At, UInt32.toNat_ofNat', Nat.mod_eq_of_lt hlt]
  exact (congrArg (ofNat · _) hlen.symm).trans (ofNat_value _)

/-- **A field is found where it was written**, whatever follows it. -/
theorem sliceAt_of_prefix (before : List UInt8) {field : List UInt8} (h : before ++ field <+: l)
    (hi : before.length = i) (hn : field.length = n) : sliceAt l i n = field := by
  obtain ⟨after, rfl⟩ := h
  rw [sliceAt, List.append_assoc, List.drop_left' hi, List.take_left' hn]

theorem byteAt_of_prefix (before : List UInt8) {b : UInt8} (h : before ++ [b] <+: l)
    (hi : before.length = i) : byteAt l i = b := by
  obtain ⟨after, rfl⟩ := h
  rw [byteAt, List.append_assoc, List.getD_eq_getElem?_getD,
    List.getElem?_append_right (Nat.le_of_eq hi), hi, Nat.sub_self]
  rfl

theorem word16At_of_prefix (before : List UInt8) {w : UInt16} (h : before ++ ofWord16 w <+: l)
    (hi : before.length = i) : word16At l i = w := by
  rw [word16At, sliceAt_of_prefix before h hi (length_ofNat 2 _), ofWord16, value_ofNat,
    Nat.mod_eq_of_lt w.toNat_lt, UInt16.ofNat_toNat]

theorem word32At_of_prefix (before : List UInt8) {w : UInt32} (h : before ++ ofWord32 w <+: l)
    (hi : before.length = i) : word32At l i = w := by
  rw [word32At, sliceAt_of_prefix before h hi (length_ofNat 4 _), ofWord32, value_ofNat,
    Nat.mod_eq_of_lt w.toNat_lt, UInt32.ofNat_toNat]

@[simp] theorem checksum_nil : checksum [] = 0 := rfl

@[simp] theorem checksum_cons (b : UInt8) (l : List UInt8) : checksum (b :: l) = b + checksum l := by
  unfold checksum
  rw [List.foldl_cons, UInt8.add_comm 0 b, List.foldl_assoc]

@[simp] theorem checksum_append (l l' : List UInt8) :
    checksum (l ++ l') = checksum l + checksum l' := by
  induction l with
  | nil => exact (UInt8.zero_add _).symm
  | cons b rest ih => rw [List.cons_append, checksum_cons, checksum_cons, ih, UInt8.add_assoc]

end Bytes

namespace Firmware

/-! ## Items -/

namespace ProcessorEntry

/-- The entry as it is written. -/
def bytes (e : ProcessorEntry) : List UInt8 :=
  e.kind :: e.apicId :: e.apicVersion :: e.flags ::
    (e.signature ++ (Bytes.ofWord32 e.feature ++ e.reserved))

/-- The fields of many bytes have their lengths. -/
structure Fits (e : ProcessorEntry) : Prop where
  kind : e.kind = 0
  signature : e.signature.length = 4
  reserved : e.reserved.length = 8

variable {e : ProcessorEntry} {l rest : List UInt8}

theorem Fits.length_bytes (h : e.Fits) : e.bytes.length = size := by
  simp [bytes, Bytes.ofWord32, h.signature, h.reserved]

/-- **An entry is read as it was written.** -/
theorem Fits.read?_bytes (h : e.Fits) (rest : List UInt8) : read? (e.bytes ++ rest) = some e := by
  have hlen : ¬ (e.bytes ++ rest).length < size := by
    rw [List.length_append, h.length_bytes]
    omega
  let first := [e.kind, e.apicId, e.apicVersion, e.flags]
  have hsignature : Bytes.sliceAt (e.bytes ++ rest) 4 4 = e.signature :=
    Bytes.sliceAt_of_prefix first (by simp [bytes, first]) rfl h.signature
  have hfeature : Bytes.word32At (e.bytes ++ rest) 8 = e.feature :=
    Bytes.word32At_of_prefix (first ++ e.signature) (by simp [bytes, first])
      (by simp [first, h.signature])
  have hreserved : Bytes.sliceAt (e.bytes ++ rest) 12 8 = e.reserved :=
    Bytes.sliceAt_of_prefix (first ++ (e.signature ++ Bytes.ofWord32 e.feature))
      (by simp [bytes, first]) (by simp [first, h.signature, Bytes.ofWord32]) h.reserved
  rw [read?, if_neg hlen, hsignature, hfeature, hreserved]
  rfl

/-- **What is read was written there.** -/
theorem bytes_of_read? (h : read? l = some e) :
    e.kind = Bytes.byteAt l 0 ∧ e.signature.length = 4 ∧ e.reserved.length = 8 ∧
      l = e.bytes ++ l.drop size := by
  by_cases hlen : l.length < size
  · rw [read?, if_pos hlen] at h
    cases h
  rw [read?, if_neg hlen] at h
  cases h
  have hlen' : 20 ≤ l.length := Nat.not_lt.1 hlen
  refine ⟨rfl, Bytes.length_sliceAt (by omega), Bytes.length_sliceAt (by omega), ?_⟩
  refine (List.take_append_drop size l).symm.trans (congrArg (· ++ l.drop size) ?_)
  unfold bytes
  rw [Bytes.ofWord32_word32At (by omega), Bytes.cons_byteAt (by omega), Bytes.cons_byteAt (by omega),
    Bytes.cons_byteAt (by omega), Bytes.cons_byteAt (by omega), Bytes.sliceAt_append l 8 4 8,
    Bytes.sliceAt_append l 4 4 12, Bytes.sliceAt_append l 3 1 16, Bytes.sliceAt_append l 2 1 17,
    Bytes.sliceAt_append l 1 1 18, Bytes.sliceAt_append l 0 1 19]
  rfl

end ProcessorEntry

namespace IoApicEntry

/-- The entry as it is written. -/
def bytes (e : IoApicEntry) : List UInt8 :=
  e.kind :: e.apicId :: e.version :: e.flags :: Bytes.ofWord32 e.addr

variable {e : IoApicEntry} {l : List UInt8}

theorem length_bytes (e : IoApicEntry) : e.bytes.length = size := by
  simp [bytes, Bytes.ofWord32]

theorem read?_bytes (e : IoApicEntry) (rest : List UInt8) : read? (e.bytes ++ rest) = some e := by
  have hlen : ¬ (e.bytes ++ rest).length < size := by
    rw [List.length_append, length_bytes]
    omega
  have haddr : Bytes.word32At (e.bytes ++ rest) 4 = e.addr :=
    Bytes.word32At_of_prefix [e.kind, e.apicId, e.version, e.flags] (by simp [bytes]) rfl
  rw [read?, if_neg hlen, haddr]
  rfl

theorem bytes_of_read? (h : read? l = some e) :
    e.kind = Bytes.byteAt l 0 ∧ l = e.bytes ++ l.drop size := by
  by_cases hlen : l.length < size
  · rw [read?, if_pos hlen] at h
    cases h
  rw [read?, if_neg hlen] at h
  cases h
  have hlen' : 8 ≤ l.length := Nat.not_lt.1 hlen
  refine ⟨rfl, (List.take_append_drop size l).symm.trans (congrArg (· ++ l.drop size) ?_)⟩
  unfold bytes
  rw [Bytes.ofWord32_word32At (by omega), Bytes.cons_byteAt (by omega), Bytes.cons_byteAt (by omega),
    Bytes.cons_byteAt (by omega), Bytes.cons_byteAt (by omega), Bytes.sliceAt_append l 3 1 4,
    Bytes.sliceAt_append l 2 1 5, Bytes.sliceAt_append l 1 1 6, Bytes.sliceAt_append l 0 1 7]
  rfl

end IoApicEntry

/-- An entry of the configuration table with all that is written in it. -/
inductive Item where
  | processor (e : ProcessorEntry) (fits : e.Fits)
  | ioApic (e : IoApicEntry) (kind : e.kind = 2)
  /-- A bus, or the assignment of an interrupt. -/
  | other (kind : UInt8) (content : List UInt8) (known : kind = 1 ∨ kind = 3 ∨ kind = 4)
    (length : content.length = 7)

namespace Item

/-- What counts of an item. -/
def entry : Item → Entry
  | processor e _ => .processor e
  | ioApic e _ => .ioApic e
  | other _ _ _ _ => .other

/-- The item as it is written. -/
def bytes : Item → List UInt8
  | processor e _ => e.bytes
  | ioApic e _ => e.bytes
  | other kind content _ _ => kind :: content

variable {offset : Nat} {l : List UInt8} {e : Entry}

theorem length_bytes (i : Item) : i.bytes.length = i.entry.size := by
  cases i with
  | processor e fits => exact fits.length_bytes
  | ioApic e => exact e.length_bytes
  | other kind content known length => exact congrArg (· + 1) length

/-- **An item is read as what it is**, whatever follows it. -/
theorem read_bytes (i : Item) (offset : Nat) (rest : List UInt8) :
    Entry.read offset (i.bytes ++ rest) = .ok i.entry := by
  cases i with
  | processor e fits =>
    have hkind : Bytes.byteAt (e.bytes ++ rest) 0 = 0 := fits.kind
    simp only [Entry.read, bytes, hkind, fits.read?_bytes]
    rfl
  | ioApic e kind =>
    have hkind : Bytes.byteAt (e.bytes ++ rest) 0 = 2 := kind
    simp only [Entry.read, bytes, hkind, e.read?_bytes]
    rfl
  | other kind content known length =>
    have hkind : Bytes.byteAt (kind :: content ++ rest) 0 = kind := rfl
    have hlen : ¬ (kind :: content ++ rest).length < Entry.smallSize := by
      rw [List.length_append, List.length_cons, length]
      exact Nat.not_lt.2 (Nat.le_add_right _ _)
    rcases known with rfl | rfl | rfl <;>
    · simp only [Entry.read, bytes, hkind]
      exact if_neg hlen

/-- Eight bytes that start with the kind of a bus or of an interrupt are an item. -/
theorem exists_other (known : Bytes.byteAt l 0 = 1 ∨ Bytes.byteAt l 0 = 3 ∨ Bytes.byteAt l 0 = 4)
    (hlen : ¬ l.length < Entry.smallSize) :
    ∃ i : Item, i.entry = .other ∧ l = i.bytes ++ l.drop Entry.smallSize := by
  have hlen' : 8 ≤ l.length := Nat.not_lt.1 hlen
  have hcontent : (Bytes.sliceAt l 1 7).length = 7 := Bytes.length_sliceAt (by omega)
  refine ⟨other (Bytes.byteAt l 0) (Bytes.sliceAt l 1 7) known hcontent, rfl, ?_⟩
  refine (List.take_append_drop Entry.smallSize l).symm.trans (congrArg (· ++ l.drop _) ?_)
  rw [bytes, Bytes.cons_byteAt (by omega), Bytes.sliceAt_append l 0 1 7]
  rfl

/-- **What is read is an item** that was written there. -/
theorem exists_of_read (h : Entry.read offset l = .ok e) :
    ∃ i : Item, i.entry = e ∧ l = i.bytes ++ l.drop e.size := by
  have hother : Bytes.byteAt l 0 = 1 ∨ Bytes.byteAt l 0 = 3 ∨ Bytes.byteAt l 0 = 4 →
      (if l.length < Entry.smallSize then .error (.truncated offset) else .ok .other) =
        (.ok e : Except MpError Entry) → ∃ i : Item, i.entry = e ∧ l = i.bytes ++ l.drop e.size := by
    intro known h
    split at h
    · cases h
    · next hlen =>
      cases h
      exact exists_other known hlen
  unfold Entry.read at h
  split at h
  · next hkind =>
    split at h
    · next p hp =>
      cases h
      obtain ⟨hfirst, hsig, hres, hl⟩ := ProcessorEntry.bytes_of_read? hp
      exact ⟨processor p ⟨hfirst.trans hkind, hsig, hres⟩, rfl, hl⟩
    · cases h
  · next hkind =>
    split at h
    · next p hp =>
      cases h
      obtain ⟨hfirst, hl⟩ := IoApicEntry.bytes_of_read? hp
      exact ⟨ioApic p (hfirst.trans hkind), rfl, hl⟩
    · cases h
  · next hkind => exact hother (.inl hkind) h
  · next hkind => exact hother (.inr (.inl hkind)) h
  · next hkind => exact hother (.inr (.inr hkind)) h
  · cases h

end Item

/-- Items as they are written, one after the other. -/
def spell (items : List Item) : List UInt8 := items.flatMap Item.bytes

/-- **The entries of what was written** are the items, and all can be read. -/
theorem entriesFrom_spell (items : List Item) (offset : Nat) :
    entriesFrom offset (spell items) = (items.map Item.entry, none) := by
  induction items generalizing offset with
  | nil =>
    rw [entriesFrom]
    exact dif_pos rfl
  | cons i rest ih =>
    have hspell : spell (i :: rest) = i.bytes ++ spell rest := List.flatMap_cons
    have hne : i.bytes ++ spell rest ≠ [] := by
      refine List.ne_nil_of_length_pos ?_
      rw [List.length_append, i.length_bytes]
      exact Nat.add_pos_left i.entry.size_pos _
    rw [hspell, entriesFrom, dif_neg hne, i.read_bytes]
    dsimp only
    rw [List.drop_left' i.length_bytes, ih]
    rfl

/-- **Entries that can all be read were written.** -/
theorem exists_spell_of_entriesFrom {offset : Nat} {l : List UInt8} {entries : List Entry}
    (h : entriesFrom offset l = (entries, none)) :
    ∃ items, items.map Item.entry = entries ∧ spell items = l := by
  induction offset, l using entriesFrom.induct generalizing entries with
  | case1 offset =>
    rw [entriesFrom, dif_pos rfl] at h
    cases h
    exact ⟨[], rfl, rfl⟩
  | case2 offset l hne e he =>
    rw [entriesFrom, dif_neg hne, he] at h
    cases h
  | case3 offset l hne entry hentry tail bad htail ih =>
    rw [entriesFrom, dif_neg hne, hentry] at h
    dsimp only at h
    rw [htail] at h
    cases h
    obtain ⟨items, hitems, hspell⟩ := ih htail
    obtain ⟨i, hi, hl⟩ := Item.exists_of_read hentry
    refine ⟨i :: items, by rw [List.map_cons, hi, hitems], ?_⟩
    rw [hl, ← hspell]
    exact List.flatMap_cons

/-! ## Whole tables -/

namespace Header

/-- The header as it is written. -/
def bytes (h : Header) : List UInt8 :=
  h.signature ++ (Bytes.ofWord16 h.length ++ (h.version :: h.checksum :: (h.product ++
    (Bytes.ofWord32 h.oemTable ++ (Bytes.ofWord16 h.oemLength ++ (Bytes.ofWord16 h.entryCount ++
      (Bytes.ofWord32 h.lapicAddr ++ (Bytes.ofWord16 h.extLength ++
        [h.extChecksum, h.reserved]))))))))

/-- The fields of many bytes have their lengths. -/
structure Fits (h : Header) : Prop where
  signature : h.signature.length = 4
  product : h.product.length = 20

variable {h : Header}

theorem Fits.length_bytes (hfits : h.Fits) : h.bytes.length = size := by
  simp [bytes, Bytes.ofWord16, Bytes.ofWord32, hfits.signature, hfits.product]

/-- **A header is read as it was written.** -/
theorem Fits.ofBytes_bytes (hfits : h.Fits) (rest : List UInt8) :
    ofBytes (h.bytes ++ rest) = h := by
  obtain ⟨hsig, hproduct⟩ := hfits
  obtain ⟨signature, length, version, checksum, product, oemTable, oemLength, entryCount, lapicAddr,
    extLength, extChecksum, reserved⟩ := h
  unfold ofBytes bytes
  dsimp only at hsig hproduct ⊢
  have hword16 : ∀ w, (Bytes.ofWord16 w).length = 2 := fun w => Bytes.length_ofNat 2 _
  have hword32 : ∀ w, (Bytes.ofWord32 w).length = 4 := fun w => Bytes.length_ofNat 4 _
  -- what stands before the product, and before the words that follow it
  let first := signature ++ (Bytes.ofWord16 length ++ [version, checksum])
  have hfirst : first.length = 8 := by simp [first, hsig, hword16]
  let second := first ++ (product ++ (Bytes.ofWord32 oemTable ++ (Bytes.ofWord16 oemLength ++
    Bytes.ofWord16 entryCount)))
  have hsecond : second.length = 36 := by simp [second, hfirst, hproduct, hword16, hword32]
  rw [Header.mk.injEq]
  refine ⟨Bytes.sliceAt_of_prefix [] (by simp) rfl hsig,
    Bytes.word16At_of_prefix signature (by simp) hsig,
    Bytes.byteAt_of_prefix (signature ++ Bytes.ofWord16 length) (by simp) (by simp [hsig, hword16]),
    Bytes.byteAt_of_prefix (signature ++ (Bytes.ofWord16 length ++ [version])) (by simp)
      (by simp [hsig, hword16]),
    Bytes.sliceAt_of_prefix first (by simp [first]) hfirst hproduct,
    Bytes.word32At_of_prefix (first ++ product) (by simp [first]) (by simp [hfirst, hproduct]),
    Bytes.word16At_of_prefix (first ++ (product ++ Bytes.ofWord32 oemTable)) (by simp [first])
      (by simp [hfirst, hproduct, hword32]),
    Bytes.word16At_of_prefix (first ++ (product ++ (Bytes.ofWord32 oemTable ++
      Bytes.ofWord16 oemLength))) (by simp [first]) (by simp [hfirst, hproduct, hword16, hword32]),
    Bytes.word32At_of_prefix second (by simp [second, first]) hsecond,
    Bytes.word16At_of_prefix (second ++ Bytes.ofWord32 lapicAddr) (by simp [second, first])
      (by simp [hsecond, hword32]),
    Bytes.byteAt_of_prefix (second ++ (Bytes.ofWord32 lapicAddr ++ Bytes.ofWord16 extLength))
      (by simp [second, first]) (by simp [hsecond, hword16, hword32]),
    Bytes.byteAt_of_prefix (second ++ (Bytes.ofWord32 lapicAddr ++ (Bytes.ofWord16 extLength ++
      [extChecksum]))) (by simp [second, first]) (by simp [hsecond, hword16, hword32])⟩

/-- The byte for the sum counts like every other one. -/
theorem checksum_bytes (h : Header) :
    Bytes.checksum h.bytes = Bytes.checksum ({ h with checksum := 0 }).bytes + h.checksum := by
  simp only [bytes, Bytes.checksum_append, Bytes.checksum_cons, UInt8.zero_add]
  ac_rfl

/-- The header of a table with some items: it has the signature, the length of the whole table and
the byte that makes the sum of the table 0. -/
def sealed (h : Header) (items : List Item) : Header :=
  let blank := { h with
    signature := magic
    length := UInt16.ofNat (size + (spell items).length)
    checksum := 0 }
  { blank with checksum := 0 - Bytes.checksum (blank.bytes ++ spell items) }

theorem fits_sealed (hproduct : h.product.length = 20) (items : List Item) :
    (h.sealed items).Fits := ⟨rfl, hproduct⟩

end Header

/-- A whole table as it is written. -/
def tableOf (h : Header) (items : List Item) : List UInt8 := (h.sealed items).bytes ++ spell items

/-- **The bytes of a table add up to 0.** -/
theorem checksum_tableOf (h : Header) (items : List Item) : Bytes.checksum (tableOf h items) = 0 := by
  have hseal : (h.sealed items).checksum =
      0 - Bytes.checksum (({ h.sealed items with checksum := 0 } : Header).bytes ++ spell items) := rfl
  rw [tableOf, Bytes.checksum_append, Header.checksum_bytes, hseal, Bytes.checksum_append]
  generalize Bytes.checksum _ = a
  generalize Bytes.checksum _ = b
  grind

section TableOf

variable {h : Header} (hproduct : h.product.length = 20) (items : List Item)
include hproduct

theorem length_tableOf : (tableOf h items).length = Header.size + (spell items).length := by
  rw [tableOf, List.length_append, (Header.fits_sealed hproduct items).length_bytes]

/-- **The header of a table is read as it was written.** -/
theorem ofBytes_tableOf : Header.ofBytes (tableOf h items) = h.sealed items :=
  (Header.fits_sealed hproduct items).ofBytes_bytes _

theorem drop_tableOf : (tableOf h items).drop Header.size = spell items :=
  List.drop_left' (Header.fits_sealed hproduct items).length_bytes

theorem take_tableOf : (tableOf h items).take Header.size = (h.sealed items).bytes :=
  List.take_left' (Header.fits_sealed hproduct items).length_bytes

end TableOf

end Firmware

end Exokernel
