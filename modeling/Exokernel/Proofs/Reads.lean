import Exokernel.Proofs.Acceptance
/-!
# What the discovery reads

An `Asking` asks memory for one range of bytes after the other, and each answer decides how it goes
on. `reads` are the ranges a memory is asked for, and nothing else of the memory matters
(`Asking.run_congr`). The discovery is such a computation (`Asking.run_discover`), and the places it
asks for are named by fields of the firmware's records. `NamesLow` says which of these fields have
to stay below the end of low memory, the first MiB, for the discovery to stay there.
-/

namespace Exokernel

namespace Firmware

/-- A computation that asks memory for ranges of bytes, given by their first address and their
length. -/
inductive Asking (α : Type) where
  | pure (a : α)
  | ask (p n : Nat) (next : Option (List UInt8) → Asking α)

namespace Asking

variable {α β : Type} {mem mem' : PhysMemory}

/-- What the computation comes to on a memory. -/
def run (mem : PhysMemory) : Asking α → α
  | .pure a => a
  | .ask p n next => (next (mem.bytes p n)).run mem

/-- The ranges a memory is asked for, in order. -/
def reads (mem : PhysMemory) : Asking α → List (Nat × Nat)
  | .pure _ => []
  | .ask p n next => (p, n) :: (next (mem.bytes p n)).reads mem

/-- Goes on with what a computation came to. -/
def bind : Asking α → (α → Asking β) → Asking β
  | .pure a, f => f a
  | .ask p n next, f => .ask p n fun l => (next l).bind f

theorem run_bind (mem : PhysMemory) (q : Asking α) (f : α → Asking β) :
    (q.bind f).run mem = (f (q.run mem)).run mem := by
  induction q with
  | pure a => rfl
  | ask p n next ih => exact ih (mem.bytes p n)

theorem reads_bind (mem : PhysMemory) (q : Asking α) (f : α → Asking β) :
    (q.bind f).reads mem = q.reads mem ++ (f (q.run mem)).reads mem := by
  induction q with
  | pure a => rfl
  | ask p n next ih => exact congrArg ((p, n) :: ·) (ih (mem.bytes p n))

/-- **Memories that answer alike what one of them is asked for are not told apart.** -/
theorem run_congr {q : Asking α} (h : ∀ r ∈ q.reads mem, mem'.bytes r.1 r.2 = mem.bytes r.1 r.2) :
    q.run mem' = q.run mem := by
  induction q with
  | pure a => rfl
  | ask p n next ih =>
    have hhere : mem'.bytes p n = mem.bytes p n := h (p, n) List.mem_cons_self
    rw [run, run, hhere]
    exact ih (mem.bytes p n) fun r hr => h r (List.mem_cons_of_mem _ hr)

/-! ## The discovery as it asks -/

/-- The first floating pointer of a range. -/
def searchRange (start len : Nat) : Asking (Option FloatingPointer) :=
  .ask start len fun
    | some l => .pure
        ((Bytes.pieces FloatingPointer.size (len / FloatingPointer.size) l).findSome? pointerOf)
    | none => .pure none

/-- The floating pointer of the first place that has one; the places after it are not looked at. -/
def searchThrough : List (Nat × Nat) → Asking (Option FloatingPointer)
  | [] => .pure none
  | place :: rest => (searchRange place.1 place.2).bind fun
    | some p => .pure (some p)
    | none => searchThrough rest

/-- The floating pointer of the machine. -/
def search : Asking (Option FloatingPointer) :=
  .ask biosData biosDataLength fun
    | some bda => searchThrough (searchPlaces bda ++ [(biosRom, biosRomLength)])
    | none => searchThrough [(biosRom, biosRomLength)]

/-- The table a floating pointer leads to. -/
def table (pointer : FloatingPointer) : Asking (Except MpError (FloatingPointer × List UInt8)) :=
  let addr := pointer.physAddr.toNat
  if addr = 0 then
    .pure (.error .defaultConfig)
  else .ask addr Header.size fun
    | none => .pure (.error (.unreadable addr))
    | some head =>
      let header := Header.ofBytes head
      if header.signature ≠ Header.magic then
        .pure (.error .badSignature)
      else if header.version ≠ 1 ∧ header.version ≠ 4 then
        .pure (.error (.unsupportedVersion header.version))
      else if header.length.toNat < Header.size then
        .pure (.error (.truncated 0))
      else .ask addr header.length.toNat fun
        | none => .pure (.error (.unreadable addr))
        | some table =>
          .pure (if Bytes.checksum table ≠ 0 then .error .badChecksum else .ok (pointer, table))

/-- The floating pointer and the whole configuration table. -/
def config : Asking (Except MpError (FloatingPointer × List UInt8)) :=
  search.bind fun
    | some pointer => table pointer
    | none => .pure (.error .notFound)

/-- The topology the firmware describes. -/
def parse : Asking (Except MpError Topology × List Log.Record) :=
  config.bind fun
    | .ok (pointer, table) => .pure (topologyOf pointer table)
    | .error e => .pure (.error e, [])

/-- The topology of the machine. -/
def discover : Asking (Topology × List Log.Record) :=
  parse.bind fun
    | (.ok t, warnings) => .pure (t, warnings ++ [found t])
    | (.error e, warnings) => .pure (Topology.uniprocessor, warnings ++ [fallingBack e])

theorem run_searchRange (mem : PhysMemory) (start len : Nat) :
    (searchRange start len).run mem = Firmware.searchRange mem start len := by
  rw [searchRange, run, Firmware.searchRange]
  cases mem.bytes start len <;> rfl

theorem reads_searchRange (mem : PhysMemory) (start len : Nat) :
    (searchRange start len).reads mem = [(start, len)] := by
  rw [searchRange, reads]
  cases mem.bytes start len <;> rfl

theorem run_searchThrough (mem : PhysMemory) (places : List (Nat × Nat)) :
    (searchThrough places).run mem =
      places.findSome? fun p => Firmware.searchRange mem p.1 p.2 := by
  induction places with
  | nil => rfl
  | cons place rest ih =>
    rw [searchThrough, run_bind, run_searchRange, List.findSome?_cons]
    cases Firmware.searchRange mem place.1 place.2 with
    | some p => rfl
    | none => exact ih

theorem run_search (mem : PhysMemory) : search.run mem = Firmware.search mem := by
  rw [search, run, Firmware.search]
  cases mem.bytes biosData biosDataLength with
  | none => exact run_searchThrough mem _
  | some bda => exact run_searchThrough mem _

theorem run_config (mem : PhysMemory) : config.run mem = Firmware.config mem := by
  rw [config, run_bind, run_search]
  unfold Firmware.config
  cases Firmware.search mem with
  | none => rfl
  | some pointer =>
    dsimp only [Bind.bind, Except.bind, table]
    -- the two go on in the same way at each check
    split
    · rfl
    · rw [run]
      cases mem.bytes pointer.physAddr.toNat Header.size with
      | none => rfl
      | some head =>
        dsimp only
        split
        · rfl
        · split
          · rfl
          · split
            · rfl
            · rw [run]
              cases mem.bytes pointer.physAddr.toNat (Header.ofBytes head).length.toNat with
              | none => rfl
              | some table => dsimp only; split <;> rfl

theorem run_parse (mem : PhysMemory) : parse.run mem = Firmware.parse mem := by
  rw [parse, run_bind, run_config, Firmware.parse]
  rcases Firmware.config mem with e | ⟨pointer, table⟩ <;> rfl

/-- **The discovery asks memory for what it reads, and for nothing else.** -/
theorem run_discover (mem : PhysMemory) : discover.run mem = Firmware.discover mem := by
  rw [discover, run_bind, run_parse, Firmware.discover]
  rcases Firmware.parse mem with ⟨e | t, warnings⟩ <;> rfl

/-- The table is made sense of without further reads. -/
theorem reads_parse (mem : PhysMemory) : parse.reads mem = config.reads mem := by
  rw [parse, reads_bind]
  rcases config.run mem with e | ⟨pointer, table⟩ <;> exact List.append_nil _

theorem reads_discover (mem : PhysMemory) : discover.reads mem = config.reads mem := by
  rw [discover, reads_bind, reads_parse]
  rcases parse.run mem with ⟨e | t, warnings⟩ <;> exact List.append_nil _

/-- The discovery starts with the search. -/
theorem reads_search_prefix (mem : PhysMemory) : search.reads mem <+: discover.reads mem := by
  rw [reads_discover, config, reads_bind]
  exact List.prefix_append _ _

end Asking

/-! ## Low memory -/

/-- Where low memory ends: what the view of memory is promised to be mapped. -/
def lowEnd : Nat := 0x100000

/-- The computation asks a memory for low memory only. -/
def StaysLow {α : Type} (mem : PhysMemory) (q : Asking α) : Prop :=
  ∀ r ∈ q.reads mem, r.1 + r.2 ≤ lowEnd

namespace StaysLow

variable {α β : Type} {mem : PhysMemory}

@[simp] theorem pure_iff (a : α) : StaysLow mem (.pure a) ↔ True :=
  iff_true_intro fun _ hr => absurd hr List.not_mem_nil

@[simp] theorem ask_iff {p n : Nat} {next : Option (List UInt8) → Asking α} :
    StaysLow mem (.ask p n next) ↔ p + n ≤ lowEnd ∧ StaysLow mem (next (mem.bytes p n)) :=
  List.forall_mem_cons

@[simp] theorem bind_iff {q : Asking α} {f : α → Asking β} :
    StaysLow mem (q.bind f) ↔ StaysLow mem q ∧ StaysLow mem (f (q.run mem)) := by
  unfold StaysLow
  rw [Asking.reads_bind]
  exact List.forall_mem_append

theorem searchRange_iff {start len : Nat} :
    StaysLow mem (Asking.searchRange start len) ↔ start + len ≤ lowEnd := by
  unfold StaysLow
  rw [Asking.reads_searchRange]
  exact List.forall_mem_singleton

/-- The code of the firmware ends where low memory does. -/
theorem searchThrough_rom : StaysLow mem (Asking.searchThrough [(biosRom, biosRomLength)]) := by
  rw [Asking.searchThrough, bind_iff, searchRange_iff]
  refine ⟨by decide, ?_⟩
  cases (Asking.searchRange biosRom biosRomLength).run mem <;>
    exact (pure_iff _).2 trivial

theorem searchThrough_cons_iff {place : Nat × Nat} {rest : List (Nat × Nat)} :
    StaysLow mem (Asking.searchThrough (place :: rest)) ↔ place.1 + place.2 ≤ lowEnd ∧
      (searchRange mem place.1 place.2 = none → StaysLow mem (Asking.searchThrough rest)) := by
  rw [Asking.searchThrough, bind_iff, searchRange_iff, Asking.run_searchRange]
  cases searchRange mem place.1 place.2 <;> simp

end StaysLow

/-- Where the data of the firmware says that its extended data area is, 0 if there is none. -/
def extendedArea (bda : List UInt8) : Nat := (Bytes.word16At bda 0x0e).toNat * 16

/-- Where the data of the firmware says that base memory ends, 0 if it does not say. -/
def baseEnd (bda : List UInt8) : Nat := (Bytes.word16At bda 0x13).toNat * 1024

/-- **The fields of the firmware's records name low memory.** A field is asked about only if it is
gone by: the end of base memory is looked at if there is nothing in the extended data area, and a
table is read as a whole only if its header is in order. -/
structure NamesLow (mem : PhysMemory) : Prop where
  extended : ∀ bda, mem.bytes biosData biosDataLength = some bda →
    extendedArea bda ≠ 0 → extendedArea bda + 1024 ≤ lowEnd
  base : ∀ bda, mem.bytes biosData biosDataLength = some bda →
    (extendedArea bda ≠ 0 → searchRange mem (extendedArea bda) 1024 = none) →
    baseEnd bda ≤ lowEnd
  header : ∀ p, search mem = some p → p.physAddr.toNat ≠ 0 →
    p.physAddr.toNat + Header.size ≤ lowEnd
  table : ∀ p head, search mem = some p → p.physAddr.toNat ≠ 0 →
    mem.bytes p.physAddr.toNat Header.size = some head →
    (Header.ofBytes head).signature = Header.magic →
    (Header.ofBytes head).version = 1 ∨ (Header.ofBytes head).version = 4 →
    Header.size ≤ (Header.ofBytes head).length.toNat →
    p.physAddr.toNat + (Header.ofBytes head).length.toNat ≤ lowEnd

variable {mem mem' : PhysMemory}

/-- What the search asks for if the data of the firmware can be read. -/
theorem staysLow_places_iff {bda : List UInt8} :
    StaysLow mem (Asking.searchThrough (searchPlaces bda ++ [(biosRom, biosRomLength)])) ↔
      (extendedArea bda ≠ 0 → extendedArea bda + 1024 ≤ lowEnd) ∧
      ((extendedArea bda ≠ 0 → searchRange mem (extendedArea bda) 1024 = none) →
        baseEnd bda ≤ lowEnd) := by
  have hbase : StaysLow mem (Asking.searchThrough
      ((if (Bytes.word16At bda 0x13).toNat ≠ 0 then
          [((Bytes.word16At bda 0x13).toNat * 1024 - 1024, 1024)] else []) ++
        [(biosRom, biosRomLength)])) ↔ baseEnd bda ≤ lowEnd := by
    unfold baseEnd
    by_cases hb : (Bytes.word16At bda 0x13).toNat = 0
    · rw [if_neg (not_not.2 hb), hb]
      exact iff_of_true StaysLow.searchThrough_rom (by decide)
    · rw [if_pos hb, List.singleton_append, StaysLow.searchThrough_cons_iff,
        and_iff_left fun _ => StaysLow.searchThrough_rom, Nat.sub_add_cancel]
      omega
  have hplaces : searchPlaces bda =
      (if extendedArea bda ≠ 0 then [(extendedArea bda, 1024)] else []) ++
      (if (Bytes.word16At bda 0x13).toNat ≠ 0 then
        [((Bytes.word16At bda 0x13).toNat * 1024 - 1024, 1024)] else []) := rfl
  rw [hplaces, List.append_assoc]
  by_cases he : extendedArea bda = 0
  · rw [if_neg (not_not.2 he), List.nil_append, hbase]
    simp [he]
  · rw [if_pos he, List.singleton_append, StaysLow.searchThrough_cons_iff, hbase]
    simp [he]

theorem staysLow_search_iff : StaysLow mem Asking.search ↔
    ∀ bda, mem.bytes biosData biosDataLength = some bda →
      (extendedArea bda ≠ 0 → extendedArea bda + 1024 ≤ lowEnd) ∧
      ((extendedArea bda ≠ 0 → searchRange mem (extendedArea bda) 1024 = none) →
        baseEnd bda ≤ lowEnd) := by
  rw [Asking.search, StaysLow.ask_iff, and_iff_right (by decide)]
  cases mem.bytes biosData biosDataLength with
  | none => exact iff_of_true StaysLow.searchThrough_rom fun _ h => nomatch h
  | some bda =>
    rw [staysLow_places_iff]
    exact ⟨fun h _ hbda => Option.some.inj hbda ▸ h, fun h => h bda rfl⟩

theorem staysLow_table_iff {p : FloatingPointer} : StaysLow mem (Asking.table p) ↔
    (p.physAddr.toNat ≠ 0 → p.physAddr.toNat + Header.size ≤ lowEnd ∧
      ∀ head, mem.bytes p.physAddr.toNat Header.size = some head →
        (Header.ofBytes head).signature = Header.magic →
        (Header.ofBytes head).version = 1 ∨ (Header.ofBytes head).version = 4 →
        Header.size ≤ (Header.ofBytes head).length.toNat →
        p.physAddr.toNat + (Header.ofBytes head).length.toNat ≤ lowEnd) := by
  unfold Asking.table
  dsimp only
  by_cases haddr : p.physAddr.toNat = 0
  · rw [if_pos haddr]
    exact iff_of_true ((StaysLow.pure_iff _).2 trivial) fun h => absurd haddr h
  rw [if_neg haddr, StaysLow.ask_iff, forall_prop_of_true haddr]
  refine and_congr_right fun _ => ?_
  cases mem.bytes p.physAddr.toNat Header.size with
  | none => simp
  | some head =>
    simp only [Option.some.injEq, forall_eq']
    -- a header that is not in order leaves nothing to read
    by_cases hsig : (Header.ofBytes head).signature = Header.magic
    case neg => simp [hsig]
    by_cases hversion : (Header.ofBytes head).version = 1 ∨ (Header.ofBytes head).version = 4
    case neg => simp [hsig, not_or.1 hversion]
    by_cases hlen : Header.size ≤ (Header.ofBytes head).length.toNat
    case neg => simp [hsig, Decidable.or_iff_not_not_and_not.1 hversion, hlen, Nat.not_le.1 hlen]
    rw [if_neg (not_not.2 hsig), if_neg (Decidable.or_iff_not_not_and_not.1 hversion),
      if_neg (Nat.not_lt.2 hlen), StaysLow.ask_iff]
    cases mem.bytes p.physAddr.toNat (Header.ofBytes head).length.toNat <;>
      simp [hsig, hversion, hlen]

theorem staysLow_config_iff : StaysLow mem Asking.config ↔ NamesLow mem := by
  rw [Asking.config, StaysLow.bind_iff, staysLow_search_iff, Asking.run_search]
  constructor
  · rintro ⟨hsearch, htable⟩
    have hlow : ∀ p, search mem = some p → StaysLow mem (Asking.table p) := by
      intro p hp
      rwa [hp] at htable
    exact ⟨fun bda hbda => (hsearch bda hbda).1, fun bda hbda => (hsearch bda hbda).2,
      fun p hp haddr => (staysLow_table_iff.1 (hlow p hp) haddr).1,
      fun p head hp haddr => (staysLow_table_iff.1 (hlow p hp) haddr).2 head⟩
  · intro h
    refine ⟨fun bda hbda => ⟨h.extended bda hbda, h.base bda hbda⟩, ?_⟩
    cases hp : search mem with
    | none => exact (StaysLow.pure_iff _).2 trivial
    | some p =>
      exact staysLow_table_iff.2 fun haddr =>
        ⟨h.header p hp haddr, fun head => h.table p head hp haddr⟩

/-- **The discovery stays in low memory exactly if the fields it goes by name low memory**, and what
is above then makes no difference. The search asks for an initial part of what the discovery asks
for, and the other parts of the discovery for the same. -/
theorem NamesLow.iff_discovery_stays_low (mem : PhysMemory) :
    Asking.search.reads mem <+: Asking.discover.reads mem ∧
      Asking.config.reads mem = Asking.discover.reads mem ∧
      Asking.parse.reads mem = Asking.discover.reads mem ∧
      (StaysLow mem Asking.discover ↔ NamesLow mem) ∧
      (NamesLow mem → ∀ mem' : PhysMemory,
        (∀ p n, p + n ≤ lowEnd → mem'.bytes p n = mem.bytes p n) →
        discover mem' = discover mem) := by
  have hreads := Asking.reads_discover mem
  have hiff : StaysLow mem Asking.discover ↔ NamesLow mem := by
    rw [← staysLow_config_iff, StaysLow, hreads, StaysLow]
  refine ⟨Asking.reads_search_prefix mem, hreads.symm, (Asking.reads_parse mem).trans hreads.symm,
    hiff, fun h mem' hsame => ?_⟩
  rw [← Asking.run_discover, ← Asking.run_discover]
  exact Asking.run_congr fun r hr => hsame r.1 r.2 (hiff.2 h r hr)

/-- What is asked of a table in order is that it ends in low memory. -/
theorem Presents.namesLow {p : FloatingPointer} {table : List UInt8} (h : Presents mem p table)
    (hplaces : StaysLow mem Asking.search) (hend : p.physAddr.toNat + table.length ≤ lowEnd) :
    NamesLow mem := by
  obtain ⟨head, hhead, -, -, hsize, htable⟩ := h.header
  have hlen := mem.length_bytes htable
  have hplaces := staysLow_search_iff.1 hplaces
  refine ⟨fun bda hbda => (hplaces bda hbda).1, fun bda hbda => (hplaces bda hbda).2, ?_, ?_⟩
  · intro q hq _
    cases h.found.symm.trans hq
    omega
  · intro q head' hq _ hhead' _ _ _
    cases h.found.symm.trans hq
    cases hhead.symm.trans hhead'
    omega

theorem length_lowTable : (tableOf lowHeader (lowItems 3)).length = 120 :=
  (length_tableOf (h := lowHeader) (by decide) (lowItems 3)).trans (by decide)

/-- The table in low memory is all that is looked at. -/
theorem NamesLow.iff_discovery_stays_low_table :
    NamesLow (lowMemory (tableOf lowHeader (lowItems 3))) ∧ ∀ mem' : PhysMemory,
      (∀ p n, p + n ≤ lowEnd →
        mem'.bytes p n = (lowMemory (tableOf lowHeader (lowItems 3))).bytes p n) →
      discover mem' = discover (lowMemory (tableOf lowHeader (lowItems 3))) := by
  have hsearch : StaysLow (lowMemory (tableOf lowHeader (lowItems 3))) Asking.search := by
    refine staysLow_search_iff.2 fun bda hbda => ?_
    cases hbda
    exact ⟨fun _ => by decide, fun _ => by decide⟩
  have hnames : NamesLow (lowMemory (tableOf lowHeader (lowItems 3))) :=
    (presents_lowMemory (by decide) (.inr rfl) (by decide)).namesLow hsearch
      (by rw [length_lowTable]; decide)
  exact ⟨hnames, (NamesLow.iff_discovery_stays_low _).2.2.2.2 hnames⟩

/-! ## Reads past low memory -/

/-- A range cannot be read where it does not lie in the region it belongs to. -/
theorem bytes_ofRegions_eq_none {regions : List Region} {r : Region} {a n : Nat}
    (hr : PhysMemory.regionOf regions a = some r) (hn : r.content.length < a - r.start + n) :
    (PhysMemory.ofRegions regions).bytes a n = none := by
  unfold PhysMemory.ofRegions
  dsimp only
  rw [hr]
  exact if_neg (Nat.not_le.2 hn)

/-- A region does not matter for the addresses before it. -/
theorem regionOf_append_of_lt {regions : List Region} {r : Region} {a : Nat} (h : a < r.start) :
    PhysMemory.regionOf (regions ++ [r]) a = PhysMemory.regionOf regions a := by
  rw [PhysMemory.regionOf, List.foldl_append]
  exact if_neg (Nat.not_le.2 h)

/-- Memory whose data says that base memory ends at 2 MiB, with a table in low memory, and one more
region or none. -/
def baseMemory (more : List Region) : PhysMemory := .ofRegions ([
  ⟨biosData, List.replicate 20 0 ++ 8 :: List.replicate 11 0⟩,
  ⟨0xe0000, tableOf lowHeader (lowItems 3)⟩] ++ more)

/-- The KiB before 2 MiB, with a floating pointer at its start. -/
def highPointer : Region :=
  ⟨0x1ffc00, [0x5f, 0x4d, 0x50, 0x5f, 0, 0, 0x0e, 0, 1, 4, 0x92, 0, 0, 0, 0, 0] ++
    List.replicate 1008 0⟩

theorem search_baseMemory {more : List Region}
    (hbda : (baseMemory more).bytes biosData biosDataLength =
      some (List.replicate 20 0 ++ 8 :: List.replicate 11 0)) :
    search (baseMemory more) = (searchRange (baseMemory more) 0x1ffc00 1024).or
      (searchRange (baseMemory more) biosRom biosRomLength) := by
  have hplaces : searchPlaces (List.replicate 20 0 ++ 8 :: List.replicate 11 0) =
      [(0x1ffc00, 1024)] := by decide +kernel
  rw [search, hbda]
  dsimp only
  rw [hplaces, List.singleton_append, List.findSome?_cons, List.findSome?_singleton]
  cases searchRange (baseMemory more) 0x1ffc00 1024 <;> rfl

/-- Without the region there is no floating pointer: nothing follows the table. -/
theorem search_baseMemory_nil : search (baseMemory []) = none := by
  have hbase : (baseMemory []).bytes 0x1ffc00 1024 = none :=
    bytes_ofRegions_eq_none (r := ⟨0xe0000, tableOf lowHeader (lowItems 3)⟩) rfl
      (by rw [length_lowTable]; decide)
  have hrom : (baseMemory []).bytes biosRom biosRomLength = none :=
    bytes_ofRegions_eq_none (r := ⟨0xe0000, tableOf lowHeader (lowItems 3)⟩) rfl
      (by rw [length_lowTable]; decide)
  rw [search_baseMemory rfl, searchRange, hbase, searchRange, hrom]
  rfl

theorem search_baseMemory_highPointer : search (baseMemory [highPointer]) = some lowPointer := by
  have hlen : highPointer.content.length = 1024 := by decide +kernel
  have hbytes : (baseMemory [highPointer]).bytes 0x1ffc00 1024 = some highPointer.content := by
    have hstart : 0x1ffc00 - highPointer.start = 0 := rfl
    refine (PhysMemory.bytes_ofRegions (r := highPointer) rfl ?_).trans ?_
    · rw [hstart, Nat.zero_add, hlen]
    · rw [hstart, List.drop_zero, List.take_of_length_le (Nat.le_of_eq hlen)]
  have hfound : searchRange (baseMemory [highPointer]) 0x1ffc00 1024 = some lowPointer := by
    rw [searchRange, hbytes]
    decide +kernel
  rw [search_baseMemory rfl, hfound]
  rfl

/-- **The last KiB of base memory is looked at wherever it is**: of two memories that are the same
in low memory, one is taken for a uniprocessor and one is not. -/
theorem NamesLow.high_pointer_found :
    (∀ p n, p + n ≤ lowEnd → (baseMemory [highPointer]).bytes p n = (baseMemory []).bytes p n) ∧
      ¬ StaysLow (baseMemory [highPointer]) Asking.search ∧
      ¬ StaysLow (baseMemory [highPointer]) Asking.discover ∧
      (discover (baseMemory [])).1 = Topology.uniprocessor ∧
      (discover (baseMemory [highPointer])).1 ≠ Topology.uniprocessor := by
  have hpresents : Presents (baseMemory [highPointer]) lowPointer
      (tableOf lowHeader (lowItems 3)) := by
    have hbytes : ∀ n, n ≤ (tableOf lowHeader (lowItems 3)).length →
        (baseMemory [highPointer]).bytes 0xe0000 n =
          some ((tableOf lowHeader (lowItems 3)).take n) := fun n hn =>
      PhysMemory.bytes_ofRegions (r := ⟨0xe0000, tableOf lowHeader (lowItems 3)⟩) rfl
        (by simpa using hn)
    have hhead := hbytes Header.size (by rw [length_lowTable]; decide)
    have htable := hbytes _ Nat.le.refl
    rw [List.take_length] at htable
    have haddr : lowPointer.physAddr.toNat = 0xe0000 := rfl
    rw [← haddr] at hhead htable
    exact presents_tableOf search_baseMemory_highPointer (by decide) (by decide) (.inr rfl)
      (by decide) hhead htable
  have hsearch : ¬ StaysLow (baseMemory [highPointer]) Asking.search := by
    intro h
    have := (staysLow_search_iff.1 h _ rfl).2 fun h => absurd rfl h
    exact absurd this (by decide)
  refine ⟨fun p n h => ?_, hsearch, fun h => ?_, ?_, ?_⟩
  · have hp : p < highPointer.start := Nat.lt_of_le_of_lt (Nat.le_of_add_right_le h) (by decide)
    dsimp only [baseMemory, PhysMemory.ofRegions]
    rw [regionOf_append_of_lt hp, List.append_nil]
  · exact hsearch fun r hr => h r ((Asking.reads_search_prefix _).subset hr)
  · unfold discover parse config
    rw [search_baseMemory_nil]
    rfl
  · obtain ⟨t, ht, hdescribes⟩ := exists_topologyOf (p := lowPointer)
      (drop_tableOf (h := lowHeader) (by decide) (lowItems 3)).symm (by decide)
      ((numbered_iff_inOrder (by decide)).2 (by decide))
    rw [discover, hpresents.parse_eq, ht]
    intro heq
    have := hdescribes.isMp
    rw [show t = Topology.uniprocessor from heq] at this
    cases this

end Firmware

end Exokernel
