import Exokernel.Proofs.Topologies
/-!
# Tables that are accepted

`Presents` says that the floating pointer of a machine leads to a table in order, and `topologyOf`
is what is made of it. Such a table is accepted exactly if it consists of entries whose processors
are numbered as the walk expects, and the topology is then what the entries describe
(`exists_topologyOf`, `exists_of_topologyOf`). Every list of entries can be written in a table, and
the table be put into memory (`presents_lowMemory`).
-/

namespace Exokernel

/-- A range can be read where it lies in the region it belongs to. -/
theorem PhysMemory.bytes_ofRegions {regions : List Region} {r : Region} {p n : Nat}
    (hr : regionOf regions p = some r) (hn : p - r.start + n ≤ r.content.length) :
    (ofRegions regions).bytes p n = some ((r.content.drop (p - r.start)).take n) := by
  unfold ofRegions
  dsimp only
  rw [hr]
  exact if_pos hn

namespace Firmware

/-! ## The table in memory -/

/-- **The floating pointer of the machine leads to a table in order**: its header has the signature
and a known version and declares the length of the table, all of which can be read and adds up to
0. -/
structure Presents (mem : PhysMemory) (p : FloatingPointer) (table : List UInt8) : Prop where
  found : search mem = some p
  addr : p.physAddr.toNat ≠ 0
  header : ∃ head, mem.bytes p.physAddr.toNat Header.size = some head ∧
    (Header.ofBytes head).signature = Header.magic ∧
    ((Header.ofBytes head).version = 1 ∨ (Header.ofBytes head).version = 4) ∧
    Header.size ≤ (Header.ofBytes head).length.toNat ∧
    mem.bytes p.physAddr.toNat (Header.ofBytes head).length.toNat = some table
  sum : Bytes.checksum table = 0

variable {mem : PhysMemory} {p : FloatingPointer} {table : List UInt8}

/-- **The tables in order are those that are looked into.** -/
theorem config_eq_ok_iff : config mem = .ok (p, table) ↔ Presents mem p table := by
  constructor
  · intro h
    unfold config at h
    cases hfound : search mem with
    | none =>
      rw [hfound] at h
      cases h
    | some q =>
      rw [hfound] at h
      dsimp only [bind, Except.bind] at h
      -- each check lets the table through
      split at h
      · cases h
      next haddr =>
      split at h
      case h_2 => cases h
      next head hhead =>
      split at h
      · cases h
      next hsig =>
      split at h
      · cases h
      next hversion =>
      split at h
      · cases h
      next hlen =>
      split at h
      case h_2 => cases h
      next l htable =>
      split at h
      · cases h
      next hsum =>
      cases h
      exact ⟨hfound, haddr, ⟨head, hhead, not_not.1 hsig,
        Decidable.or_iff_not_not_and_not.2 hversion, Nat.not_lt.1 hlen, htable⟩, not_not.1 hsum⟩
  · rintro ⟨hfound, haddr, ⟨head, hhead, hsig, hversion, hlen, htable⟩, hsum⟩
    unfold config
    rw [hfound]
    dsimp only [bind, Except.bind]
    rw [if_neg haddr, hhead]
    dsimp only
    rw [if_neg (not_not.2 hsig), if_neg (Decidable.or_iff_not_not_and_not.1 hversion),
      if_neg (Nat.not_lt.2 hlen), htable]
    exact if_neg (not_not.2 hsum)

theorem Presents.parse_eq (h : Presents mem p table) : parse mem = topologyOf p table := by
  rw [parse, config_eq_ok_iff.2 h]

/-- **A table that was written can be presented**: all that is asked of its header and of its sum is
so. -/
theorem presents_tableOf {h : Header} {items : List Item} (hfound : search mem = some p)
    (haddr : p.physAddr.toNat ≠ 0) (hproduct : h.product.length = 20)
    (hversion : h.version = 1 ∨ h.version = 4) (hlen : Header.size + (spell items).length < 2 ^ 16)
    (hhead : mem.bytes p.physAddr.toNat Header.size = some ((tableOf h items).take Header.size))
    (htable : mem.bytes p.physAddr.toNat (tableOf h items).length = some (tableOf h items)) :
    Presents mem p (tableOf h items) := by
  rw [take_tableOf hproduct] at hhead
  have hfits := Header.fits_sealed hproduct items
  have hread : Header.ofBytes (h.sealed items).bytes = h.sealed items := by
    simpa using hfits.ofBytes_bytes []
  have hlength : (h.sealed items).length.toNat = (tableOf h items).length := by
    rw [length_tableOf hproduct]
    exact Nat.mod_eq_of_lt hlen
  refine ⟨hfound, haddr, ⟨_, hhead, ?_, ?_, ?_, ?_⟩, checksum_tableOf h items⟩
  · rw [hread]
    rfl
  · rw [hread]
    exact hversion
  · rw [hread, hlength, length_tableOf hproduct]
    exact Nat.le_add_right _ _
  · rw [hread, hlength, htable]

/-! ## Accepting a table -/

/-- The processors come with their places as numbers. -/
def InOrder (l : List ProcessorEntry) : Prop :=
  ∀ (i : Nat) (e : ProcessorEntry), l[i]? = some e → e.apicId.toNat = i

theorem numbered_iff_inOrder {l : List ProcessorEntry} (hlen : l.length ≤ cpuLimit + 1) :
    Numbered l ↔ InOrder l := by
  have hplace : ∀ (i : Nat) (e : ProcessorEntry), l[i]? = some e → min i cpuLimit = i := by
    intro i e he
    have := (List.getElem?_eq_some_iff.1 he).1
    exact Nat.min_eq_left (by omega)
  constructor
  · intro h i e he
    rw [h i e he, hplace i e he]
  · intro h i e he
    rw [h i e he, hplace i e he]

variable {items : List Item}

/-- **Entries that are numbered in order are accepted**, and describe the topology without those of
the processors that are too many. -/
theorem exists_topologyOf (hspell : spell items = table.drop Header.size)
    (hne : processors (items.map Item.entry) ≠ [])
    (hnumbered : Numbered (processors (items.map Item.entry))) :
    ∃ t, topologyOf p table =
        (.ok t, ((processors (items.map Item.entry)).drop cpuLimit).map Survey.tooMany) ∧
      Describes p (Header.ofBytes table) (keeping cpuLimit (items.map Item.entry)) t := by
  obtain ⟨s, hs, hsums⟩ := Survey.exists_sums _ hnumbered
  have hcpus : s.cpus ≠ [] := by
    rw [hsums.cpus, ne_eq, List.map_eq_nil_iff, ← processors_keeping]
    exact processors_keeping_ne_nil (by decide) hne
  unfold topologyOf
  rw [← hspell, entriesFrom_spell]
  dsimp only
  rw [hs]
  dsimp only [Option.or]
  rw [if_neg hcpus, hsums.warnings]
  refine ⟨_, rfl, ?_, ?_, ?_, ?_, rfl, p.hasImcr_eq, rfl⟩
  · rw [processors_keeping]; exact hsums.cpus
  · rw [processors_keeping]; exact hsums.bsp
  · rw [ioApics_keeping]; exact hsums.ioApicId
  · rw [ioApics_keeping]; exact hsums.ioApicAddr

/-- **Nothing else is accepted.** -/
theorem exists_of_topologyOf {t : Topology} (h : (topologyOf p table).1 = .ok t) :
    ∃ items, spell items = table.drop Header.size ∧ processors (items.map Item.entry) ≠ [] ∧
      Numbered (processors (items.map Item.entry)) := by
  unfold topologyOf at h
  rcases hentries : entriesFrom Header.size (table.drop Header.size) with ⟨entries, bad⟩
  rcases hs : ({} : Survey).addAll entries with ⟨s, misfit⟩
  rw [hentries] at h
  dsimp only at h
  rw [hs] at h
  dsimp only at h
  cases misfit with
  | some err => cases h
  | none =>
    cases bad with
    | some err => cases h
    | none =>
      obtain ⟨items, hitems, hspell⟩ := exists_spell_of_entriesFrom hentries
      have hnumbered := Survey.numbered_of_addAll entries (by rw [hs])
      obtain ⟨s', hs', hsums⟩ := Survey.exists_sums entries hnumbered
      obtain rfl : s' = s := congrArg Prod.fst (hs'.symm.trans hs)
      refine ⟨items, hspell, ?_, hitems ▸ hnumbered⟩
      rintro hnone
      rw [hitems] at hnone
      have hcpus : s'.cpus = [] := by rw [hsums.cpus, hnone]; rfl
      dsimp only [Option.or] at h
      rw [if_pos hcpus] at h
      cases h

/-- The items of a table are determined by its bytes, as far as they count. -/
theorem entries_eq_of_spell {items' : List Item} (h : spell items = spell items') :
    items.map Item.entry = items'.map Item.entry := by
  have := (entriesFrom_spell items 0).symm.trans ((congrArg _ h).trans (entriesFrom_spell items' 0))
  exact (Prod.mk.inj this).1

/-- **More than one processor too many is one too many for the walk**: the number it expects stays
the most processors the kernel runs on. -/
theorem topologyOf_misfit (hspell : spell items = table.drop Header.size)
    (horder : InOrder (processors (items.map Item.entry)))
    (hmany : cpuLimit + 1 < (processors (items.map Item.entry)).length) :
    (topologyOf p table).1 = .error (.apicIdMismatch cpuLimit (UInt8.ofNat (cpuLimit + 1))) := by
  obtain ⟨e, he⟩ : ∃ e, (processors (items.map Item.entry))[cpuLimit + 1]? = some e :=
    ⟨_, List.getElem?_eq_getElem hmany⟩
  have hnum : e.apicId.toNat = cpuLimit + 1 := horder _ e he
  obtain ⟨before, after, hsplit, hlen⟩ := exists_split_of_processors he
  have hbefore : Numbered (processors before) := by
    refine (numbered_iff_inOrder (Nat.le_of_eq hlen)).2 fun i e' he' => horder i e' ?_
    rw [hsplit, processors_append, List.getElem?_append_left (List.getElem?_eq_some_iff.1 he').1, he']
  have hmin : min (processors before).length cpuLimit = cpuLimit := by
    rw [hlen]
    exact Nat.min_eq_right (Nat.le_succ _)
  have hmisfit := Survey.addAll_misfit (p := e) hbefore (by rw [hmin, hnum]; decide) after
  rw [hmin, ← hsplit] at hmisfit
  have hid : e.apicId = UInt8.ofNat (cpuLimit + 1) := by rw [← hnum, UInt8.ofNat_toNat]
  unfold topologyOf
  rw [← hspell, entriesFrom_spell]
  dsimp only
  rw [hmisfit, hid]
  rfl

/-! ## A machine -/

instance (l : List ProcessorEntry) : Decidable (InOrder l) :=
  decidable_of_iff (∀ i : Fin l.length, l[i].apicId.toNat = i) <| by
    constructor
    · intro h i e he
      obtain ⟨hi, rfl⟩ := List.getElem?_eq_some_iff.1 he
      exact h ⟨i, hi⟩
    · exact fun h i => h i l[i] (List.getElem?_eq_getElem i.2)

/-- A floating pointer to a table below the firmware's code. -/
def lowPointer : FloatingPointer where
  signature := FloatingPointer.magic
  physAddr := 0xe0000
  length := 1
  specRev := 4
  checksum := 0x92
  configType := 0
  imcrp := 0
  reserved := [0, 0, 0]

/-- Memory with a table, to which a floating pointer at the start of the extended data area leads. -/
def lowMemory (table : List UInt8) : PhysMemory := .ofRegions [
  ⟨biosData, List.replicate 14 0 ++ 0xc0 :: 0x9f :: List.replicate 16 0⟩,
  ⟨0x9fc00, [0x5f, 0x4d, 0x50, 0x5f, 0, 0, 0x0e, 0, 1, 4, 0x92, 0, 0, 0, 0, 0] ++
    List.replicate 1008 0⟩,
  ⟨0xe0000, table⟩]

/-- A header of a table. -/
def lowHeader : Header where
  signature := Header.magic
  length := 0
  version := 4
  checksum := 0
  product := List.replicate 20 0x20
  oemTable := 0
  oemLength := 0
  entryCount := 0
  lapicAddr := 0xfee00000
  extLength := 0
  extChecksum := 0
  reserved := 0

/-- A bus, some processors, of which the first is flagged, and a controller of interrupt lines. -/
def lowItems (n : Nat) : List Item :=
  .other 1 (List.replicate 7 0) (.inl rfl) rfl :: (List.range n).map (fun i =>
    .processor ⟨0, UInt8.ofNat i, 0x14, if i = 0 then 3 else 1, List.replicate 4 0, 0,
      List.replicate 8 0⟩ ⟨rfl, rfl, rfl⟩) ++ [.ioApic ⟨2, 3, 0x11, 1, 0xfec00000⟩ rfl]

theorem search_lowMemory (table : List UInt8) : search (lowMemory table) = some lowPointer := by
  have hbda : (lowMemory table).bytes biosData biosDataLength =
      some (List.replicate 14 0 ++ 0xc0 :: 0x9f :: List.replicate 16 0) := rfl
  have hext : (lowMemory table).bytes 0x9fc00 1024 = some
      ([0x5f, 0x4d, 0x50, 0x5f, 0, 0, 0x0e, 0, 1, 4, 0x92, 0, 0, 0, 0, 0] ++ List.replicate 1008 0) := by
    generalize hc : ([0x5f, 0x4d, 0x50, 0x5f, 0, 0, 0x0e, 0, 1, 4, 0x92, 0, 0, 0, 0, 0] ++
      List.replicate 1008 0 : List UInt8) = c
    have hlen : c.length = 1024 := by
      rw [← hc, List.length_append, List.length_replicate]
      rfl
    unfold lowMemory
    rw [hc]
    refine (PhysMemory.bytes_ofRegions (r := ⟨0x9fc00, c⟩) rfl (by simp [hlen])).trans ?_
    rw [Nat.sub_self, List.drop_zero, List.take_of_length_le (Nat.le_of_eq hlen)]
  have hplaces : searchPlaces (List.replicate 14 0 ++ 0xc0 :: 0x9f :: List.replicate 16 0) =
      [(0x9fc00, 1024)] := by decide +kernel
  have hfound : searchRange (lowMemory table) 0x9fc00 1024 = some lowPointer := by
    rw [searchRange, hext]
    decide +kernel
  rw [search, hbda]
  dsimp only
  rw [hplaces, List.cons_append, List.findSome?_cons, hfound]

/-- **Any table can be presented**, if its length can be declared. -/
theorem presents_lowMemory {h : Header} (hproduct : h.product.length = 20)
    (hversion : h.version = 1 ∨ h.version = 4) (hlen : Header.size + (spell items).length < 2 ^ 16) :
    Presents (lowMemory (tableOf h items)) lowPointer (tableOf h items) := by
  have hbytes : ∀ n, n ≤ (tableOf h items).length →
      (lowMemory (tableOf h items)).bytes 0xe0000 n = some ((tableOf h items).take n) := fun n hn =>
    PhysMemory.bytes_ofRegions (r := ⟨0xe0000, tableOf h items⟩) rfl (by simpa using hn)
  refine presents_tableOf (search_lowMemory _) (by decide) hproduct hversion hlen
    (hbytes _ ?_) ((hbytes _ Nat.le.refl).trans (by rw [List.take_length]))
  rw [length_tableOf hproduct]
  exact Nat.le_add_right _ _

/-! ## Tables that are accepted -/

/-- **A table with no more processors than the kernel runs on is accepted exactly if it consists of
entries**, with none left over, of which at least one is a processor and whose processors are
numbered in order. The topology is then what the entries describe, and so what was written. -/
theorem Presents.accepts_what_is_written (h : Presents mem p table)
    (hfew : ∀ items, spell items = table.drop Header.size →
      (processors (items.map Item.entry)).length ≤ cpuLimit) :
    ((∃ t, (parse mem).1 = .ok t) ↔ ∃ items, spell items = table.drop Header.size ∧
        processors (items.map Item.entry) ≠ [] ∧ InOrder (processors (items.map Item.entry))) ∧
      (∀ items t, spell items = table.drop Header.size → (parse mem).1 = .ok t →
        Describes p (Header.ofBytes table) (items.map Item.entry) t) ∧
      ∀ (header : Header) (items : List Item), table = tableOf header items →
        header.product.length = 20 → processors (items.map Item.entry) ≠ [] →
        InOrder (processors (items.map Item.entry)) →
        ∃ t, parse mem = (.ok t, []) ∧
          Describes p (header.sealed items) (items.map Item.entry) t := by
  have hnumbered : ∀ items, spell items = table.drop Header.size →
      (Numbered (processors (items.map Item.entry)) ↔
        InOrder (processors (items.map Item.entry))) := fun items hspell =>
    numbered_iff_inOrder (Nat.le_succ_of_le (hfew items hspell))
  -- what entries in order are read as
  have haccept : ∀ items, spell items = table.drop Header.size →
      processors (items.map Item.entry) ≠ [] → InOrder (processors (items.map Item.entry)) →
      ∃ t, parse mem = (.ok t, []) ∧
        Describes p (Header.ofBytes table) (items.map Item.entry) t := by
    intro items hspell hne horder
    obtain ⟨t, ht, hdescribes⟩ := exists_topologyOf (p := p) hspell hne
      ((hnumbered items hspell).2 horder)
    rw [keeping_of_le (hfew items hspell)] at hdescribes
    rw [List.drop_eq_nil_of_le (hfew items hspell)] at ht
    exact ⟨t, h.parse_eq.trans ht, hdescribes⟩
  have hwritten : ∀ t, (parse mem).1 = .ok t → ∃ items, spell items = table.drop Header.size ∧
      processors (items.map Item.entry) ≠ [] ∧ InOrder (processors (items.map Item.entry)) := by
    intro t ht
    rw [h.parse_eq] at ht
    obtain ⟨items, hspell, hne, hnum⟩ := exists_of_topologyOf ht
    exact ⟨items, hspell, hne, (hnumbered items hspell).1 hnum⟩
  refine ⟨⟨fun ⟨t, ht⟩ => hwritten t ht, ?_⟩, ?_, ?_⟩
  · rintro ⟨items, hspell, hne, horder⟩
    obtain ⟨t, ht, -⟩ := haccept items hspell hne horder
    exact ⟨t, by rw [ht]⟩
  · intro items t hspell ht
    obtain ⟨items', hspell', hne, horder⟩ := hwritten t ht
    obtain ⟨t', ht', hdescribes⟩ := haccept items' hspell' hne horder
    rw [ht', Except.ok.injEq] at ht
    rw [← entries_eq_of_spell (hspell'.trans hspell.symm), ← ht]
    exact hdescribes
  · rintro header items rfl hproduct hne horder
    rw [← ofBytes_tableOf hproduct items]
    exact haccept items (drop_tableOf hproduct items).symm hne horder

/-- Three processors are found. -/
theorem Presents.accepts_what_is_written_three :
    ∃ t, parse (lowMemory (tableOf lowHeader (lowItems 3))) = (.ok t, []) ∧
      Describes lowPointer (lowHeader.sealed (lowItems 3)) ((lowItems 3).map Item.entry) t := by
  have hproduct : lowHeader.product.length = 20 := by decide
  have hpresents : Presents (lowMemory (tableOf lowHeader (lowItems 3))) lowPointer
      (tableOf lowHeader (lowItems 3)) :=
    presents_lowMemory hproduct (.inr rfl) (by decide)
  have hfew : ∀ items, spell items = (tableOf lowHeader (lowItems 3)).drop Header.size →
      (processors (items.map Item.entry)).length ≤ cpuLimit := by
    intro items hspell
    rw [drop_tableOf hproduct] at hspell
    rw [entries_eq_of_spell hspell]
    decide
  exact (hpresents.accepts_what_is_written hfew).2.2 lowHeader (lowItems 3) rfl hproduct (by decide)
    (by decide)

/-! ## Processors that are too many -/

/-- A table without the processors that are too many has the topology of the table with them. -/
theorem Presents.parse_keeping {header : Header} {entries : List Entry} {q : FloatingPointer}
    {t : Topology} (h : Presents mem p table) (hspell : spell items = table.drop Header.size)
    (hkept : items.map Item.entry = keeping cpuLimit entries) (hne : processors entries ≠ [])
    (hnumbered : Numbered (processors entries))
    (hdescribes : Describes q header (keeping cpuLimit entries) t)
    (hlapic : (Header.ofBytes table).lapicAddr = header.lapicAddr) (himcr : p.imcrp = q.imcrp) :
    (parse mem).1 = .ok t := by
  have hprocs : processors (items.map Item.entry) = (processors entries).take cpuLimit := by
    rw [hkept, processors_keeping]
  have hne' : processors (items.map Item.entry) ≠ [] :=
    hkept ▸ processors_keeping_ne_nil (by decide) hne
  obtain ⟨t', ht', hdescribes'⟩ := exists_topologyOf (p := p) hspell hne' (hprocs ▸ hnumbered.take _)
  rw [keeping_of_le (by rw [hprocs]; exact List.length_take_le _ _), hkept] at hdescribes'
  have heq : t' = t := by
    refine Describes.eq ⟨hdescribes'.cpus, hdescribes'.bsp, hdescribes'.ioApicId,
      hdescribes'.ioApicAddr, hdescribes'.lapicAddr.trans hlapic, ?_, hdescribes'.isMp⟩ hdescribes
    rw [hdescribes'.imcr, himcr]
  rw [h.parse_eq, ht', heq]

/-- **One processor too many is left out, and the topology is as if it were absent**; with a second
one the table is not accepted, since the walk still expects the number of the first. -/
theorem Presents.leaves_out_surplus (h : Presents mem p table)
    (hspell : spell items = table.drop Header.size)
    (hne : processors (items.map Item.entry) ≠ [])
    (horder : InOrder (processors (items.map Item.entry))) :
    ((processors (items.map Item.entry)).length ≤ cpuLimit + 1 →
      ∃ t, (parse mem).1 = .ok t ∧
        t.ncpu = min (processors (items.map Item.entry)).length cpuLimit ∧
        Describes p (Header.ofBytes table) (keeping cpuLimit (items.map Item.entry)) t ∧
        ∀ (mem' : PhysMemory) (p' : FloatingPointer) (table' : List UInt8) (items' : List Item),
          Presents mem' p' table' → spell items' = table'.drop Header.size →
          items'.map Item.entry = keeping cpuLimit (items.map Item.entry) →
          (Header.ofBytes table').lapicAddr = (Header.ofBytes table).lapicAddr →
          p'.imcrp = p.imcrp → (parse mem').1 = .ok t) ∧
      (cpuLimit + 1 < (processors (items.map Item.entry)).length →
        (parse mem).1 = .error (.apicIdMismatch cpuLimit (UInt8.ofNat (cpuLimit + 1)))) := by
  refine ⟨fun hlen => ?_, fun hmany => ?_⟩
  · have hnumbered := (numbered_iff_inOrder hlen).2 horder
    obtain ⟨t, ht, hdescribes⟩ := exists_topologyOf (p := p) hspell hne hnumbered
    refine ⟨t, by rw [h.parse_eq, ht], ?_, hdescribes, ?_⟩
    · rw [Topology.ncpu, hdescribes.cpus, processors_keeping, List.length_map, List.length_take,
        Nat.min_comm]
    · exact fun mem' p' table' items' h' hspell' hkept hlapic himcr =>
        h'.parse_keeping hspell' hkept hne hnumbered hdescribes hlapic himcr
  · rw [h.parse_eq]
    exact topologyOf_misfit hspell horder hmany

/-- The ninth processor is left out. -/
theorem Presents.leaves_out_surplus_ninth :
    ∃ t, (parse (lowMemory (tableOf lowHeader (lowItems 9)))).1 = .ok t ∧ t.ncpu = 8 := by
  have hproduct : lowHeader.product.length = 20 := by decide
  have hpresents : Presents (lowMemory (tableOf lowHeader (lowItems 9))) lowPointer
      (tableOf lowHeader (lowItems 9)) :=
    presents_lowMemory hproduct (.inr rfl) (by decide +kernel)
  obtain ⟨t, ht, hncpu, -⟩ := (hpresents.leaves_out_surplus
    (drop_tableOf hproduct (lowItems 9)).symm (by decide) (by decide +kernel)).1 (by decide)
  exact ⟨t, ht, hncpu⟩

/-- **Ten processors that are numbered in order are refused altogether**, though the first eight are
all that would be kept. -/
theorem Presents.surplus_refused :
    Presents (lowMemory (tableOf lowHeader (lowItems 10))) lowPointer
        (tableOf lowHeader (lowItems 10)) ∧
      spell (lowItems 10) = (tableOf lowHeader (lowItems 10)).drop Header.size ∧
      InOrder (processors ((lowItems 10).map Item.entry)) ∧
      (processors ((lowItems 10).map Item.entry)).length = 10 ∧
      ¬ ∃ t, (parse (lowMemory (tableOf lowHeader (lowItems 10)))).1 = .ok t ∧
        t.ncpu = min 10 cpuLimit := by
  have hproduct : lowHeader.product.length = 20 := by decide
  have hpresents : Presents (lowMemory (tableOf lowHeader (lowItems 10))) lowPointer
      (tableOf lowHeader (lowItems 10)) :=
    presents_lowMemory hproduct (.inr rfl) (by decide +kernel)
  have hspell := (drop_tableOf hproduct (lowItems 10)).symm
  have horder : InOrder (processors ((lowItems 10).map Item.entry)) := by decide +kernel
  refine ⟨hpresents, hspell, horder, by decide, ?_⟩
  rintro ⟨t, ht, -⟩
  rw [hpresents.parse_eq, topologyOf_misfit hspell horder (by decide)] at ht
  cases ht

end Firmware

end Exokernel
