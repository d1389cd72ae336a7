import Exokernel.Machine.Boot
import Exokernel.Proofs.Acceptance
import Exokernel.Proofs.Ownership
/-!
# Discovery is safe to boot from

`Checked` is the discovery of the machine with everything that can go wrong spelled out: a place
past the end of a table, a difference below 0, a sum or product past the last 32-bit word and a
processor more than there is room for are faults. None of them happens, whatever the memory holds
(`Checked.discover_eq`). What discovery answers is a topology the processors can be set up with
(`Topology.Sound`), and then the environment table can be divided among them.
-/

namespace Exokernel

namespace Firmware

/-! ## Discovery with its checks -/

namespace Checked

/-- The element at a place, which has to be there. -/
def index {α : Type} (l : List α) (i : Nat) : Except Fault α :=
  match l[i]? with
  | some a => .ok a
  | none => .error (.failed none)

/-- The elements from a place on, which must not be past the end. -/
def tail {α : Type} (l : List α) (i : Nat) : Except Fault (List α) :=
  if i ≤ l.length then .ok (l.drop i) else .error (.failed none)

/-- The result of a sum or a product, which has to fit into a word. -/
def word (n : Nat) : Except Fault Nat :=
  if n < 2 ^ 32 then .ok n else .error (.failed none)

/-- A difference, which must not be below 0. -/
def sub (a b : Nat) : Except Fault Nat :=
  if b ≤ a then .ok (a - b) else .error (.failed none)

/-- The 16-bit word made of the bytes at a place and the next one. -/
def word16 (l : List UInt8) (i : Nat) : Except Fault Nat := do
  let low ← index l i
  let high ← index l (i + 1)
  .ok (low.toNat + 256 * high.toNat)

/-- The places to look at before the firmware's code. All of them are worked out before the first
one is looked at. -/
def searchPlaces (bda : List UInt8) : Except Fault (List (Nat × Nat)) := do
  let extended ← word ((← word16 bda 0x0e) * 16)
  let baseKib ← word16 bda 0x13
  let last ← if baseKib ≠ 0 then sub (← word (baseKib * 1024)) 1024 else pure 0
  return (if extended ≠ 0 then [(extended, 1024)] else []) ++
    (if baseKib ≠ 0 then [(last, 1024)] else [])

/-- The floating pointer of the machine. -/
def search (mem : PhysMemory) : Except Fault (Option FloatingPointer) := do
  let places ←
    match mem.bytes biosData biosDataLength with
    | some bda => searchPlaces bda
    | none => pure []
  return (places ++ [(biosRom, biosRomLength)]).findSome? fun p => searchRange mem p.1 p.2

/-- The floating pointer and the whole configuration table, or why there is none. -/
def config (mem : PhysMemory) :
    Except Fault (Except MpError (FloatingPointer × List UInt8)) := do
  let some pointer ← search mem | return .error .notFound
  let addr := pointer.physAddr.toNat
  if addr = 0 then
    return .error .defaultConfig
  let some head := mem.bytes addr Header.size | return .error (.unreadable addr)
  let some header := Header.read? head | return .error (.unreadable addr)
  if header.signature ≠ Header.magic then
    return .error .badSignature
  if header.version ≠ 1 ∧ header.version ≠ 4 then
    return .error (.unsupportedVersion header.version)
  if header.length.toNat < Header.size then
    return .error (.truncated 0)
  let some table := mem.bytes addr header.length.toNat | return .error (.unreadable addr)
  if Bytes.checksum table ≠ 0 then
    return .error .badChecksum
  return .ok (pointer, table)

/-- Takes a processor into account, for which there has to be room. -/
def push (s : Survey) (e : ProcessorEntry) : Except Fault Survey :=
  if h : s.cpus.length < cpuLimit then
    .ok { s with
      cpus := s.cpus ++ [e.cpu]
      cpus_le := by
        rw [List.length_append]
        exact h
      bsp := if e.isBoot then s.cpus.length else s.bsp }
  else
    .error (.failed none)

/-- Takes an entry into account. -/
def add (s : Survey) : Entry → Except Fault (Survey × Option MpError)
  | .processor e =>
    if e.apicId.toNat ≠ s.cpus.length then
      return (s, some (.apicIdMismatch s.cpus.length e.apicId))
    else if s.cpus.length = cpuLimit then
      return ({ s with warnings := s.warnings ++ [Survey.tooMany e] }, none)
    else do
      return (← push s e, none)
  | e => return s.add e

/-- What is known after the entry at an offset, whose first byte has to be there, and the offset of
the next entry. -/
def turn (table : List UInt8) (offset : Nat) (s : Survey) :
    Except Fault (Survey × Except MpError Nat) := do
  let l ← tail table offset
  let _ ← index l 0
  match Entry.read offset l with
  | .error e => return (s, .error e)
  | .ok entry =>
    match ← add s entry with
    | (s, some e) => return (s, .error e)
    | (s, none) => return (s, .ok (← word (offset + entry.size)))

/-- What is known after the entries from an offset on, and the offset at which they end. A turn that
did not lead on would be repeated for ever. -/
def walk (table : List UInt8) (offset : Nat) (s : Survey) :
    Except Fault (Survey × Except MpError Nat) :=
  if offset < table.length then
    match turn table offset s with
    | .error f => .error f
    | .ok (s, .error e) => .ok (s, .error e)
    | .ok (s, .ok next) => if offset < next then walk table next s else .error .hung
  else
    .ok (s, .ok offset)
termination_by table.length - offset

/-- The topology the firmware describes, and the warnings given on the way. -/
def parse (mem : PhysMemory) :
    Except Fault (Except MpError Topology × List Log.Record) := do
  match ← config mem with
  | .error e => return (.error e, [])
  | .ok (pointer, table) =>
    let some header := Header.read? table | return (.error (.truncated 0), [])
    let (s, result) ← walk table Header.size { cpus := [], cpus_le := Nat.zero_le cpuLimit }
    match result with
    | .error e => return (.error e, s.warnings)
    | .ok offset =>
      if s.cpus = [] then
        return (.error (.truncated offset), s.warnings)
      return (.ok {
        cpus := s.cpus
        cpus_le := s.cpus_le
        bsp := s.bsp
        ioApicId := s.ioApicId
        ioApicAddr := s.ioApicAddr
        lapicAddr := header.lapicAddr
        imcr := pointer.hasImcr
        isMp := true }, s.warnings)

/-- The topology of the machine, and what is said about it. -/
def discover (mem : PhysMemory) : Except Fault (Topology × List Log.Record) := do
  match ← parse mem with
  | (.ok t, warnings) => return (t, warnings ++ [found t])
  | (.error e, warnings) => return (Topology.uniprocessor, warnings ++ [fallingBack e])

variable {mem : PhysMemory} {table l : List UInt8} {offset i n : Nat} {s : Survey}

theorem index_byteAt (h : i < l.length) : index l i = .ok (Bytes.byteAt l i) := by
  rw [index, List.getElem?_eq_getElem h, Bytes.byteAt, List.getD_eq_getElem?_getD,
    List.getElem?_eq_getElem h]
  rfl

theorem word_eq (h : n < 2 ^ 32) : word n = .ok n := if_pos h

theorem word16_eq (h : i + 2 ≤ l.length) : word16 l i = .ok (Bytes.word16At l i).toNat := by
  have hvalue : (Bytes.word16At l i).toNat =
      (Bytes.byteAt l i).toNat + 256 * (Bytes.byteAt l (i + 1)).toNat := by
    have hslice : Bytes.sliceAt l i 2 = [Bytes.byteAt l i, Bytes.byteAt l (i + 1)] := by
      rw [Bytes.cons_byteAt (by omega), Bytes.cons_byteAt (by omega), List.append_nil,
        Bytes.sliceAt_append l i 1 1]
    have hlow := (Bytes.byteAt l i).toNat_lt
    have hhigh := (Bytes.byteAt l (i + 1)).toNat_lt
    rw [Bytes.word16At, hslice, UInt16.toNat_ofNat']
    simp only [Bytes.value]
    omega
  rw [word16, index_byteAt (by omega), index_byteAt (by omega), hvalue]
  rfl

theorem searchPlaces_eq {bda : List UInt8} (hlen : bda.length = biosDataLength) :
    searchPlaces bda = .ok (Firmware.searchPlaces bda) := by
  have hextended := (Bytes.word16At bda 0x0e).toNat_lt
  have hbase := (Bytes.word16At bda 0x13).toNat_lt
  rw [biosDataLength] at hlen
  unfold searchPlaces Firmware.searchPlaces
  rw [word16_eq (by omega), word16_eq (by omega)]
  dsimp only [bind, Except.bind]
  rw [word_eq (by omega), word_eq (by omega)]
  by_cases hnone : (Bytes.word16At bda 0x13).toNat = 0
  · simp only [hnone, ne_eq, not_true_eq_false, if_false]
    rfl
  · have hsub : sub ((Bytes.word16At bda 0x13).toNat * 1024) 1024 =
        .ok ((Bytes.word16At bda 0x13).toNat * 1024 - 1024) := if_pos (by omega)
    simp only [hnone, ne_eq, not_false_eq_true, if_true, hsub]
    rfl

/-- **No step of the search goes wrong.** -/
theorem search_eq (mem : PhysMemory) : search mem = .ok (Firmware.search mem) := by
  unfold search Firmware.search
  cases hbda : mem.bytes biosData biosDataLength with
  | none => rfl
  | some bda =>
    dsimp only
    rw [searchPlaces_eq (mem.length_bytes hbda)]
    rfl

theorem config_eq (mem : PhysMemory) : config mem = .ok (Firmware.config mem) := by
  unfold config Firmware.config
  rw [search_eq]
  dsimp only [bind, Except.bind]
  cases Firmware.search mem with
  | none => rfl
  | some p =>
    dsimp only
    split
    · rfl
    cases hhead : mem.bytes p.physAddr.toNat Header.size with
    | none => rfl
    | some head =>
      have hread : Header.read? head = some (Header.ofBytes head) :=
        if_neg (by rw [mem.length_bytes hhead]; exact Nat.lt_irrefl _)
      dsimp only
      rw [hread]
      dsimp only
      split
      · rfl
      split
      · rfl
      split
      · rfl
      cases mem.bytes p.physAddr.toNat (Header.ofBytes head).length.toNat with
      | none => rfl
      | some table =>
        dsimp only
        split
        · rfl
        · rfl

/-- **There is room for a processor that is kept.** -/
theorem add_eq (s : Survey) (e : Entry) : add s e = .ok (s.add e) := by
  cases e with
  | processor e =>
    have hle := s.cpus_le
    unfold add Survey.add Survey.addProcessor
    dsimp only
    split
    · rfl
    · split
      · next hfull =>
        rw [dif_neg (by omega)]
        rfl
      · next hroom =>
        rw [push, dif_pos (by omega), dif_pos (by omega)]
        rfl
  | ioApic e => rfl
  | other => rfl

/-- An entry that can be read is there as a whole. -/
theorem size_le_of_read {e : Entry} (h : Entry.read offset l = .ok e) : e.size ≤ l.length := by
  obtain ⟨i, rfl, hl⟩ := Item.exists_of_read h
  rw [hl, List.length_append, i.length_bytes]
  exact Nat.le_add_right _ _

/-- **No step of a turn goes wrong**: it reads the entry and takes it into account. -/
theorem turn_eq (hoffset : offset < table.length) (hlen : table.length < 2 ^ 16) (s : Survey) :
    turn table offset s = .ok (match Entry.read offset (table.drop offset) with
      | .error e => (s, .error e)
      | .ok entry =>
        match s.add entry with
        | (s, some e) => (s, .error e)
        | (s, none) => (s, .ok (offset + entry.size))) := by
  have htail : tail table offset = .ok (table.drop offset) := if_pos (Nat.le_of_lt hoffset)
  have hfirst : index (table.drop offset) 0 = .ok (Bytes.byteAt (table.drop offset) 0) :=
    index_byteAt (by rw [List.length_drop]; omega)
  unfold turn
  rw [htail]
  dsimp only [bind, Except.bind]
  rw [hfirst]
  cases hread : Entry.read offset (table.drop offset) with
  | error e => rfl
  | ok entry =>
    have hsize := size_le_of_read hread
    rw [List.length_drop] at hsize
    dsimp only
    rw [add_eq]
    rcases s.add entry with ⟨s', _ | e⟩
    · dsimp only
      rw [word_eq (by omega)]
      rfl
    · rfl

/-- **No step of the walk goes wrong**: it takes the entries into account up to the first one that
cannot be read or does not fit in, and otherwise ends where the table does. -/
theorem walk_eq (hlen : table.length < 2 ^ 16) (hoffset : offset ≤ table.length) (s : Survey) :
    walk table offset s = .ok (
      let (entries, bad) := entriesFrom offset (table.drop offset)
      let (s, misfit) := s.addAll entries
      (s, match misfit.or bad with
        | some e => .error e
        | none => .ok table.length)) := by
  induction hn : table.length - offset using Nat.strong_induction_on generalizing offset s with
  | h n ih =>
    unfold walk entriesFrom
    by_cases hend : offset = table.length
    · rw [if_neg (by omega), dif_pos (by rw [hend, List.drop_length]), hend]
      rfl
    · rw [if_pos (by omega), turn_eq (by omega) hlen,
        dif_neg (List.ne_nil_of_length_pos (by rw [List.length_drop]; omega))]
      cases hread : Entry.read offset (table.drop offset) with
      | error e => rfl
      | ok entry =>
        have hpos := entry.size_pos
        have hsize := size_le_of_read hread
        rw [List.length_drop] at hsize
        dsimp only
        rw [List.drop_drop]
        rcases hadd : s.add entry with ⟨s', _ | e⟩
        · dsimp only
          rw [if_pos (by omega), ih _ (by omega) (by omega) s' rfl]
          dsimp only
          rw [Survey.addAll, hadd]
        · dsimp only
          rw [Survey.addAll, hadd]
          rfl

/-- The length of a table is a 16-bit word. -/
theorem length_lt_of_config {p : FloatingPointer} (h : Firmware.config mem = .ok (p, table)) :
    Header.size ≤ table.length ∧ table.length < 2 ^ 16 := by
  obtain ⟨head, -, -, -, hsize, htable⟩ := (config_eq_ok_iff.1 h).header
  rw [mem.length_bytes htable]
  exact ⟨hsize, (Header.ofBytes head).length.toNat_lt⟩

theorem parse_eq (mem : PhysMemory) : parse mem = .ok (Firmware.parse mem) := by
  unfold parse Firmware.parse
  rw [config_eq]
  dsimp only [bind, Except.bind]
  rcases hconfig : Firmware.config mem with e | ⟨p, table⟩
  · rfl
  · obtain ⟨hsize, hlen⟩ := length_lt_of_config hconfig
    have hread : Header.read? table = some (Header.ofBytes table) := if_neg (Nat.not_lt.2 hsize)
    unfold topologyOf
    dsimp only
    rw [hread]
    dsimp only
    rw [walk_eq hlen hsize]
    rcases entriesFrom Header.size (table.drop Header.size) with ⟨entries, bad⟩
    dsimp only
    rcases ({} : Survey).addAll entries with ⟨s, misfit⟩
    dsimp only
    cases misfit.or bad with
    | some e => rfl
    | none =>
      dsimp only
      split
      · rfl
      · rfl

/-- **No step of discovery goes wrong**, whatever the memory holds. -/
theorem discover_eq (mem : PhysMemory) : discover mem = .ok (Firmware.discover mem) := by
  unfold discover Firmware.discover
  rw [parse_eq]
  dsimp only [bind, Except.bind]
  rcases Firmware.parse mem with ⟨e | t, warnings⟩
  · rfl
  · rfl

end Checked

end Firmware

/-! ## What is discovered -/

/-- **The processors can be set up with a topology**: there is one, and no other if the machine is
taken for a uniprocessor, the one the machine started on is among them, and each has its place as
number. -/
structure Topology.Sound (t : Topology) : Prop where
  ncpu_pos : 0 < t.ncpu
  ncpu_eq : t.isMp = false → t.ncpu = 1
  bsp_lt : t.bsp < t.ncpu
  apicId : ∀ (i : Nat) (e : CpuEntry), t.cpus[i]? = some e → e.apicId.toNat = i

namespace Firmware

variable {p : FloatingPointer} {h : Header} {entries : List Entry} {t : Topology}

theorem IsBootPlace.lt {l : List ProcessorEntry} {place : Nat} (h : IsBootPlace l place)
    (hne : l ≠ []) : place < l.length := by
  rcases h with ⟨e, he, -⟩ | ⟨-, rfl⟩
  · exact (List.getElem?_eq_some_iff.1 he).1
  · exact List.length_pos_of_ne_nil hne

/-- What entries that are numbered in order describe is sound. -/
theorem Describes.sound (hd : Describes p h (keeping cpuLimit entries) t)
    (hne : processors entries ≠ []) (hnumbered : Numbered (processors entries)) : t.Sound := by
  have hkept := processors_keeping_ne_nil (n := cpuLimit) (by decide) hne
  have hncpu : t.ncpu = (processors (keeping cpuLimit entries)).length := by
    rw [Topology.ncpu, hd.cpus, List.length_map]
  refine ⟨hncpu ▸ List.length_pos_of_ne_nil hkept, fun hmp => ?_, hncpu ▸ hd.bsp.lt hkept,
    fun i e he => ?_⟩
  · cases hd.isMp.symm.trans hmp
  · rw [hd.cpus, List.getElem?_map, Option.map_eq_some_iff] at he
    obtain ⟨q, hq, rfl⟩ := he
    rw [processors_keeping, List.getElem?_take] at hq
    split at hq
    · next hi => exact (hnumbered i q hq).trans (Nat.min_eq_left (Nat.le_of_lt hi))
    · cases hq

/-- **A topology the firmware describes is sound.** -/
theorem sound_of_parse {mem : PhysMemory} (ht : (parse mem).1 = .ok t) : t.Sound := by
  rcases hconfig : config mem with e | ⟨p, table⟩
  · rw [parse, hconfig] at ht
    cases ht
  · rw [parse, hconfig] at ht
    dsimp only at ht
    obtain ⟨items, hspell, hne, hnumbered⟩ := exists_of_topologyOf ht
    obtain ⟨t', ht', hd⟩ := exists_topologyOf (p := p) hspell hne hnumbered
    rw [ht', Except.ok.injEq] at ht
    exact ht ▸ hd.sound hne hnumbered

theorem sound_uniprocessor : Topology.uniprocessor.Sound where
  ncpu_pos := Nat.one_pos
  ncpu_eq := fun _ => rfl
  bsp_lt := Nat.one_pos
  apicId := by
    intro i e he
    cases i with
    | zero =>
      cases he
      rfl
    | succ i => cases he

/-- **What discovery answers is sound.** -/
theorem sound_discover (mem : PhysMemory) : (discover mem).1.Sound := by
  unfold discover
  rcases hparse : parse mem with ⟨e | t, warnings⟩
  · exact sound_uniprocessor
  · exact sound_of_parse (congrArg Prod.fst hparse)

end Firmware

/-! ## Setting the processors up -/

namespace CpuSet

variable {t : Topology} {i : CpuIndex}

theorem mem_members {s : CpuSet} : i ∈ s.members ↔ i.val < s.count := by
  simp [members]

/-- The processors in use have the numbers of the topology, which are their places. -/
theorem apicId_configure (s : CpuSet) (ht : t.Sound) (hi : i ∈ (s.configure t).members) :
    ((s.configure t).cpu i).apicId.toNat = i.val := by
  have hlt : i.val < t.cpus.length := mem_members.1 hi
  have hcpu : (s.configure t).cpu i = { s.cpu i with apicId := (t.cpus[i.val]).apicId } := by
    unfold cpu configure
    dsimp only
    rw [Vector.getElem_ofFn, List.getElem?_eq_getElem hlt]
    rfl
  rw [hcpu]
  exact ht.apicId i.val _ (List.getElem?_eq_getElem hlt)

/-- **A processor in use is found by its number**, and only by that. -/
theorem byApicId?_configure (s : CpuSet) (ht : t.Sound) (apicId : UInt8) :
    (s.configure t).byApicId? apicId = some i ↔
      i ∈ (s.configure t).members ∧ ((s.configure t).cpu i).apicId = apicId := by
  constructor
  · intro h
    exact ⟨List.mem_of_find?_eq_some h, by simpa using List.find?_some h⟩
  · rintro ⟨hi, hid⟩
    -- the first one found has the same number, and so the same place
    cases hfind : (s.configure t).byApicId? apicId with
    | none =>
      exact absurd hid (by simpa using List.find?_eq_none.1 hfind i hi)
    | some j =>
      have hj : j ∈ (s.configure t).members := List.mem_of_find?_eq_some hfind
      have hjd : ((s.configure t).cpu j).apicId = apicId := by simpa using List.find?_some hfind
      have hplace : j.val = i.val := by
        rw [← s.apicId_configure ht hj, ← s.apicId_configure ht hi, hid, hjd]
      rw [Fin.ext hplace]

end CpuSet

/-- Several CPUs divide the table, and one has it to itself. -/
theorem Topology.division_policy {t : Topology} (hpos : 1 ≤ t.ncpu)
    (hone : t.isMp = false → t.ncpu = 1) : Division t.policy t.ncpu := by
  refine ⟨hpos, t.cpus_le, fun hglobal => hone ?_⟩
  unfold Topology.policy at hglobal
  split at hglobal
  · cases hglobal
  · next hmp => exact Bool.eq_false_iff.2 hmp

/-- **The table can be divided** among the processors of a sound topology. -/
theorem State.exists_init {M : Type} {t : Topology} (ht : t.Sound) (k : State M) :
    ∃ k', State.init t.policy t.ncpu k = .ok k' :=
  (t.division_policy ht.ncpu_pos ht.ncpu_eq).exists_init k

namespace Firmware

/-- **Discovery is safe to boot from.** Whatever the memory holds, nothing goes wrong on the way to
a topology that has a processor, no more of them than the kernel runs on, the one the machine
started on among them and their places as numbers. With the processors set up by it, those in use
are the ones of the topology, each is found by its number, the one the machine started on is in use,
and the environment table can be divided among them. -/
theorem discovery_is_safe {M : Type} (mem : PhysMemory) (s : CpuSet) (k : State M) :
    ∃ t records, Checked.discover mem = .ok (t, records) ∧ discover mem = (t, records) ∧
      1 ≤ t.ncpu ∧ t.ncpu ≤ cpuLimit ∧ t.bsp < t.ncpu ∧
      (∀ (i : Nat) (e : CpuEntry), t.cpus[i]? = some e → e.apicId.toNat = i) ∧
      (∀ n, ((s.configure t).get? n).isSome ↔ n < t.ncpu) ∧
      (∀ i apicId, (s.configure t).byApicId? apicId = some i ↔
        i.val < t.ncpu ∧ ((s.configure t).cpu i).apicId = apicId) ∧
      (∃ b, (s.configure t).bsp? = some b ∧ b.val = t.bsp ∧ b ∈ (s.configure t).members) ∧
      ∃ k', State.init t.policy t.ncpu k = .ok k' := by
  have hsound := sound_discover mem
  have hle := (discover mem).1.cpus_le
  have hbsp : (discover mem).1.bsp < cpuLimit := Nat.lt_of_lt_of_le hsound.bsp_lt hle
  refine ⟨(discover mem).1, (discover mem).2, Checked.discover_eq mem, rfl, hsound.ncpu_pos, hle,
    hsound.bsp_lt, hsound.apicId, fun n => ?_, fun i apicId => ?_, ?_,
    State.exists_init hsound k⟩
  · unfold CpuSet.get?
    split
    · next h => exact ⟨fun _ => h, fun _ => rfl⟩
    · next h => exact ⟨nofun, fun h' => absurd h' h⟩
  · rw [s.byApicId?_configure hsound, CpuSet.mem_members]
    rfl
  · exact ⟨⟨_, hbsp⟩, dif_pos hbsp, rfl, CpuSet.mem_members.2 hsound.bsp_lt⟩

end Firmware

end Exokernel
