import Exokernel.Log
import Exokernel.Firmware.Config
import Exokernel.Firmware.Topology
/-!
# Discovery of the machine

The bytes after the header of the configuration table are a sequence of entries. `entriesFrom`
splits them, `Survey.add` takes one entry after the other into account, and `parse` is the topology
they describe. Anything unexpected makes the whole table unusable, and `discover` then takes the
machine for a uniprocessor.
-/

namespace Exokernel

namespace Firmware

/-- An entry of the configuration table. -/
inductive Entry where
  | processor (e : ProcessorEntry)
  | ioApic (e : IoApicEntry)
  /-- A bus, or the assignment of an interrupt. -/
  | other
deriving DecidableEq

namespace Entry

/-- Bytes of an entry that is not a processor's. -/
abbrev smallSize : Nat := 8

/-- The bytes an entry takes up. -/
def size : Entry → Nat
  | .processor _ => ProcessorEntry.size
  | .ioApic _ => IoApicEntry.size
  | .other => smallSize

theorem size_pos (e : Entry) : 0 < e.size := by
  cases e <;> exact Nat.zero_lt_succ _

/-- The entry at the head of some bytes, which are those from an offset of the table on. The first
byte tells what kind of entry it is. -/
def read (offset : Nat) (l : List UInt8) : Except MpError Entry :=
  match Bytes.byteAt l 0 with
  | 0 =>
    match ProcessorEntry.read? l with
    | some e => .ok (.processor e)
    | none => .error (.truncated offset)
  | 2 =>
    match IoApicEntry.read? l with
    | some e => .ok (.ioApic e)
    | none => .error (.truncated offset)
  | 1 | 3 | 4 => if l.length < smallSize then .error (.truncated offset) else .ok .other
  | kind => .error (.unknownEntry kind)

end Entry

/-- The entries of the bytes from an offset of the table on, up to the first one that cannot be
read, and what is wrong with that one. -/
def entriesFrom (offset : Nat) (l : List UInt8) : List Entry × Option MpError :=
  if _ : l = [] then
    ([], none)
  else
    match Entry.read offset l with
    | .error e => ([], some e)
    | .ok entry =>
      let (entries, e) := entriesFrom (offset + entry.size) (l.drop entry.size)
      (entry :: entries, e)
termination_by l.length
decreasing_by
  have := entry.size_pos
  have : 0 < l.length := List.length_pos_iff.2 ‹_›
  simp only [List.length_drop]
  omega

/-- What is known of the machine after some of the entries. -/
structure Survey where
  cpus : List CpuEntry := []
  cpus_le : cpus.length ≤ cpuLimit := by decide
  bsp : Nat := 0
  ioApicId : UInt8 := 0
  ioApicAddr : UInt32 := 0
  /-- Warnings given so far, oldest first. -/
  warnings : List Log.Record := []

namespace Survey

/-- Takes a processor into account. Processors have to come with the identifiers 0, 1, 2 and so
on; those that are too many are left out. -/
def addProcessor (s : Survey) (e : ProcessorEntry) : Survey × Option MpError :=
  let index := s.cpus.length
  if e.apicId.toNat ≠ index then
    (s, some (.apicIdMismatch index e.apicId))
  else if h : index < cpuLimit then
    ({ s with
        cpus := s.cpus ++ [⟨e.apicId, e.apicVersion⟩]
        cpus_le := by
          rw [List.length_append]
          exact h
        bsp := if e.isBoot then index else s.bsp }, none)
  else
    ({ s with warnings := s.warnings ++ [{
        level := .warn
        target := Log.Target.firmware
        message := "mp: too many CPUs detected, CPU " ++ toString e.apicId.toNat ++ " disabled" }] },
      none)

/-- Takes an entry into account. -/
def add (s : Survey) : Entry → Survey × Option MpError
  | .processor e => s.addProcessor e
  | .ioApic e => ({ s with ioApicId := e.apicId, ioApicAddr := e.addr }, none)
  | .other => (s, none)

/-- Takes entries into account up to the first one that does not fit in. -/
def addAll (s : Survey) : List Entry → Survey × Option MpError
  | [] => (s, none)
  | e :: rest =>
    match s.add e with
    | (s, none) => s.addAll rest
    | (s, some err) => (s, some err)

end Survey

/-- The topology a configuration table describes, and the warnings given on the way. -/
def topologyOf (pointer : FloatingPointer) (table : List UInt8) :
    Except MpError Topology × List Log.Record :=
  let (entries, bad) := entriesFrom Header.size (table.drop Header.size)
  let (s, misfit) := ({} : Survey).addAll entries
  let result : Except MpError Topology :=
    match misfit.or bad with
    | some e => .error e
    | none =>
      if s.cpus = [] then
        .error (.truncated table.length)
      else
        .ok {
          cpus := s.cpus
          cpus_le := s.cpus_le
          bsp := s.bsp
          ioApicId := s.ioApicId
          ioApicAddr := s.ioApicAddr
          lapicAddr := (Header.ofBytes table).lapicAddr
          imcr := pointer.hasImcr
          isMp := true }
  (result, s.warnings)

/-- The topology the firmware describes, and the warnings given on the way. -/
def parse (mem : PhysMemory) : Except MpError Topology × List Log.Record :=
  match config mem with
  | .ok (pointer, table) => topologyOf pointer table
  | .error e => (.error e, [])

/-- What is said of a topology that was found. -/
def found (t : Topology) : Log.Record where
  level := .info
  target := Log.Target.firmware
  message :=
    "mp: " ++ toString t.ncpu ++ " cpus, bsp #" ++ toString t.bsp ++ ", ioapic " ++
      toString t.ioApicId.toNat ++ ", lapic at " ++ Hex.address t.lapicAddr.toNat

/-- What is said when no topology was found. -/
def fallingBack (e : MpError) : Log.Record where
  level := .warn
  target := Log.Target.firmware
  message := "mp: " ++ e.message ++ ", falling back to uniprocessor"

/-- The topology of the machine, and what is said about it. -/
def discover (mem : PhysMemory) : Topology × List Log.Record :=
  match parse mem with
  | (.ok t, warnings) => (t, warnings ++ [found t])
  | (.error e, warnings) => (Topology.uniprocessor, warnings ++ [fallingBack e])

end Firmware

end Exokernel
