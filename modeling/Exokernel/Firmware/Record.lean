import Exokernel.Text.Bytes
/-!
# Records of the firmware's tables

The multiprocessor tables consist of packed little-endian records. Each is read from the head of
some bytes, which may be longer, and is `none` if they are shorter.
-/

namespace Exokernel

namespace Firmware

/-- The record that leads to the configuration table. -/
structure FloatingPointer where
  signature : List UInt8
  /-- The physical address of the configuration table. -/
  physAddr : UInt32
  /-- The length in units of 16 bytes. -/
  length : UInt8
  specRev : UInt8
  checksum : UInt8
  /-- The number of a default configuration, 0 if there is a table. -/
  configType : UInt8
  imcrp : UInt8
  reserved : List UInt8
deriving DecidableEq

namespace FloatingPointer

/-- Bytes of the record. -/
abbrev size : Nat := 16

/-- The bytes the record starts with: `_MP_`. -/
def magic : List UInt8 := [0x5f, 0x4d, 0x50, 0x5f]

/-- The record at the head of some bytes. -/
def read? (l : List UInt8) : Option FloatingPointer :=
  if l.length < size then
    none
  else
    some {
      signature := Bytes.sliceAt l 0 4
      physAddr := Bytes.word32At l 4
      length := Bytes.byteAt l 8
      specRev := Bytes.byteAt l 9
      checksum := Bytes.byteAt l 10
      configType := Bytes.byteAt l 11
      imcrp := Bytes.byteAt l 12
      reserved := Bytes.sliceAt l 13 3 }

/-- The machine has the register that connects the old interrupt controller. -/
def hasImcr (p : FloatingPointer) : Bool := p.imcrp.toNat / 128 % 2 == 1

end FloatingPointer

/-- The header of the configuration table. -/
structure Header where
  signature : List UInt8
  /-- The length of the table, header included. -/
  length : UInt16
  version : UInt8
  checksum : UInt8
  product : List UInt8
  oemTable : UInt32
  oemLength : UInt16
  entryCount : UInt16
  /-- The physical address of the local interrupt controllers. -/
  lapicAddr : UInt32
  extLength : UInt16
  extChecksum : UInt8
  reserved : UInt8
deriving DecidableEq

namespace Header

/-- Bytes of the header. -/
abbrev size : Nat := 44

/-- The bytes the header starts with: `PCMP`. -/
def magic : List UInt8 := [0x50, 0x43, 0x4d, 0x50]

/-- The header made of the first bytes of a list that is long enough. -/
def ofBytes (l : List UInt8) : Header where
  signature := Bytes.sliceAt l 0 4
  length := Bytes.word16At l 4
  version := Bytes.byteAt l 6
  checksum := Bytes.byteAt l 7
  product := Bytes.sliceAt l 8 20
  oemTable := Bytes.word32At l 28
  oemLength := Bytes.word16At l 32
  entryCount := Bytes.word16At l 34
  lapicAddr := Bytes.word32At l 36
  extLength := Bytes.word16At l 40
  extChecksum := Bytes.byteAt l 42
  reserved := Bytes.byteAt l 43

/-- The header at the head of some bytes. -/
def read? (l : List UInt8) : Option Header :=
  if l.length < size then none else some (ofBytes l)

end Header

/-- A processor of the configuration table. -/
structure ProcessorEntry where
  kind : UInt8
  apicId : UInt8
  apicVersion : UInt8
  flags : UInt8
  signature : List UInt8
  feature : UInt32
  reserved : List UInt8
deriving DecidableEq

namespace ProcessorEntry

/-- Bytes of the entry. -/
abbrev size : Nat := 20

/-- The entry at the head of some bytes. -/
def read? (l : List UInt8) : Option ProcessorEntry :=
  if l.length < size then
    none
  else
    some {
      kind := Bytes.byteAt l 0
      apicId := Bytes.byteAt l 1
      apicVersion := Bytes.byteAt l 2
      flags := Bytes.byteAt l 3
      signature := Bytes.sliceAt l 4 4
      feature := Bytes.word32At l 8
      reserved := Bytes.sliceAt l 12 8 }

/-- The processor is the one the machine started on. -/
def isBoot (e : ProcessorEntry) : Bool := e.flags.toNat / 2 % 2 == 1

end ProcessorEntry

/-- A controller of interrupt lines of the configuration table. -/
structure IoApicEntry where
  kind : UInt8
  apicId : UInt8
  version : UInt8
  flags : UInt8
  addr : UInt32
deriving DecidableEq

namespace IoApicEntry

/-- Bytes of the entry. -/
abbrev size : Nat := 8

/-- The entry at the head of some bytes. -/
def read? (l : List UInt8) : Option IoApicEntry :=
  if l.length < size then
    none
  else
    some {
      kind := Bytes.byteAt l 0
      apicId := Bytes.byteAt l 1
      version := Bytes.byteAt l 2
      flags := Bytes.byteAt l 3
      addr := Bytes.word32At l 4 }

end IoApicEntry

end Firmware

end Exokernel
