import Exokernel.Text.Hex
import Exokernel.Firmware.PhysMemory
import Exokernel.Firmware.Record
/-!
# The configuration table

Finding the floating pointer in low memory, and the table it leads to. The table is used only if
its header and its checksum are in order.
-/

namespace Exokernel

namespace Firmware

/-- Why the firmware's description of the machine cannot be used. -/
inductive MpError where
  | notFound
  | defaultConfig
  | unreadable (addr : Nat)
  | badSignature
  | unsupportedVersion (version : UInt8)
  | badChecksum
  | truncated (offset : Nat)
  | unknownEntry (kind : UInt8)
  | apicIdMismatch (index : Nat) (apicId : UInt8)
deriving DecidableEq

/-- What went wrong. -/
def MpError.message : MpError → String
  | .notFound => "MP floating pointer structure not found"
  | .defaultConfig => "default MP configurations are not supported"
  | .unreadable addr => "configuration table at " ++ Hex.address addr ++ " is not readable"
  | .badSignature => "bad configuration table signature"
  | .unsupportedVersion v => "unsupported configuration table version " ++ toString v.toNat
  | .badChecksum => "configuration table checksum mismatch"
  | .truncated offset => "configuration entry at offset " ++ Hex.address offset ++ " is truncated"
  | .unknownEntry kind => "unknown configuration entry type " ++ Hex.address kind.toNat
  | .apicIdMismatch index apicId =>
    "processor entry #" ++ toString index ++ " has APIC id " ++ toString apicId.toNat

/-- The name of the reason. -/
def MpError.name : MpError → String
  | .notFound => "NotFound"
  | .defaultConfig => "DefaultConfig"
  | .unreadable _ => "Unreadable"
  | .badSignature => "BadSignature"
  | .unsupportedVersion _ => "UnsupportedVersion"
  | .badChecksum => "BadChecksum"
  | .truncated _ => "Truncated"
  | .unknownEntry _ => "UnknownEntry"
  | .apicIdMismatch _ _ => "ApicIdMismatch"

/-- Where the firmware keeps its own data. -/
def biosData : Nat := 0x400

/-- The bytes of the firmware's data that are looked at. -/
def biosDataLength : Nat := 0x20

/-- Where the firmware's code starts. -/
def biosRom : Nat := 0xf0000

/-- Bytes of the firmware's code. -/
def biosRomLength : Nat := 0x10000

/-- The floating pointer in a piece of memory: it has the signature, and its bytes add up to 0. -/
def pointerOf (piece : List UInt8) : Option FloatingPointer :=
  if piece.take 4 = FloatingPointer.magic ∧ Bytes.checksum piece = 0 then
    FloatingPointer.read? piece
  else
    none

/-- The first floating pointer of a range, at a multiple of 16 bytes from its start. -/
def searchRange (mem : PhysMemory) (start len : Nat) : Option FloatingPointer :=
  match mem.bytes start len with
  | some l => (Bytes.pieces FloatingPointer.size (len / FloatingPointer.size) l).findSome? pointerOf
  | none => none

/-- The places to look at before the firmware's code, as its data name them: the first KiB of the
extended data area and the last KiB of base memory. -/
def searchPlaces (bda : List UInt8) : List (Nat × Nat) :=
  let extended := (Bytes.word16At bda 0x0e).toNat * 16
  let baseKib := (Bytes.word16At bda 0x13).toNat
  (if extended ≠ 0 then [(extended, 1024)] else []) ++
    (if baseKib ≠ 0 then [(baseKib * 1024 - 1024, 1024)] else [])

/-- The floating pointer of the machine. -/
def search (mem : PhysMemory) : Option FloatingPointer :=
  let places :=
    match mem.bytes biosData biosDataLength with
    | some bda => searchPlaces bda
    | none => []
  (places ++ [(biosRom, biosRomLength)]).findSome? fun p => searchRange mem p.1 p.2

/-- The floating pointer and the whole configuration table, header included. -/
def config (mem : PhysMemory) : Except MpError (FloatingPointer × List UInt8) := do
  let some pointer := search mem | throw .notFound
  let addr := pointer.physAddr.toNat
  if addr = 0 then
    throw .defaultConfig
  let some head := mem.bytes addr Header.size | throw (.unreadable addr)
  let header := Header.ofBytes head
  if header.signature ≠ Header.magic then
    throw .badSignature
  if header.version ≠ 1 ∧ header.version ≠ 4 then
    throw (.unsupportedVersion header.version)
  if header.length.toNat < Header.size then
    throw (.truncated 0)
  let some table := mem.bytes addr header.length.toNat | throw (.unreadable addr)
  if Bytes.checksum table ≠ 0 then
    throw .badChecksum
  pure (pointer, table)

end Firmware

end Exokernel
