import JvmLinkage.Text.Decimal

/-!
# Archives

An archive is a row of members, each behind a header of its own, and then a directory of all
members with a closing record. Numbers are kept in a fixed number of octets, lowest first.
-/

namespace JvmLinkage

/-- A file in an archive as the directory describes it. The system that made the archive tells what
its attributes mean. -/
structure ArchiveMember where
  path : Text
  creator : Nat
  flags : Nat
  method : Nat
  checksum : Nat
  packedSize : Nat
  size : Nat
  attributes : Nat
  offset : Int64
  deriving DecidableEq, Repr, Inhabited

/-- What is wrong with an archive or a member. -/
inductive ArchiveFailure where
  | notArchive
  | unknownMethod
  | badChecksum
  | ended
  | cutShort
  | corruptData (offset : Nat)
  | negativeOffset
  deriving DecidableEq, Repr, Inhabited

/-- The message of a failure. -/
def ArchiveFailure.message : ArchiveFailure → Text
  | notArchive => "zip: not a valid zip file"
  | unknownMethod => "zip: unsupported compression algorithm"
  | badChecksum => "zip: checksum error"
  | ended => "EOF"
  | cutShort => "unexpected EOF"
  | corruptData offset => "flate: corrupt input before offset " ++ Text.ofNat offset
  | negativeOffset => "negative offset"

namespace Archive

/-! ## Numbers -/

/-- The lowest `width` octets of a number, lowest first. -/
def littleEndian : (width n : Nat) → Bytes
  | 0, _ => []
  | width + 1, n => n.toUInt8 :: littleEndian width (n / 256)

/-- The number of octets, lowest first. -/
def number : Bytes → Nat
  | [] => 0
  | b :: rest => b.toNat + 256 * number rest

/-- A step that takes fields off the start of data. -/
abbrev FieldReader := StateM Bytes

/-- Takes a number of `width` octets. -/
def field (width : Nat) : FieldReader Nat := fun data => (number (data.take width), data.drop width)

/-- Passes over `width` octets. -/
def skip (width : Nat) : FieldReader Unit := modify (List.drop width)

/-- The first `size` octets and those after them. Data that ends in between is told from data that
has ended already. -/
def split (size : Nat) (data : Bytes) : Except ArchiveFailure (Bytes × Bytes) :=
  if size ≤ data.length then .ok (data.take size, data.drop size)
  else if data.isEmpty then .error .ended
  else .error .cutShort

/-- Offsets and sizes are less than this number, so that they have a sign. -/
def offsetLimit : Nat := 0x8000000000000000

/-- What stands at an offset of an archive and after it. -/
def dataAt (archive : Bytes) (offset : Int64) : Except ArchiveFailure Bytes :=
  if offset < 0 then .error .negativeOffset else .ok (archive.drop offset.toInt.toNat)

/-! ## Checksums -/

/-- Takes eight bits into a checksum: each shift that loses a one adds the polynomial. -/
def checksumBits : (count : Nat) → UInt32 → UInt32
  | 0, crc => crc
  | count + 1, crc =>
    checksumBits count (if crc &&& 1 = 1 then (crc >>> 1) ^^^ 0xEDB88320 else crc >>> 1)

/-- The cyclic checksum of a content. -/
def checksum (data : Bytes) : Nat :=
  (data.foldl (fun crc b => checksumBits 8 (crc ^^^ b.toUInt32)) 0xFFFFFFFF ^^^ 0xFFFFFFFF).toNat

/-! ## Marks and sizes of records -/

/-- The mark of the header before a member. -/
def memberMark : Nat := 0x04034B50

/-- The mark of a record of the directory. -/
def recordMark : Nat := 0x02014B50

/-- The mark of the closing record. -/
def closingMark : Nat := 0x06054B50

/-- The mark of the pointer to a closing record with longer numbers. -/
def pointerMark : Nat := 0x07064B50

/-- The mark of a closing record with longer numbers. -/
def longClosingMark : Nat := 0x06064B50

/-- The mark that may announce what is said about a member after its data. -/
def descriptorMark : Nat := 0x08074B50

/-- The length of a member's header without its texts. -/
def memberHeaderSize : Nat := 30

/-- The length of a directory record without its texts. -/
def recordSize : Nat := 46

/-- The length of the closing record without its comment. -/
def closingSize : Nat := 22

/-- The length of the pointer to a closing record with longer numbers. -/
def pointerSize : Nat := 20

/-- The length of a closing record with longer numbers. -/
def longClosingSize : Nat := 56

end Archive

end JvmLinkage
