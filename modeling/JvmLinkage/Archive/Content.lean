import JvmLinkage.Archive.Deflate
import JvmLinkage.Archive.Directory

/-!
# The contents of members

The data of a member stands behind a header of its own. It is read when the content is asked for, and
then the size and the checksum are held against those that the directory gives.
-/

namespace JvmLinkage

namespace Archive

/-- Where the sizes of the texts stand in the header of a member. -/
def headerSizesPlace : Nat := 26

/-- The size of the header at the start of data. -/
def headerSize (data : Bytes) : Except ArchiveFailure Nat :=
  let sizes : FieldReader Nat := do
    skip headerSizesPlace
    let path ← field 2
    let extra ← field 2
    return memberHeaderSize + path + extra
  if data.length < memberHeaderSize then .error .ended
  else if number (data.take 4) ≠ memberMark then .error .notArchive
  else .ok (sizes.run data).1

/-- The checksum in what is said about a member after its data. The mark before it may be missing. -/
def describedChecksum (data : Bytes) : Except ArchiveFailure Nat :=
  let start := if number (data.take 4) = descriptorMark then 4 else 0
  if data.length < start + 12 then .error .cutShort
  else .ok (number ((data.drop start).take 4))

end Archive

namespace ArchiveMember

/-- The method of members that are not compressed. -/
def storedMethod : Nat := 0

/-- The method of compressed members. -/
def deflatedMethod : Nat := 8

/-- Whether attributes mark a directory, which is said in another way by each system. -/
def marksDirectory (system attributes : Nat) : Bool :=
  match system with
  | 3 | 19 => (attributes >>> 16) &&& 0xF000 = 0x4000
  | 0 | 11 | 14 => attributes &&& 0x10 ≠ 0
  | _ => false

/-- Whether the member stands for a directory. -/
def isDirectory (m : ArchiveMember) : Bool :=
  m.path.endsWith "/" || marksDirectory (m.creator / 256) m.attributes

/-- Whether the checksum is said again after the data. -/
def isDescribedLater (m : ArchiveMember) : Bool := m.flags &&& 0x8 ≠ 0

/-- What comes out of the data of the member, and what came in the way. -/
def unpack (m : ArchiveMember) (data : Bytes) :
    Except ArchiveFailure (Bytes × Option ArchiveFailure) :=
  if m.method = storedMethod then .ok (data, none)
  else if m.method = deflatedMethod then .ok (Deflate.inflate data)
  else .error .unknownMethod

/-- Holds a checksum against the one of the directory, in which zero stands for none, unless it is
said again in the archive. -/
def verify (m : ArchiveMember) (archive : Bytes) (bodyEnd : Int64) (checksum : Nat) :
    Except ArchiveFailure Unit := do
  if m.isDescribedLater then
    let described ← Archive.describedChecksum (← Archive.dataAt archive bodyEnd)
    if described ≠ m.checksum || checksum ≠ m.checksum then throw .badChecksum
  else if m.checksum ≠ 0 && checksum ≠ m.checksum then throw .badChecksum

/-- The content of a member of an archive. -/
def content (m : ArchiveMember) (archive : Bytes) : Except ArchiveFailure Bytes := do
  let data ← Archive.dataAt archive m.offset
  let start ← Archive.headerSize data
  let (plain, failure) ← m.unpack ((data.drop start).take m.packedSize)
  if m.size < plain.length then throw .notArchive
  if let some failure := failure then throw failure
  if plain.length < m.size then throw .cutShort
  m.verify archive (m.offset + .ofNat start + .ofNat m.packedSize) (Archive.checksum plain)
  return plain

end ArchiveMember

end JvmLinkage
