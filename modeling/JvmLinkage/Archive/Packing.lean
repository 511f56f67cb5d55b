import JvmLinkage.Archive.Content

/-!
# Packing archives

Files are packed into an archive as they are: every member is stored without compression, and its
record tells all there is to say about it.
-/

namespace JvmLinkage.Archive

/-- A file to be packed. -/
structure PackedFile where
  path : Text
  content : Bytes
  deriving DecidableEq, Repr

namespace PackedFile

/-- What the header of a member and its directory record share. -/
def description (f : PackedFile) : Bytes :=
  littleEndian 2 20 ++ littleEndian 2 0x800 ++ littleEndian 2 ArchiveMember.storedMethod
    ++ littleEndian 4 0 ++ littleEndian 4 (checksum f.content) ++ littleEndian 4 f.content.length
    ++ littleEndian 4 f.content.length ++ littleEndian 2 f.path.length ++ littleEndian 2 0

/-- The content behind its header. -/
def member (f : PackedFile) : Bytes :=
  littleEndian 4 memberMark ++ f.description ++ f.path ++ f.content

/-- The directory record of a member whose header stands at an offset. -/
def record (f : PackedFile) (offset : Nat) : Bytes :=
  littleEndian 4 recordMark ++ littleEndian 2 20 ++ f.description ++ littleEndian 6 0
    ++ littleEndian 4 0 ++ littleEndian 4 offset ++ f.path

end PackedFile

/-- The directory of members of which the first stands at an offset. -/
def directory : (offset : Nat) → List PackedFile → Bytes
  | _, [] => []
  | offset, f :: fs => f.record offset ++ directory (offset + f.member.length) fs

/-- The closing record of `count` members before a directory. -/
def closingRecord (count size start : Nat) : Bytes :=
  littleEndian 4 closingMark ++ littleEndian 4 0 ++ littleEndian 2 count ++ littleEndian 2 count
    ++ littleEndian 4 size ++ littleEndian 4 start ++ littleEndian 2 0

/-- The archive of files in order. -/
def pack (files : List PackedFile) : Bytes :=
  let members := files.flatMap PackedFile.member
  let records := directory 0 files
  members ++ records ++ closingRecord files.length records.length members.length

end JvmLinkage.Archive
