import JvmLinkage.Archive.Basic

/-!
# The directory of an archive

Reading an archive starts from its closing record, which is found from the end, so that what stands
before the first member does not matter. The closing record counts the records of the directory and
tells where they stand. Numbers that are too long for it, or for the record of a member, are kept
elsewhere.
-/

namespace JvmLinkage.Archive

/-! ## Records -/

/-- The numbers of a directory record, and the sizes of the texts behind them. -/
structure RecordHead where
  mark : Nat
  creator : Nat
  flags : Nat
  method : Nat
  checksum : Nat
  packedSize : Nat
  size : Nat
  pathSize : Nat
  extraSize : Nat
  commentSize : Nat
  attributes : Nat
  offset : Nat

/-- Reads the numbers of a directory record. -/
def RecordHead.read : FieldReader RecordHead := do
  let mark ← field 4
  let creator ← field 2
  skip 2
  let flags ← field 2
  let method ← field 2
  skip 4
  let checksum ← field 4
  let packedSize ← field 4
  let size ← field 4
  let pathSize ← field 2
  let extraSize ← field 2
  let commentSize ← field 2
  skip 4
  let attributes ← field 4
  let offset ← field 4
  return ⟨mark, creator, flags, method, checksum, packedSize, size, pathSize, extraSize, commentSize,
    attributes, offset⟩

/-- The number that says of itself that it is too long for its four octets. -/
def tooLong : Nat := 0xFFFFFFFF

/-- A number of a record, and whether a longer one is still to be found in its place. -/
structure Extent where
  number : Nat
  missing : Bool
  deriving DecidableEq, Repr

/-- The number as it stands in four octets. -/
def Extent.ofNumber (n : Nat) : Extent := ⟨n, n = tooLong⟩

/-- Takes the longer number off a field, if it is missing. -/
def Extent.fill (e : Extent) (field : Bytes) : Except ArchiveFailure (Extent × Bytes) :=
  if !e.missing then .ok (e, field)
  else if field.length < 8 then .error .notArchive
  else .ok (⟨Archive.number (field.take 8), false⟩, field.drop 8)

/-- The numbers of a record that may be too long for it. -/
structure Extents where
  size : Extent
  packedSize : Extent
  offset : Extent
  deriving DecidableEq, Repr

/-- The kind of the field that holds longer numbers. -/
def longFieldKind : Nat := 1

/-- Takes the missing numbers off the fields that hold longer ones. Other fields are passed over, and
so is what is no field. -/
def Extents.fill (e : Extents) (fields : Bytes) : Except ArchiveFailure Extents :=
  if fields.length < 4 then .ok e
  else
    let size := number ((fields.drop 2).take 2)
    let rest := fields.drop 4
    if rest.length < size then .ok e
    else if number (fields.take 2) = longFieldKind then do
      let (size', content) ← e.size.fill (rest.take size)
      let (packedSize, content) ← e.packedSize.fill content
      let (offset, _) ← e.offset.fill content
      fill ⟨size', packedSize, offset⟩ (rest.drop size)
    else fill e (rest.drop size)
termination_by fields.length
decreasing_by all_goals grind

/-- The size of the texts behind the numbers. -/
def RecordHead.textSize (head : RecordHead) : Nat :=
  head.pathSize + head.extraSize + head.commentSize

/-- The member with the numbers and the texts of a record. -/
def RecordHead.member (head : RecordHead) (texts : Bytes) : Except ArchiveFailure ArchiveMember := do
  let extents : Extents :=
    ⟨.ofNumber head.size, .ofNumber head.packedSize, .ofNumber head.offset⟩
  let extents ← extents.fill ((texts.drop head.pathSize).take head.extraSize)
  -- A size of all ones may be meant, but then neither of the other numbers is.
  if extents.packedSize.missing || extents.offset.missing then throw .notArchive
  else return {
    path := texts.take head.pathSize
    creator := head.creator
    flags := head.flags
    method := head.method
    checksum := head.checksum
    packedSize := extents.packedSize.number
    size := extents.size.number
    attributes := head.attributes
    offset := .ofNat extents.offset.number }

/-- The member that the record at the start of data describes, and the data behind the record. -/
def record (data : Bytes) : Except ArchiveFailure (ArchiveMember × Bytes) := do
  let (fixed, data) ← split recordSize data
  let head := (RecordHead.read.run fixed).1
  if head.mark = recordMark then
    let (texts, data) ← split head.textSize data
    return (← head.member texts, data)
  else throw .notArchive

theorem length_of_split {size : Nat} {data front rest : Bytes}
    (h : split size data = .ok (front, rest)) : rest.length + size = data.length := by
  unfold split at h
  split at h
  · obtain ⟨-, rfl⟩ := Prod.mk.inj (Except.ok.inj h)
    rw [List.length_drop]
    omega
  · split at h <;> cases h

theorem length_lt_of_record {data rest : Bytes} {m : ArchiveMember}
    (h : record data = .ok (m, rest)) : rest.length < data.length := by
  simp only [record, bind, Except.bind] at h
  cases hfixed : split recordSize data with
  | error failure => simp [hfixed] at h
  | ok parts =>
    have hlength := length_of_split hfixed
    simp only [hfixed] at h
    split at h
    · cases htexts : split (RecordHead.read.run parts.1).1.textSize parts.2 with
      | error failure => simp [htexts] at h
      | ok texts =>
        have hlength' := length_of_split htexts
        simp only [htexts] at h
        split at h
        · cases h
        · obtain ⟨-, rfl⟩ := Prod.mk.inj (Except.ok.inj h)
          have hsize : recordSize = 46 := rfl
          omega
    · cases h

/-- The members that the records at the start of data describe, and why what follows is none. -/
def records (data : Bytes) : List ArchiveMember × ArchiveFailure :=
  match h : record data with
  | .error failure => ([], failure)
  | .ok (m, rest) =>
    have := length_lt_of_record h
    let (members, failure) := records rest
    (m :: members, failure)
termination_by data.length

/-! ## The closing record -/

/-- What the closing record says: how many records the directory has, their size, and where they
start. The record itself stands at an offset. -/
structure Closing where
  offset : Nat
  count : Nat
  size : Nat
  start : Nat
  deriving DecidableEq, Repr

/-- Whether a closing record starts the data, its comment apart. -/
def isClosing (data : Bytes) : Bool :=
  number (data.take 4) = closingMark && closingSize ≤ data.length

/-- The last closing record of data that starts at an offset, with the offset of the record. -/
def lastClosing? : (offset : Nat) → Bytes → Option (Nat × Bytes)
  | _, [] => none
  | offset, b :: rest =>
    match lastClosing? (offset + 1) rest with
    | some found => some found
    | none => if isClosing (b :: rest) then some (offset, b :: rest) else none

/-- Where the size of the comment stands in a closing record. -/
def commentSizePlace : Nat := 20

/-- The last closing record among the octets at the end, unless its comment is cut short. -/
def closingWithin? (reach : Nat) (archive : Bytes) : Option (Nat × Bytes) := do
  let unread := archive.length - reach
  let (offset, data) ← lastClosing? unread (archive.drop unread)
  let comment := number ((data.drop commentSizePlace).take 2)
  if closingSize + comment ≤ data.length then some (offset, data) else none

/-- The number of octets at the end of an archive among which a closing record is looked for first,
and the number if there is none. -/
def closingReaches : List Nat := [1024, 65 * 1024]

/-- Reads the numbers of the closing record at an offset. -/
def Closing.read (offset : Nat) : FieldReader Closing := do
  skip 10
  let count ← field 2
  let size ← field 4
  let start ← field 4
  return ⟨offset, count, size, start⟩

/-- Where the closing record with longer numbers stands, if a pointer to it precedes the closing
record. -/
def pointer? (archive : Bytes) (c : Closing) : Option Nat :=
  if c.offset < pointerSize then none
  else
    let read : FieldReader (Option Nat) := do
      let mark ← field 4
      let disk ← field 4
      let place ← field 8
      let disks ← field 4
      return if mark = pointerMark && disk = 0 && disks = 1 && place < offsetLimit then some place
        else none
    (read.run (archive.drop (c.offset - pointerSize))).1

/-- Reads a closing record with longer numbers. -/
def longClosing (archive : Bytes) (offset : Nat) : Except ArchiveFailure Closing :=
  let read : FieldReader (Except ArchiveFailure Closing) := do
    let mark ← field 4
    skip 28
    let count ← field 8
    let size ← field 8
    let start ← field 8
    return if mark = longClosingMark then .ok ⟨offset, count, size, start⟩
      else .error .notArchive
  let data := archive.drop offset
  if data.length < longClosingSize then .error .ended else (read.run data).1

/-- Whether the numbers may be too long for the closing record. The one for the size is that of two
octets. -/
def Closing.mayBeLong (c : Closing) : Bool :=
  c.count = 0xFFFF || c.size = 0xFFFF || c.start = tooLong

/-- The closing record of an archive. -/
def closing (archive : Bytes) : Except ArchiveFailure Closing :=
  match closingReaches.findSome? fun reach => closingWithin? reach archive with
  | none => .error .notArchive
  | some (offset, data) =>
    let c := ((Closing.read offset).run data).1
    match if c.mayBeLong then pointer? archive c else none with
    | some place => longClosing archive place
    | none => .ok c

/-! ## Members -/

/-- How far the members and the directory stand from where offsets put them, if the directory ends
where the closing record starts. -/
def shift (archive : Bytes) (c : Closing) : Except ArchiveFailure Int64 :=
  if offsetLimit ≤ c.size || offsetLimit ≤ c.start then .error .notArchive
  else if c.offset < c.size || archive.length ≤ c.offset - c.size then .error .notArchive
  else
    let shift := Int64.ofNat c.offset - Int64.ofNat c.size - Int64.ofNat c.start
    -- A directory that stands where its offset puts it is taken from there.
    if 0 < shift && (record (archive.drop c.start)).isOk then .ok 0 else .ok shift

/-- The members of an archive in the order of its directory. Their number is known up to sixteen
bits. -/
def members (archive : Bytes) : Except ArchiveFailure (List ArchiveMember) := do
  let c ← closing archive
  let shift ← shift archive c
  let data ← dataAt archive (shift + .ofNat c.start)
  let (found, failure) := records data
  if failure = .ended then throw .ended
  else if found.length % 65536 ≠ c.count % 65536 then throw failure
  else return found.map fun m => { m with offset := m.offset + shift }

end JvmLinkage.Archive
