import JvmLinkage.Archive.Packing
import Mathlib.Algebra.Group.Nat.Defs

/-!
# Reading packed archives

An archive that files were packed into is read back: its closing record stands at the end, the
directory describes the files in order, each at the offset of its header, and the content of each is
found there. Numbers must not reach those that say of themselves that they are too long.
-/

namespace JvmLinkage.Archive

/-! ## Numbers -/

@[simp] theorem length_littleEndian (width n : Nat) : (littleEndian width n).length = width := by
  induction width generalizing n with
  | zero => rfl
  | succ width ih => simp [littleEndian, ih]

theorem number_littleEndian (width n : Nat) : number (littleEndian width n) = n % 256 ^ width := by
  induction width generalizing n with
  | zero => simp [littleEndian, number, Nat.mod_one]
  | succ width ih =>
    rw [littleEndian, number, ih, Nat.pow_succ', Nat.mod_mul, UInt8.toNat_ofNat']

theorem number_littleEndian_of_lt {width n : Nat} (h : n < 256 ^ width) :
    number (littleEndian width n) = n := by
  rw [number_littleEndian, Nat.mod_eq_of_lt h]

/-! ## Fields -/

section Fields

variable {α : Type}

/-- A number is taken off the data that it was put before. -/
theorem run_field_bind {width n : Nat} (h : n < 256 ^ width) (rest : Bytes)
    (next : Nat → FieldReader α) :
    (field width >>= next).run (littleEndian width n ++ rest) = (next n).run rest := by
  have htake : (littleEndian width n ++ rest).take width = littleEndian width n :=
    List.take_left' (length_littleEndian width n)
  have hdrop : (littleEndian width n ++ rest).drop width = rest :=
    List.drop_left' (length_littleEndian width n)
  change (next (number ((littleEndian width n ++ rest).take width))).run
    ((littleEndian width n ++ rest).drop width) = _
  rw [htake, hdrop, number_littleEndian_of_lt h]

theorem run_skip_bind {width : Nat} {front : Bytes} (h : front.length = width) (rest : Bytes)
    (next : Unit → FieldReader α) :
    (skip width >>= next).run (front ++ rest) = (next ()).run rest := by
  change (next ()).run ((front ++ rest).drop width) = _
  rw [List.drop_left' h]

end Fields

theorem split_append {size : Nat} {front : Bytes} (h : front.length = size) (rest : Bytes) :
    split size (front ++ rest) = .ok (front, rest) := by
  rw [split, if_pos (by simp [h]), List.take_left' h, List.drop_left' h]

theorem checksum_lt (data : Bytes) : checksum data < 256 ^ 4 := UInt32.toNat_lt _

/-! ## Directory records -/

namespace PackedFile

/-- The member that the record of a file describes. -/
def listed (f : PackedFile) (offset : Nat) : ArchiveMember where
  path := f.path
  creator := 20
  flags := 0x800
  method := ArchiveMember.storedMethod
  checksum := checksum f.content
  packedSize := f.content.length
  size := f.content.length
  attributes := 0
  offset := .ofNat offset

theorem length_description (f : PackedFile) : f.description.length = 26 := by
  simp [description]

theorem length_member (f : PackedFile) :
    f.member.length = memberHeaderSize + f.path.length + f.content.length := by
  simp [member, length_description, memberHeaderSize]
  omega

/-- The lengths of the path and of the content can be written, so that none of them is too long. -/
structure Fits (f : PackedFile) : Prop where
  path_lt : f.path.length < 0x10000
  content_lt : f.content.length < tooLong

/-- The numbers of a record, without the path behind them. -/
def numbers (f : PackedFile) (offset : Nat) : Bytes :=
  littleEndian 4 recordMark ++ littleEndian 2 20 ++ f.description ++ littleEndian 6 0
    ++ littleEndian 4 0 ++ littleEndian 4 offset

theorem record_eq (f : PackedFile) (offset : Nat) : f.record offset = f.numbers offset ++ f.path :=
  rfl

theorem length_numbers (f : PackedFile) (offset : Nat) :
    (f.numbers offset).length = recordSize := by
  simp [numbers, length_description, recordSize]

/-- The numbers as they are read. -/
def head (f : PackedFile) (offset : Nat) : RecordHead where
  mark := recordMark
  creator := 20
  flags := 0x800
  method := ArchiveMember.storedMethod
  checksum := checksum f.content
  packedSize := f.content.length
  size := f.content.length
  pathSize := f.path.length
  extraSize := 0
  commentSize := 0
  attributes := 0
  offset := offset

variable {f : PackedFile} {offset : Nat}

theorem Fits.run_read (h : f.Fits) (hoffset : offset < tooLong) :
    (RecordHead.read.run (f.numbers offset)).1 = f.head offset := by
  obtain ⟨hpath, hcontent⟩ := h
  have hlong : tooLong < 256 ^ 4 := by decide
  have hzeros : littleEndian 6 0 = littleEndian 2 0 ++ littleEndian 4 0 := by decide
  rw [numbers, description, hzeros]
  simp only [List.append_assoc]
  unfold RecordHead.read
  rw [run_field_bind (by decide), run_field_bind (by decide),
    run_skip_bind (length_littleEndian ..), run_field_bind (by decide), run_field_bind (by decide),
    run_skip_bind (length_littleEndian ..), run_field_bind (checksum_lt _),
    run_field_bind (by omega), run_field_bind (by omega), run_field_bind hpath,
    run_field_bind (by decide), run_field_bind (by decide), run_skip_bind (length_littleEndian ..),
    run_field_bind (by decide), ← List.append_nil (littleEndian 4 offset),
    run_field_bind (by omega)]
  rfl

theorem Fits.member_head (h : f.Fits) (hoffset : offset < tooLong) :
    (f.head offset).member f.path = .ok (f.listed offset) := by
  have hsize : f.content.length ≠ tooLong := Nat.ne_of_lt h.content_lt
  have hplace : offset ≠ tooLong := Nat.ne_of_lt hoffset
  have hfill (e : Extents) : e.fill [] = .ok e := by
    rw [Extents.fill, if_pos (by decide)]
  simp [RecordHead.member, head, listed, Extent.ofNumber, hfill, hsize, hplace, bind, Except.bind,
    pure, Except.pure]

/-- A record is read from what it was written as, whatever follows it. -/
theorem Fits.record_append (h : f.Fits) (hoffset : offset < tooLong) (rest : Bytes) :
    Archive.record (f.record offset ++ rest) = .ok (f.listed offset, rest) := by
  have hnumbers := split_append (f.length_numbers offset) (f.path ++ rest)
  have hpath : split (f.head offset).textSize (f.path ++ rest) = .ok (f.path, rest) :=
    split_append rfl rest
  have hmark : (f.head offset).mark = recordMark := rfl
  simp only [record_eq, List.append_assoc, Archive.record, hnumbers, bind, Except.bind,
    h.run_read hoffset, hmark, if_true, hpath, h.member_head hoffset]
  rfl

end PackedFile

/-! ## The directory -/

/-- The members that a directory describes. -/
def listing : (offset : Nat) → List PackedFile → List ArchiveMember
  | _, [] => []
  | offset, f :: fs => f.listed offset :: listing (offset + f.member.length) fs

@[simp] theorem length_listing (offset : Nat) (fs : List PackedFile) :
    (listing offset fs).length = fs.length := by
  induction fs generalizing offset with
  | nil => rfl
  | cons f fs ih => simp [listing, ih]

theorem records_of_error {data : Bytes} {failure : ArchiveFailure}
    (h : record data = .error failure) : records data = ([], failure) := by
  rw [records]
  split
  · simp_all
  · simp_all

theorem records_of_ok {data rest : Bytes} {m : ArchiveMember} (h : record data = .ok (m, rest)) :
    records data = (m :: (records rest).1, (records rest).2) := by
  rw [records]
  split
  · simp_all
  · simp_all

/-- The records of a directory are read up to what is none. -/
theorem records_directory {fs : List PackedFile} (hfits : ∀ f ∈ fs, f.Fits) {offset : Nat}
    (hoffset : offset + (fs.flatMap PackedFile.member).length < tooLong) {rest : Bytes}
    {failure : ArchiveFailure} (hrest : record rest = .error failure) :
    records (directory offset fs ++ rest) = (listing offset fs, failure) := by
  induction fs generalizing offset with
  | nil => exact records_of_error hrest
  | cons f fs ih =>
    rw [List.flatMap_cons, List.length_append] at hoffset
    have hrecord : record (f.record offset ++ (directory (offset + f.member.length) fs ++ rest)) =
        .ok (f.listed offset, directory (offset + f.member.length) fs ++ rest) :=
      (hfits f (by simp)).record_append (by omega) _
    have hmore : records (directory (offset + f.member.length) fs ++ rest) =
        (listing (offset + f.member.length) fs, failure) :=
      ih (fun g hg => hfits g (by simp [hg])) (by omega)
    rw [directory, List.append_assoc, records_of_ok hrecord, hmore]
    rfl

/-! ## The closing record -/

section Closing

variable {count size start : Nat}

@[simp] theorem length_closingRecord (count size start : Nat) :
    (closingRecord count size start).length = closingSize := by
  simp [closingRecord, closingSize]

theorem isClosing_closingRecord (count size start : Nat) :
    isClosing (closingRecord count size start) = true := by
  have hmark : (closingRecord count size start).take 4 = littleEndian 4 closingMark := by
    simp only [closingRecord, List.append_assoc]
    exact List.take_left' (length_littleEndian ..)
  have hnumber : number (littleEndian 4 closingMark) = closingMark := by decide
  simp [isClosing, hmark, hnumber]

theorem record_closingRecord (count size start : Nat) :
    record (closingRecord count size start) = .error .cutShort := by
  have hsplit : split recordSize (closingRecord count size start) = .error .cutShort := by
    have hlength := length_closingRecord count size start
    rw [split, if_neg (by rw [hlength]; decide), if_neg]
    simp [← List.length_eq_zero_iff, hlength, closingSize]
  rw [record, hsplit]
  rfl

theorem lastClosing?_of_short {data : Bytes} (h : data.length < closingSize) (offset : Nat) :
    lastClosing? offset data = none := by
  induction data generalizing offset with
  | nil => rfl
  | cons b rest ih =>
    have hrest := ih (by rw [List.length_cons] at h; omega) (offset + 1)
    have hnone : isClosing (b :: rest) = false := by
      rw [isClosing, decide_eq_false (Nat.not_le.mpr h), Bool.and_false]
    simp [lastClosing?, hrest, hnone]

/-- A closing record without a comment is the last one that there is. -/
theorem lastClosing?_append {data : Bytes} (hlength : data.length = closingSize)
    (hclosing : isClosing data = true) (offset : Nat) (front : Bytes) :
    lastClosing? offset (front ++ data) = some (offset + front.length, data) := by
  induction front generalizing offset with
  | nil =>
    cases data with
    | nil => cases hlength
    | cons b rest =>
      have hshort : rest.length < closingSize := by
        rw [List.length_cons] at hlength
        omega
      have hrest := lastClosing?_of_short hshort (offset + 1)
      simp [lastClosing?, hrest, hclosing]
  | cons b front ih =>
    have hfront := ih (offset + 1)
    simp only [List.cons_append, lastClosing?, hfront, List.length_cons]
    congr 2
    omega

theorem run_read_closingRecord (offset : Nat) (hcount : count < 0x10000) (hsize : size < 256 ^ 4)
    (hstart : start < 256 ^ 4) :
    ((Closing.read offset).run (closingRecord count size start)).1 = ⟨offset, count, size, start⟩ := by
  have hparts : closingRecord count size start =
      (littleEndian 4 closingMark ++ littleEndian 4 0 ++ littleEndian 2 count) ++
        (littleEndian 2 count ++ (littleEndian 4 size ++ (littleEndian 4 start ++
          littleEndian 2 0))) := by
    simp [closingRecord]
  rw [hparts]
  unfold Closing.read
  rw [run_skip_bind (by simp), run_field_bind hcount, run_field_bind hsize, run_field_bind hstart]
  rfl

theorem closingWithin?_append {reach : Nat} (hreach : closingSize ≤ reach) (front : Bytes) :
    closingWithin? reach (front ++ closingRecord count size start) =
      some (front.length, closingRecord count size start) := by
  have hlength := length_closingRecord count size start
  have hcomment : number (((closingRecord count size start).drop commentSizePlace).take 2) = 0 := by
    have hparts : closingRecord count size start =
        (littleEndian 4 closingMark ++ littleEndian 4 0 ++ littleEndian 2 count ++
          littleEndian 2 count ++ littleEndian 4 size ++ littleEndian 4 start) ++
          littleEndian 2 0 := by
      simp [closingRecord]
    rw [hparts, List.drop_left' (by simp [commentSizePlace])]
    decide
  have hunread : (front ++ closingRecord count size start).length - reach ≤ front.length := by
    rw [List.length_append, hlength]
    omega
  unfold closingWithin?
  dsimp only
  rw [List.drop_append_of_le_length hunread,
    lastClosing?_append hlength (isClosing_closingRecord ..), List.length_drop,
    Nat.add_sub_cancel' hunread]
  simp only [bind, Option.bind, hcomment, hlength, Nat.add_zero, Nat.le_refl, if_true]

/-- The closing record at the end of an archive is found. -/
theorem closing_append (front : Bytes) (hcount : count < 0xFFFF) (hsize : size < 256 ^ 4)
    (hsize' : size ≠ 0xFFFF) (hstart : start < tooLong) :
    closing (front ++ closingRecord count size start) = .ok ⟨front.length, count, size, start⟩ := by
  have hlong : tooLong < 256 ^ 4 := by decide
  have hcount' : count < 0x10000 := by omega
  have hread := run_read_closingRecord front.length hcount' hsize (Nat.lt_trans hstart hlong)
  have hshort : (Closing.mk front.length count size start).mayBeLong = false := by
    simp [Closing.mayBeLong, hsize', Nat.ne_of_lt hcount, Nat.ne_of_lt hstart]
  have hfound : closingReaches.findSome? (fun reach =>
      closingWithin? reach (front ++ closingRecord count size start)) =
        some (front.length, closingRecord count size start) := by
    rw [closingReaches, List.findSome?_cons, closingWithin?_append (by decide)]
  unfold closing
  rw [hfound]
  dsimp only
  rw [hread, hshort]
  rfl

end Closing

/-! ## Contents -/

theorem tooLong_lt_offsetLimit : tooLong < offsetLimit := by decide

theorem dataAt_ofNat {offset : Nat} (h : offset < offsetLimit) (archive : Bytes) :
    dataAt archive (.ofNat offset) = .ok (archive.drop offset) := by
  have hint : (Int64.ofNat offset).toInt = offset := Int64.toInt_ofNat_of_lt h
  have hpositive : ¬ Int64.ofNat offset < 0 := by
    rw [Int64.lt_iff_toInt_lt, hint, Int64.toInt_zero]
    omega
  rw [dataAt, if_neg hpositive, hint, Int.toNat_natCast]

namespace PackedFile

variable {f : PackedFile} {offset : Nat}

theorem isDirectory_listed (f : PackedFile) (offset : Nat) :
    (f.listed offset).isDirectory = f.path.endsWith "/" := by
  have hplain : ArchiveMember.marksDirectory ((f.listed offset).creator / 256)
      (f.listed offset).attributes = false := by
    simp [listed, ArchiveMember.marksDirectory]
  rw [ArchiveMember.isDirectory, hplain, Bool.or_false]
  rfl

theorem Fits.headerSize_member (h : f.Fits) (rest : Bytes) :
    headerSize (f.member ++ rest) = .ok (memberHeaderSize + f.path.length) := by
  have hparts : f.member ++ rest =
      (littleEndian 4 memberMark ++ littleEndian 2 20 ++ littleEndian 2 0x800 ++
        littleEndian 2 ArchiveMember.storedMethod ++ littleEndian 4 0 ++
        littleEndian 4 (checksum f.content) ++ littleEndian 4 f.content.length ++
        littleEndian 4 f.content.length) ++
      (littleEndian 2 f.path.length ++ (littleEndian 2 0 ++ (f.path ++ (f.content ++ rest)))) := by
    simp [member, description]
  have hmark : (f.member ++ rest).take 4 = littleEndian 4 memberMark := by
    simp only [member, List.append_assoc]
    exact List.take_left' (length_littleEndian ..)
  have hlength : ¬ (f.member ++ rest).length < memberHeaderSize := by
    rw [List.length_append, length_member]
    omega
  unfold headerSize
  rw [if_neg hlength, hmark, number_littleEndian_of_lt (by decide), if_neg (by simp), hparts,
    run_skip_bind (by simp [headerSizesPlace]), run_field_bind h.path_lt,
    run_field_bind (by decide)]
  rfl

/-- The content of a member is what was packed, wherever the member stands. -/
theorem Fits.content_listed (h : f.Fits) (hoffset : offset < offsetLimit) {archive rest : Bytes}
    (hplace : archive.drop offset = f.member ++ rest) :
    (f.listed offset).content archive = .ok f.content := by
  have hdata : ((f.member ++ rest).drop (memberHeaderSize + f.path.length)).take f.content.length =
      f.content := by
    have hparts : f.member ++ rest =
        (littleEndian 4 memberMark ++ f.description ++ f.path) ++ (f.content ++ rest) := by
      simp [member]
    rw [hparts, List.drop_left' (by simp [length_description, memberHeaderSize]; omega),
      List.take_left' rfl]
  have hverify (bodyEnd : Int64) :
      (f.listed offset).verify archive bodyEnd (checksum f.content) = .ok () := by
    simp [ArchiveMember.verify, ArchiveMember.isDescribedLater, listed, pure, Except.pure]
  have hunpack : (f.listed offset).unpack f.content = .ok (f.content, none) := rfl
  unfold ArchiveMember.content
  simp only [listed] at hverify hunpack ⊢
  simp only [dataAt_ofNat hoffset, hplace, h.headerSize_member, hdata, hunpack, hverify, bind,
    Except.bind, Nat.lt_irrefl, if_false]
  rfl

end PackedFile

theorem contents_listing {fs : List PackedFile} (hfits : ∀ f ∈ fs, f.Fits) (front rest : Bytes)
    (hoffset : front.length + (fs.flatMap PackedFile.member).length < offsetLimit) :
    (listing front.length fs).map (fun a =>
        (a.path, a.content (front ++ (fs.flatMap PackedFile.member ++ rest)))) =
      fs.map fun f => (f.path, .ok f.content) := by
  induction fs generalizing front with
  | nil => rfl
  | cons f fs ih =>
    rw [List.flatMap_cons, List.length_append] at hoffset
    have hmore := ih (fun g hg => hfits g (by simp [hg])) (front ++ f.member)
      (by rw [List.length_append]; omega)
    have hcontent : (f.listed front.length).content
        (front ++ (f.member ++ (fs.flatMap PackedFile.member ++ rest))) = .ok f.content :=
      (hfits f (by simp)).content_listed (by omega) (List.drop_left' rfl)
    simp only [List.append_assoc, List.length_append] at hmore
    simp only [listing, List.map_cons, List.flatMap_cons, List.append_assoc, hmore, hcontent]
    rfl

theorem mem_listing {fs : List PackedFile} {offset : Nat} {m : ArchiveMember}
    (h : m ∈ listing offset fs) : ∃ f ∈ fs, ∃ place, m = f.listed place := by
  induction fs generalizing offset with
  | nil => cases h
  | cons f fs ih =>
    rcases List.mem_cons.mp h with rfl | h
    · exact ⟨f, by simp, offset, rfl⟩
    · obtain ⟨g, hg, hplace⟩ := ih h
      exact ⟨g, by simp [hg], hplace⟩

/-! ## Whole archives -/

/-- What the closing record says of an archive that files were packed into. -/
def packedClosing (files : List PackedFile) : Closing where
  offset := (files.flatMap PackedFile.member ++ directory 0 files).length
  count := files.length
  size := (directory 0 files).length
  start := (files.flatMap PackedFile.member).length

theorem length_pack (files : List PackedFile) :
    (pack files).length = (packedClosing files).start + (packedClosing files).size + closingSize := by
  simp only [pack, packedClosing, List.length_append, length_closingRecord]

/-- Files that can be packed with short numbers: none of the numbers of their archive is taken for one
that is kept elsewhere. -/
structure Packable (files : List PackedFile) : Prop where
  paths_lt : ∀ f ∈ files, f.path.length < 0x10000
  count_lt : files.length < 0xFFFF
  members_lt : (files.flatMap PackedFile.member).length < tooLong
  directory_lt : (directory 0 files).length < 256 ^ 4
  directory_ne : (directory 0 files).length ≠ 0xFFFF

namespace Packable

variable {files : List PackedFile}

theorem fits (h : Packable files) : ∀ f ∈ files, f.Fits := by
  intro f hf
  refine ⟨h.paths_lt f hf, ?_⟩
  have hmembers := h.members_lt
  obtain ⟨front, back, rfl⟩ := List.append_of_mem hf
  rw [List.flatMap_append, List.flatMap_cons, List.length_append, List.length_append,
    PackedFile.length_member] at hmembers
  omega

theorem closing_pack (h : Packable files) : closing (pack files) = .ok (packedClosing files) :=
  closing_append _ h.count_lt h.directory_lt h.directory_ne h.members_lt

/-- Members and directory stand where offsets put them. -/
theorem shift_pack (h : Packable files) : shift (pack files) (packedClosing files) = .ok 0 := by
  have hlong : tooLong = 0xFFFFFFFF := rfl
  have hlimit : offsetLimit = 0x8000000000000000 := rfl
  have hclosing : closingSize = 22 := rfl
  have hlength := length_pack files
  have hstart : (packedClosing files).start < tooLong := h.members_lt
  have hsize : (packedClosing files).size < 256 ^ 4 := h.directory_lt
  have hoffset : (packedClosing files).offset =
      (packedClosing files).start + (packedClosing files).size := List.length_append
  have hshift : Int64.ofNat (packedClosing files).offset - Int64.ofNat (packedClosing files).size -
      Int64.ofNat (packedClosing files).start = 0 := by
    rw [hoffset, Int64.ofNat_add, Int64.add_sub_cancel, Int64.sub_self]
  unfold shift
  rw [if_neg, if_neg, hshift]
  · rfl
  · simp only [Bool.or_eq_true, decide_eq_true_eq]
    omega
  · simp only [Bool.or_eq_true, decide_eq_true_eq]
    omega

/-- The members of an archive that files were packed into are those that its directory lists. -/
theorem members_pack (h : Packable files) : members (pack files) = .ok (listing 0 files) := by
  have hlong : tooLong = 0xFFFFFFFF := rfl
  have hstart : (packedClosing files).start < tooLong := h.members_lt
  have hcount : (packedClosing files).count = files.length := rfl
  have hdata : (pack files).drop (packedClosing files).start = directory 0 files ++
      closingRecord files.length (directory 0 files).length
        (files.flatMap PackedFile.member).length := by
    rw [pack, List.append_assoc]
    exact List.drop_left' rfl
  have hstart' : (packedClosing files).start < offsetLimit :=
    Nat.lt_trans hstart tooLong_lt_offsetLimit
  have hdataAt := dataAt_ofNat hstart' (pack files)
  have hmembers : 0 + (files.flatMap PackedFile.member).length < tooLong := by
    rw [Nat.zero_add]
    exact h.members_lt
  have hrecords := records_directory h.fits hmembers
    (record_closingRecord files.length (directory 0 files).length
      (files.flatMap PackedFile.member).length)
  simp only [members, h.closing_pack, h.shift_pack, bind, Except.bind, Int64.zero_add, hdataAt,
    hdata, hrecords, hcount, length_listing]
  rw [if_neg (by simp), if_neg (by simp)]
  simp only [Int64.add_zero]
  exact congrArg Except.ok (List.map_id _)

/-- Each member that is listed has the path and the content of its file. -/
theorem contents_pack (h : Packable files) :
    (listing 0 files).map (fun a => (a.path, a.content (pack files))) =
      files.map fun f => (f.path, .ok f.content) := by
  have hoffset : 0 + (files.flatMap PackedFile.member).length < offsetLimit := by
    rw [Nat.zero_add]
    exact Nat.lt_trans h.members_lt tooLong_lt_offsetLimit
  have hcontents := contents_listing h.fits [] (directory 0 files ++
    closingRecord files.length (directory 0 files).length
      (files.flatMap PackedFile.member).length) hoffset
  rwa [List.nil_append, ← List.append_assoc] at hcontents

end Packable

end JvmLinkage.Archive
