import JvmLinkage.Proofs.ClassFile.Parts
import JvmLinkage.Proofs.ClassFile.Pool

/-!
# Reading back class files

Each part of a class file is read back from its octets, with the names that its indices lead to.
From the innermost parts outwards this gives the whole class file.
-/

namespace JvmLinkage

open Reader

variable {p : PoolLayout}

theorem CountedList.octets_eq {α : Type} (octetsOf : α → Bytes) (l : CountedList α) :
    l.octets octetsOf = u2Bytes l.items.length.toUInt16 ++ l.items.flatMap octetsOf := by
  rw [octets, Assembler.counted, List.length_map]
  rfl

theorem PoolLayout.optionalClass {index : UInt16} (h : index ≠ 0 → p.HasClass index) :
    p.pool.OptionalClass index (p.className index) := by
  unfold ConstantPool.OptionalClass
  split
  case isTrue hzero => rw [className, if_pos hzero]
  case isFalse hzero => exact className_pool (h hzero)

/-! ## Attributes and method bodies -/

theorem AttributeLayout.reads_skip (l : CountedList AttributeLayout) :
    Reads skipAttributes (l.octets octets) () := by
  have hitem : ∀ a ∈ l.items, ∀ _ : Nat, Reads
      (do skip 2; let length ← u4; skip length.toNat) (octets a) () := by
    intro a _ _
    rw [octets, List.append_assoc]
    have hlength : a.content.length.toUInt32.toNat = a.content.length :=
      UInt32.toNat_ofNat_of_lt' a.fits
    refine (Reads.skip (by simp [u2Bytes])).bind ((Reads.u4 _).bind (Reads.skip ?_))
    rw [hlength]
  rw [CountedList.octets_eq]
  exact (Reads.u2 _).bind ((Reads.items l.fits hitem).last .pure)

theorem LineEntry.reads_table (l : CountedList LineEntry) :
    Reads readTable (l.octets octets) l.items := by
  rw [CountedList.octets_eq]
  exact reads_entries l.fits

theorem HandlerLayout.reads_octets {h : HandlerLayout} (hresolves : h.Resolves p) :
    Reads (ExceptionHandler.read p.pool) h.octets (h.value p) :=
  ExceptionHandler.reads (PoolLayout.optionalClass hresolves)

theorem CodeAttributeLayout.reads_octets {a : CodeAttributeLayout} (h : a.Resolves p)
    (index : Nat) : Reads (Code.readLines p.pool index) a.plain.octets a.entries := by
  cases a with
  | lines name entries =>
    exact Code.reads_lines (PoolLayout.utf8_pool_of_text? h) (LineEntry.length_table_lt entries)
      (LineEntry.reads_table entries) index
  | other a =>
    obtain ⟨name, hname⟩ := Option.isSome_iff_exists.mp h.1
    have hother : name ≠ Code.linesName := by
      rintro rfl
      exact h.2 hname
    exact Code.reads_other (PoolLayout.utf8_pool_of_text? hname) hother a.fits index

theorem CodeLayout.reads_octets {c : CodeLayout} (h : c.Resolves p) :
    Reads (Code.read p.pool) c.octets (c.value p) := by
  have hhandlers := Reads.items c.handlers.fits fun handler hhandler index =>
    (HandlerLayout.reads_octets (h.1 handler hhandler)).within (.item "exception handler" index)
  have hattributes := Reads.items c.attributes.fits fun a ha index =>
    CodeAttributeLayout.reads_octets (h.2 a ha) index
  rw [octets, CountedList.octets_eq, CountedList.octets_eq]
  exact Code.reads c.maxStack c.maxLocals c.fits hhandlers hattributes

/-! ## Fields and methods -/

theorem MemberAttributeLayout.reads_octets {a : MemberAttributeLayout} {isMethod : Bool}
    (h : a.Resolves p isMethod) (name descriptor : Text) (index : Nat) :
    Reads (Member.readCode p.pool isMethod name descriptor index) a.plain.octets
      (a.code? p isMethod) := by
  cases a with
  | body kind code fits =>
    cases isMethod with
    | false =>
      obtain ⟨found, hfound⟩ := Option.isSome_iff_exists.mp h
      exact Member.reads_other (PoolLayout.utf8_pool_of_text? hfound) (by simp) fits index
    | true =>
      obtain ⟨hkind, hcode⟩ := h
      exact Member.reads_body (PoolLayout.utf8_pool_of_text? hkind) fits
        (CodeLayout.reads_octets hcode) index
  | other a =>
    obtain ⟨kind, hkind⟩ := Option.isSome_iff_exists.mp h.1
    have hother : isMethod → kind ≠ Code.attributeName := by
      rintro hmethod rfl
      exact h.2 hmethod hkind
    exact Member.reads_other (PoolLayout.utf8_pool_of_text? hkind) hother a.fits index

theorem MemberLayout.reads_octets {m : MemberLayout} {isMethod : Bool}
    (h : m.Resolves p isMethod) :
    Reads (Member.read p.pool isMethod) m.octets (m.value p isMethod) := by
  obtain ⟨hname, hdescriptor, hall⟩ := h
  have hattributes := Reads.items m.attributes.fits fun a ha index =>
    MemberAttributeLayout.reads_octets (hall a ha) (p.text m.name) (p.text m.descriptor) index
  have hmember := Member.reads m.access (PoolLayout.utf8_pool hname)
    (PoolLayout.utf8_pool hdescriptor) hattributes
  rw [List.filterMap_map] at hmember
  rw [octets, CountedList.octets_eq]
  exact hmember

theorem MemberLayout.reads_members {l : CountedList MemberLayout} {isMethod : Bool}
    (h : ∀ m ∈ l.items, m.Resolves p isMethod) (thisClass what : Text) :
    Reads (ClassFile.readMembers p.pool isMethod thisClass what) (l.octets octets)
      (l.items.map (value p isMethod)) := by
  refine Member.reads_members (by simpa using l.fits) ?_ thisClass what
  rw [List.forall₂_map_left_iff, List.forall₂_map_right_iff, List.forall₂_same]
  exact fun m hm => reads_octets (h m hm)

/-! ## Whole class files -/

namespace ClassLayout

variable {f : ClassLayout}

theorem reads_octets (h : f.Resolves) : Reads ClassFile.read f.octets f.classFile := by
  have hnames : List.Forall₂ (fun i name => f.pool.pool.className i = .ok name) f.interfaces.items
      (f.interfaces.items.map f.pool.className) := by
    rw [List.forall₂_map_right_iff, List.forall₂_same]
    exact fun i hi => PoolLayout.className_pool (h.interfaces i hi)
  have hinterfaces := ClassFile.reads_interfaces f.interfaces.fits hnames
  have hfields := MemberLayout.reads_members h.fields (f.pool.className f.thisClass) "fields"
  have hmethods := MemberLayout.reads_members h.methods (f.pool.className f.thisClass) "methods"
  have hfile := ClassFile.reads f.classFile f.pool.reads_octets
    (PoolLayout.className_pool h.thisClass) (PoolLayout.optionalClass h.superClass) hinterfaces
    hfields hmethods (AttributeLayout.reads_skip f.attributes)
  simpa only [octets, classFile, ClassFile.magic, CountedList.octets_eq u2Bytes,
    List.append_assoc] using hfile

theorem code_eq_none_of_mem_fields {m : Member} (h : m ∈ f.classFile.fields) : m.code = none := by
  obtain ⟨l, -, rfl⟩ := List.mem_map.mp h
  have hnone : ∀ a ∈ l.attributes.items, a.code? f.pool false = none := by
    intro a _
    cases a <;> rfl
  rw [MemberLayout.value, List.filterMap_eq_nil_iff.mpr hnone, List.getLast?_nil]

/-- A class file whose indices lead where they should is read back from its octets, whatever follows
them: versions, flags, names, interfaces, fields without code, and methods with the last of their
bodies. Each index of its pool gives the constant written there; the second index of a wide constant
is unusable, and all others are out of range. -/
theorem parse_octets (h : f.Resolves) (rest : Bytes) :
    ClassFile.parse (f.octets ++ rest) = .ok f.classFile ∧
      (∀ m ∈ f.classFile.fields, m.code = none) ∧
      ∀ index, f.classFile.pool.get index =
        match f.pool.constant? index with
        | some c => .ok c
        | none =>
          if 0 < index ∧ index < f.pool.count then .error (.ofCause (.unusableSlot index))
          else .error (.ofCause (.indexOutOfRange index f.pool.count.toNat)) := by
  refine ⟨?_, fun m hm => code_eq_none_of_mem_fields hm, f.pool.get_pool⟩
  rw [ClassFile.parse, StateT.run, Cursor.start, reads_octets h rest 0]
  rfl

/-- A class with a text outside the basic alphabet, two bodies for one method, lines in two tables,
a field with an attribute named like a body, and a wide constant that ends at the last index. -/
def sample : ClassLayout where
  minor := 3
  major := 52
  pool := {
    count := 11
    constants := [
      .text [0x41, 0x00E9, 0xD83D, 0xDE00] (by decide),
      .numeric (.classRef 1) (by decide),
      .text [0x43, 0x6F, 0x64, 0x65] (by decide),
      .numeric (.long 7) (by decide),
      .text [0x4C, 0x69, 0x6E, 0x65, 0x4E, 0x75, 0x6D, 0x62, 0x65, 0x72, 0x54, 0x61, 0x62, 0x6C,
        0x65] (by decide),
      .text [0x6D] (by decide),
      .text [0x28, 0x29, 0x56] (by decide),
      .numeric (.methodHandle 6 2) (by decide),
      .numeric (.double 1) (by decide)]
    fills := by decide }
  access := 0x0021
  thisClass := 2
  superClass := 0
  interfaces := ⟨[2], by decide⟩
  fields := ⟨[⟨1, 7, 8, ⟨[.other ⟨3, [1, 2], by decide⟩], by decide⟩⟩], by decide⟩
  methods := ⟨[⟨9, 7, 8, ⟨[
    .body 3 {
      maxStack := 1
      maxLocals := 1
      code := [0xB1]
      handlers := ⟨[], by decide⟩
      attributes := ⟨[], by decide⟩ } (by decide),
    .other ⟨7, [9], by decide⟩,
    .body 3 {
      maxStack := 2
      maxLocals := 1
      code := [0x57, 0xB1]
      handlers := ⟨[⟨0, 1, 1, 2⟩, ⟨0, 2, 1, 0⟩], by decide⟩
      attributes := ⟨[.lines 6 ⟨[⟨0, 10⟩], by decide⟩, .other ⟨8, [5], by decide⟩,
        .lines 6 ⟨[⟨1, 11⟩, ⟨0, 12⟩], by decide⟩], by decide⟩ } (by decide)],
    by decide⟩⟩], by decide⟩
  attributes := ⟨[⟨99, [4, 4, 4], by decide⟩], by decide⟩

theorem sample_resolves : sample.Resolves where
  thisClass := by decide
  superClass := by decide
  interfaces := by
    intro i hi
    rw [List.mem_singleton.mp hi]
    decide
  fields := by decide
  methods := by decide

theorem sample_parse_octets :
    sample.Resolves ∧
      ClassFile.parse (sample.octets ++ [0]) = .ok sample.classFile ∧
      sample.classFile.thisClass = Text.ofString "Aé😀" ∧
      sample.classFile.pool.get 5 = .error (.ofCause (.unusableSlot 5)) ∧
      sample.classFile.pool.get 10 = .ok (.double 1) ∧
      sample.classFile.pool.get 11 = .error (.ofCause (.indexOutOfRange 11 11)) := by
  obtain ⟨hparse, -, hget⟩ := parse_octets sample_resolves [0]
  exact ⟨sample_resolves, hparse, by decide, hget 5, hget 10, hget 11⟩

end ClassLayout

end JvmLinkage
