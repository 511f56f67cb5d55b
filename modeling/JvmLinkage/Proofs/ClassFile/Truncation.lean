import JvmLinkage.Declared.Decoder
import JvmLinkage.Proofs.ClassFile.Reads

/-!
# Class files cut short

Every success of a reader is owed to octets at the front of its input: the same value is read from
them whatever follows, and if they are cut short anywhere, reading fails because input is missing.
No step looks anything up before all of its octets are there, so this holds of each reader, from
numbers up to whole class files. What a failure tells about class and member is what the whole file
says about them.
-/

namespace JvmLinkage

/-- Whether a fault is that input ended too early. -/
def Fault.IsTruncation (f : Fault) : Prop := f.cause.isTruncation = true

namespace Reader

variable {ε δ α β : Type}

/-! ## What a reader takes, and what happens without it -/

/-- The reader takes the octets, whatever follows them, and gives the value. If some are missing at
their end, it fails as told. -/
structure Takes (read : Reader ε α) (octets : Bytes) (value : α) (fails : ε → Prop) : Prop where
  reads : Reads read octets value
  stops {front back : Bytes} : octets = front ++ back → back ≠ [] →
    ∀ offset, ∃ e, read ⟨front, offset⟩ = .error e ∧ fails e

namespace Takes

variable {read : Reader ε α} {next : α → Reader ε β} {octets more : Bytes} {value : α} {result : β}
  {fails : ε → Prop}

theorem of_reads_nil (h : Reads read [] value) : Takes read [] value fails where
  reads := h
  stops hcut hback := absurd (List.append_eq_nil_iff.mp hcut.symm).2 hback

protected theorem bind (h : Takes read octets value fails)
    (hnext : Takes (next value) more result fails) :
    Takes (read >>= next) (octets ++ more) result fails where
  reads := h.reads.bind hnext.reads
  stops := by
    intro front back hcut hback offset
    have hsecond (rest : Bytes) (hrest : more = rest ++ back) :
        ∃ e, (read >>= next) ⟨octets ++ rest, offset⟩ = .error e ∧ fails e := by
      obtain ⟨e, he, hfails⟩ := hnext.stops hrest hback (offset + octets.length)
      refine ⟨e, ?_, hfails⟩
      change (read ⟨octets ++ rest, offset⟩ >>= fun p => next p.1 p.2) = _
      rw [h.reads]
      exact he
    rcases List.append_eq_append_iff.mp hcut with ⟨rest, rfl, hrest⟩ | ⟨rest, hfront, hmore⟩
    · exact hsecond rest hrest
    · cases rest with
      | nil =>
        -- The cut is right between the two steps.
        rw [List.append_nil] at hfront
        simpa [hfront] using hsecond [] hmore.symm
      | cons b rest =>
        obtain ⟨e, he, hfails⟩ := h.stops hfront (by simp) offset
        refine ⟨e, ?_, hfails⟩
        change (read ⟨front, offset⟩ >>= fun p => next p.1 p.2) = _
        rw [he]
        rfl

protected theorem mapError {f : ε → δ} {fails' : δ → Prop} (h : Takes read octets value fails)
    (himp : ∀ e, fails e → fails' (f e)) : Takes (mapError f read) octets value fails' where
  reads := h.reads.mapError f
  stops := by
    intro front back hcut hback offset
    obtain ⟨e, he, hfails⟩ := h.stops hcut hback offset
    refine ⟨f e, ?_, himp e hfails⟩
    rw [Reader.mapError, he]

protected theorem imp {fails' : ε → Prop} (h : Takes read octets value fails)
    (himp : ∀ e, fails e → fails' e) : Takes read octets value fails' where
  reads := h.reads
  stops := by
    intro front back hcut hback offset
    obtain ⟨e, he, hfails⟩ := h.stops hcut hback offset
    exact ⟨e, he, himp e hfails⟩

end Takes

/-- The octets between two places of the input are those that the reader takes. -/
def Spans (read : Reader ε α) (input left : Cursor) (value : α) (fails : ε → Prop) : Prop :=
  ∃ octets, input.rest = octets ++ left.rest ∧ Takes read octets value fails

/-- Every success of the reader is owed to octets at the front of its input. Without all of these it
fails, in a way that may depend on the value they stand for. -/
def Prefixed (read : Reader ε α) (fails : α → ε → Prop) : Prop :=
  ∀ input value left, read input = .ok (value, left) → Spans read input left value (fails value)

/-- A reader of which all that goes wrong without its octets is that they are missing. -/
def Truncates (read : Reader Fault α) : Prop := Prefixed read fun _ => Fault.IsTruncation

/-! ## Steps -/

section Steps

variable {read : Reader ε α} {next : α → Reader ε β} {input mid left : Cursor} {value : α}
  {result : β} {fails : α → ε → Prop} {fails' : ε → Prop}

theorem exists_of_bind_eq_ok (h : (read >>= next) input = .ok (result, left)) :
    ∃ value mid, read input = .ok (value, mid) ∧ next value mid = .ok (result, left) := by
  change (read input >>= fun p => next p.1 p.2) = _ at h
  cases hread : read input with
  | error e =>
    rw [hread] at h
    contradiction
  | ok p =>
    rw [hread] at h
    exact ⟨p.1, p.2, rfl, h⟩

theorem mapError_eq_ok {f : ε → δ} (h : mapError f read input = .ok (value, left)) :
    read input = .ok (value, left) := by
  unfold mapError at h
  split at h
  · simp_all
  · contradiction

theorem Spans.pure (input : Cursor) (value : α) :
    Spans (pure value : Reader ε α) input input value fails' :=
  ⟨[], rfl, .of_reads_nil .pure⟩

/-- One step of a run that succeeds as a whole. -/
theorem Spans.step (h : Spans read input mid value fails')
    (hnext : Spans (next value) mid left result fails') :
    Spans (read >>= next) input left result fails' := by
  obtain ⟨octets, hinput, htakes⟩ := h
  obtain ⟨more, hmid, hmore⟩ := hnext
  refine ⟨octets ++ more, ?_, htakes.bind hmore⟩
  rw [hinput, hmid, List.append_assoc]

theorem Spans.imp {fails : ε → Prop} (h : Spans read input left value fails)
    (himp : ∀ e, fails e → fails' e) : Spans read input left value fails' := by
  obtain ⟨octets, hinput, htakes⟩ := h
  exact ⟨octets, hinput, htakes.imp himp⟩

theorem Spans.mapError {fails : ε → Prop} {fails' : δ → Prop} {f : ε → δ}
    (h : Spans read input left value fails) (himp : ∀ e, fails e → fails' (f e)) :
    Spans (mapError f read) input left value fails' := by
  obtain ⟨octets, hinput, htakes⟩ := h
  exact ⟨octets, hinput, htakes.mapError himp⟩

/-- What goes wrong in a row of items goes wrong in one of them. -/
theorem Prefixed.items {read : Nat → Reader ε α} (h : ∀ index, Prefixed (read index) fails)
    (n : Nat) : Prefixed (items n read) fun values e => ∃ value ∈ values, fails value e := by
  have hfrom (first : Nat) :
      Prefixed (itemsFrom read first n) fun values e => ∃ value ∈ values, fails value e := by
    induction n generalizing first with
    | zero =>
      intro input values left hrun
      cases hrun
      exact .pure input []
    | succ n ih =>
      intro input values left hrun
      obtain ⟨value, mid, hvalue, hrun⟩ := exists_of_bind_eq_ok hrun
      obtain ⟨rest, _, hrest, hrun⟩ := exists_of_bind_eq_ok hrun
      cases hrun
      refine ((h first input value mid hvalue).imp ?_).step
        (((ih (first + 1) mid rest left hrest).imp ?_).step (.pure left _))
      · intro e he
        exact ⟨value, List.mem_cons_self .., he⟩
      · rintro e ⟨other, hother, he⟩
        exact ⟨other, List.mem_cons_of_mem value hother, he⟩
  exact hfrom 0

theorem Prefixed.mapError {f : ε → δ} {fails' : α → δ → Prop} (h : Prefixed read fails)
    (himp : ∀ value e, fails value e → fails' value (f e)) : Prefixed (mapError f read) fails' :=
  fun input value left hrun => (h input value left (mapError_eq_ok hrun)).mapError (himp value)

end Steps

namespace Truncates

variable {read : Reader Fault α} {next : α → Reader Fault β}

/-- A step that succeeds, with its failures put in other words. -/
theorem spans_mapError {f : Fault → δ} {fails : δ → Prop} {input left : Cursor} {value : α}
    (hrun : mapError f read input = .ok (value, left)) (h : Truncates read)
    (himp : ∀ e : Fault, e.IsTruncation → fails (f e)) :
    Spans (mapError f read) input left value fails :=
  (h input value left (mapError_eq_ok hrun)).mapError himp

protected theorem pure (value : α) : Truncates (pure value) := by
  intro input _ left h
  cases h
  exact .pure input value

protected theorem throw (f : Fault) : Truncates (throw f : Reader Fault α) := by
  intro input value left h
  cases h

protected theorem given (r : Except Fault α) : Truncates (given r) := by
  intro input value left h
  cases r with
  | error e => cases h
  | ok a =>
    cases h
    exact ⟨[], rfl, .of_reads_nil (.given rfl)⟩

protected theorem bind (h : Truncates read) (hnext : ∀ value, Truncates (next value)) :
    Truncates (read >>= next) := by
  intro input result left hrun
  obtain ⟨value, mid, hread, hresult⟩ := exists_of_bind_eq_ok hrun
  exact (h input value mid hread).step (hnext value mid result left hresult)

protected theorem map (f : α → β) (h : Truncates read) : Truncates (f <$> read) :=
  h.bind fun value => .pure (f value)

protected theorem within (h : Truncates read) (place : Place) : Truncates (within place read) :=
  h.mapError fun _ _ he => he

protected theorem items {read : Nat → Reader Fault α} (h : ∀ index, Truncates (read index))
    (n : Nat) : Truncates (items n read) := by
  intro input values left hrun
  refine (Prefixed.items h n input values left hrun).imp ?_
  rintro e ⟨_, -, he⟩
  exact he

protected theorem bytes (n : Nat) : Truncates (bytes n) := by
  intro input value left h
  by_cases hlength : (input.rest.take n).length = n
  · rw [Reader.bytes, if_pos hlength] at h
    cases h
    refine ⟨input.rest.take n, (List.take_append_drop n input.rest).symm, ?_, ?_⟩
    · have hreads := Reads.bytes (input.rest.take n)
      rwa [hlength] at hreads
    · intro front back hcut hback offset
      have hshort : (front.take n).length ≠ n := by
        have hsum := congrArg List.length hcut
        have hpos := List.length_pos_iff.mpr hback
        rw [hlength, List.length_append] at hsum
        rw [List.length_take]
        omega
      exact ⟨_, if_neg hshort, rfl⟩
  · rw [Reader.bytes, if_neg hlength] at h
    cases h

protected theorem skip (n : Int) : Truncates (skip n) := by
  have hbytes : Truncates (bytesOf n) := by
    unfold bytesOf
    split
    · intro input value left h
      cases h
    · exact .bytes n.toNat
  exact (hbytes.within _).bind fun _ => .pure ()

theorem u1 : Truncates u1 := (Truncates.bytes 1).map _

theorem u2 : Truncates u2 := (Truncates.bytes 2).map _

theorem u4 : Truncates u4 := (Truncates.bytes 4).map _

theorem u8 : Truncates u8 := (Truncates.bytes 8).map _

end Truncates

end Reader

open Reader

/-! ## Constants -/

theorem Constant.truncates_readBody (tag : Tag) : Truncates (readBody tag) := by
  have hpair (f : UInt16 → UInt16 → Constant) : Truncates (do return f (← u2) (← u2)) :=
    Truncates.u2.bind fun _ => Truncates.u2.bind fun _ => .pure _
  cases tag with
  | utf8 =>
    refine (Truncates.u2.within _).bind fun length => ?_
    exact ((Truncates.bytes _).within _).bind fun _ => .pure _
  | integer | float => exact Truncates.u4.map _
  | long | double => exact Truncates.u8.map _
  | classRef | string | methodType | moduleRef | packageRef => exact Truncates.u2.map _
  | fieldRef | methodRef | interfaceMethodRef | nameAndType | dynamic | invokeDynamic =>
    exact hpair _
  | methodHandle => exact Truncates.u1.bind fun _ => Truncates.u2.bind fun _ => .pure _

theorem Constant.truncates_read : Truncates read := by
  refine (Truncates.u1.within _).bind fun code => ?_
  split
  · exact truncates_readBody _
  · exact .throw _

namespace ConstantPool

theorem truncates_readSlots (index n : Nat) : Truncates (readSlots index n) := by
  fun_induction readSlots index n with
  | case1 => exact .pure []
  | case2 index => exact (Constant.truncates_read.within _).bind fun _ => .pure _
  | case3 index n ihWide ihNarrow =>
    refine (Constant.truncates_read.within _).bind fun c => ?_
    split
    · exact ihWide.bind fun _ => .pure _
    · exact ihNarrow.bind fun _ => .pure _

theorem truncates_read : Truncates read := by
  refine (Truncates.u2.within _).bind fun count => ?_
  split
  · exact .pure _
  · exact (truncates_readSlots 1 _).bind fun _ => .pure _

end ConstantPool

/-! ## Attributes and method bodies -/

variable (pool : ConstantPool)

theorem truncates_readAttribute : Truncates (readAttribute pool) := by
  refine (Truncates.u2.within _).bind fun nameIndex => ?_
  refine ((Truncates.given _).within _).bind fun name => ?_
  refine (Truncates.u4.within _).bind fun length => ?_
  exact ((Truncates.bytes _).within _).bind fun body => .pure _

theorem truncates_skipAttributes : Truncates skipAttributes := by
  have hitem : Truncates (do skip 2; let length ← u4; skip length.toNat) :=
    (Truncates.skip 2).bind fun _ => Truncates.u4.bind fun _ => .skip _
  exact Truncates.u2.bind fun count => (Truncates.items (fun _ => hitem) _).bind fun _ => .pure _

/-! ## Fields and methods -/

namespace Member

/-- A name and a descriptor are those of the member, as far as they were read. -/
inductive KnownBy (m : Member) : Text → Text → Prop where
  | nothing : KnownBy m [] []
  | name : KnownBy m m.name []
  | both : KnownBy m m.name m.descriptor

/-- Whatever is read inside of an attribute was taken with it. -/
theorem truncates_readCode (isMethod : Bool) (name descriptor : Text) (index : Nat) :
    Truncates (readCode pool isMethod name descriptor index) := by
  refine ((truncates_readAttribute pool).within _).bind fun found => ?_
  dsimp only
  split
  · exact (Truncates.given _).within _
  · exact .pure _

theorem prefixed_read (isMethod : Bool) :
    Prefixed (read pool isMethod) fun m e => m.KnownBy e.1 e.2.1 ∧ e.2.2.IsTruncation := by
  have hindex (first second : Place) : Truncates (do
      let index ← within first u2
      within second (given (pool.utf8 index))) :=
    (Truncates.u2.within _).bind fun _ => (Truncates.given _).within _
  intro input m left hrun
  obtain ⟨access, i₁, haccess, hrun⟩ := exists_of_bind_eq_ok hrun
  obtain ⟨name, i₂, hname, hrun⟩ := exists_of_bind_eq_ok hrun
  obtain ⟨descriptor, i₃, hdescriptor, hrun⟩ := exists_of_bind_eq_ok hrun
  obtain ⟨codes, i₄, hcodes, hrun⟩ := exists_of_bind_eq_ok hrun
  cases hrun
  refine (Truncates.spans_mapError haccess ?_ fun f hf => ⟨.nothing, hf⟩).step ?_
  · exact Truncates.u2.within _
  refine (Truncates.spans_mapError hname ?_ fun f hf => ⟨.nothing, hf⟩).step ?_
  · exact hindex _ _
  refine (Truncates.spans_mapError hdescriptor ?_ fun f hf => ⟨.name, hf⟩).step ?_
  · exact hindex _ _
  refine (Truncates.spans_mapError hcodes ?_ fun f hf => ⟨.both, hf⟩).step (.pure left _)
  exact (Truncates.u2.within _).bind fun count =>
    .items (truncates_readCode pool isMethod name descriptor) _

end Member

/-! ## Whole class files -/

namespace ClassFile

/-- The methods or the fields. -/
def members (file : ClassFile) : (isMethod : Bool) → List Member
  | true => file.methods
  | false => file.fields

/-- A failure tells that input is missing. Of the class, and of the member in which that was noticed,
it says nothing but what the class file says. -/
structure CutShort (file : ClassFile) (f : ClassFileFailure) : Prop where
  fault : f.fault.IsTruncation
  thisClass : ∀ name ∈ f.thisClass, name = file.thisClass
  member : ∀ member ∈ f.member, ∃ m ∈ file.members member.isMethod,
    m.KnownBy member.name member.descriptor

theorem CutShort.known {file : ClassFile} {f : Fault} (h : f.IsTruncation) :
    file.CutShort ⟨some file.thisClass, none, f⟩ where
  fault := h
  thisClass _ hname := (Option.some.inj hname).symm
  member := nofun

theorem truncates_readVersion : Truncates readVersion := by
  refine (Truncates.u4.within _).bind fun found => ?_
  have hversions : Truncates (do
      let minor ← within (.reading "minor version") u2
      let major ← within (.reading "major version") u2
      return (major, minor)) :=
    (Truncates.u2.within _).bind fun minor => (Truncates.u2.within _).bind fun major => .pure _
  split
  · exact (Truncates.throw _).bind fun _ => hversions
  · exact hversions

theorem spans_readMembers {pool : ConstantPool} {isMethod : Bool} {what : Text} {input left : Cursor}
    (file : ClassFile) (hrun : readMembers pool isMethod file.thisClass what input =
      .ok (file.members isMethod, left)) :
    Spans (readMembers pool isMethod file.thisClass what) input left (file.members isMethod)
      file.CutShort := by
  have hmember (index : Nat) : Prefixed (Member.readAt pool isMethod index) fun m e =>
      e.fault.IsTruncation ∧ e.isMethod = isMethod ∧ m.KnownBy e.name e.descriptor :=
    (Member.prefixed_read pool isMethod).mapError fun _ _ ⟨hknown, hfault⟩ => ⟨hfault, rfl, hknown⟩
  obtain ⟨count, mid, hcount, hmembers⟩ := exists_of_bind_eq_ok hrun
  have hmembers := Prefixed.items hmember _ _ _ _ (mapError_eq_ok hmembers)
  refine (Truncates.spans_mapError hcount ((Truncates.u2.within _).within _)
    fun _ hf => .known hf).step (hmembers.mapError ?_)
  rintro e ⟨m, hm, hfault, hmethod, hknown⟩
  refine { (CutShort.known hfault : CutShort file _) with member := ?_ }
  rintro _ ⟨⟩
  exact ⟨m, hmethod ▸ hm, hknown⟩

theorem truncates_interfaces (superClass : Text) : Truncates (do
    let count ← within (.reading "interfaces count") u2
    let interfaces ← items count.toNat (readInterface pool)
    return (superClass, interfaces)) := by
  have hinterface (index : Nat) : Truncates (readInterface pool index) :=
    (Truncates.u2.within _).bind fun _ => (Truncates.given _).within _
  exact (Truncates.u2.within _).bind fun count =>
    (Truncates.items hinterface _).bind fun interfaces => .pure _

theorem prefixed_read : Prefixed read CutShort := by
  intro input file left hrun
  obtain ⟨⟨major, minor, pool, access, thisClass⟩, i₁, hhead, hrun⟩ := exists_of_bind_eq_ok hrun
  obtain ⟨⟨superClass, interfaces⟩, i₂, hparents, hrun⟩ := exists_of_bind_eq_ok hrun
  obtain ⟨fields, i₃, hfields, hrun⟩ := exists_of_bind_eq_ok hrun
  obtain ⟨methods, i₄, hmethods, hrun⟩ := exists_of_bind_eq_ok hrun
  obtain ⟨_, i₅, hattributes, hrun⟩ := exists_of_bind_eq_ok hrun
  cases hrun
  let file : ClassFile :=
    { minor, major, pool, access, thisClass, superClass, interfaces, fields, methods }
  refine (Truncates.spans_mapError hhead ?_ fun _ hf => ⟨hf, nofun, nofun⟩).step ?_
  · refine truncates_readVersion.bind fun version => ?_
    refine (ConstantPool.truncates_read.within _).bind fun pool => ?_
    refine (Truncates.u2.within _).bind fun access => ?_
    refine (Truncates.u2.within _).bind fun thisIndex => ?_
    exact ((Truncates.given _).within _).bind fun thisClass => .pure _
  have hknown (f : Fault) (hf : f.IsTruncation) : file.CutShort ⟨some thisClass, none, f⟩ :=
    .known hf
  refine (Truncates.spans_mapError hparents ?_ hknown).step ?_
  · refine (Truncates.u2.within _).bind fun superIndex => ?_
    split
    · exact (Truncates.pure []).bind (truncates_interfaces pool)
    · exact ((Truncates.given _).within _).bind (truncates_interfaces pool)
  refine (spans_readMembers file hfields).step ((spans_readMembers file hmethods).step ?_)
  refine (Truncates.spans_mapError hattributes ?_ hknown).step (.pure left _)
  exact truncates_skipAttributes.within _

/-- What is read as a class file starts with octets that are all it is read from. -/
theorem exists_takes_of_parse {data : Bytes} {file : ClassFile} (h : parse data = .ok file) :
    ∃ octets rest, data = octets ++ rest ∧ Takes read octets file file.CutShort := by
  unfold parse at h
  cases hread : read.run (.start data) with
  | error f =>
    rw [hread] at h
    contradiction
  | ok p =>
    rw [hread] at h
    obtain rfl : p.1 = file := Except.ok.inj h
    obtain ⟨octets, hdata, htakes⟩ := prefixed_read _ _ _ hread
    exact ⟨octets, p.2.rest, hdata, htakes⟩

end ClassFile

namespace Decoder

/-- A failure to decode names no class, or that of the class file in dotted form; and it names no
method, or one of the class file as far as its name and descriptor were read. -/
structure Points (file : ClassFile) (e : DecodeFailure) : Prop where
  className : e.className = [] ∨ e.className = file.thisClass.replace Ascii.slash Ascii.dot
  method : e.method ≠ [] →
    ∃ m ∈ file.methods, e.method = m.name ∨ e.method = m.name ++ m.descriptor

theorem points_of_cutShort {file : ClassFile} {f : ClassFileFailure} (h : file.CutShort f) :
    Points file (ofClassFileFailure f) where
  className := by
    cases hclass : f.thisClass with
    | none => exact .inl (by simp [ofClassFileFailure, hclass, Text.replace])
    | some name =>
      rw [← h.thisClass name hclass]
      exact .inr (by simp [ofClassFileFailure, hclass])
  method := by
    intro hne
    cases hmember : f.member with
    | none => simp [ofClassFileFailure, hmember] at hne
    | some member =>
      cases hmethod : member.isMethod with
      | false => simp [ofClassFileFailure, hmember, hmethod] at hne
      | true =>
        obtain ⟨m, hm, hknown⟩ := h.member member hmember
        rw [hmethod] at hm
        refine ⟨m, hm, ?_⟩
        simp only [ofClassFileFailure, hmember, hmethod, if_true] at hne ⊢
        generalize member.name = name at *
        generalize member.descriptor = descriptor at *
        cases hknown with
        | nothing => exact absurd rfl hne
        | name => exact .inl (List.append_nil _)
        | both => exact .inr rfl

/-- What cannot be read cannot be decoded, whatever descriptors are known already. -/
theorem decode_of_parse_eq_error {data : Bytes} {f : ClassFileFailure}
    (h : ClassFile.parse data = .error f) (m : Type → Type) [Monad m] [DescriptorSource m] :
    (decode data : ExceptT DecodeFailure m DeclaredClass) = throw (ofClassFileFailure f) := by
  rw [decode, h]

end Decoder

/-- A class file that can be read is read from a number of octets at the front of the data, whatever
follows them. With any fewer octets reading fails because input is missing. Then decoding fails as
well, for the same reason and from whatever source of descriptors, and names no other class and no
other method than those of the whole class file. -/
theorem ClassFile.parse_determined {data : Bytes} {file : ClassFile} (h : parse data = .ok file) :
    ∃ n ≤ data.length,
      (∀ rest, parse (data.take n ++ rest) = .ok file) ∧
      ∀ k < n, ∃ f : ClassFileFailure, ∃ e : DecodeFailure,
        parse (data.take k) = .error f ∧ f.fault.cause.isTruncation = true ∧
        DeclaredClass.decode (data.take k) = .error e ∧
        (∀ (m : Type → Type) [Monad m] [DescriptorSource m],
          (Decoder.decode (data.take k) : ExceptT DecodeFailure m DeclaredClass) = throw e) ∧
        e.fault = f.fault ∧ Decoder.Points file e := by
  obtain ⟨octets, rest, rfl, htakes⟩ := exists_takes_of_parse h
  refine ⟨octets.length, by simp, ?_, ?_⟩
  · intro more
    rw [List.take_left, parse, StateT.run, Cursor.start, htakes.reads]
    rfl
  · intro k hk
    rw [List.take_append_of_le_length (Nat.le_of_lt hk)]
    obtain ⟨f, hf, hcut⟩ :=
      htakes.stops (List.take_append_drop k octets).symm (by simpa using hk) 0
    have hparse : parse (octets.take k) = .error f := by
      rw [parse, StateT.run, Cursor.start, hf]
      rfl
    have hdecode := Decoder.decode_of_parse_eq_error hparse
    refine ⟨f, Decoder.ofClassFileFailure f, hparse, hcut.fault, ?_, hdecode, rfl,
      Decoder.points_of_cutShort hcut⟩
    rw [DeclaredClass.decode, hdecode]
    rfl

/-- A class with one method, and an octet more. -/
def ClassFile.sampleData : Bytes :=
  [0xCA, 0xFE, 0xBA, 0xBE, 0, 0, 0, 52, 0, 8,
    1, 0, 3, 0x61, 0x2F, 0x42, 7, 0, 1, 1, 0, 1, 0x6D, 1, 0, 3, 0x28, 0x29, 0x56,
    1, 0, 4, 0x43, 0x6F, 0x64, 0x65, 5, 0, 0, 0, 0, 0, 0, 0, 1,
    0, 0x21, 0, 2, 0, 0, 0, 0, 0, 0,
    0, 1, 0, 9, 0, 3, 0, 4, 0, 1, 0, 5, 0, 0, 0, 13, 0, 0, 0, 0, 0, 0, 0, 1, 0xB1, 0, 0, 0, 0,
    0, 0, 99]

/-- What the data stand for. -/
def ClassFile.sampleFile : ClassFile where
  minor := 0
  major := 52
  pool := ⟨#[none, some (.utf8 "a/B"), some (.classRef 1), some (.utf8 "m"), some (.utf8 "()V"),
    some (.utf8 "Code"), some (.long 1), none]⟩
  access := 0x21
  thisClass := "a/B"
  superClass := []
  interfaces := []
  fields := []
  methods := [⟨9, "m", "()V", some ⟨0, 0, [0xB1], [], []⟩⟩]

/-- Cut inside of the method body, the class file has a class and a method to name. -/
theorem ClassFile.sample_parse_determined :
    parse sampleData = .ok sampleFile ∧
      (∃ n ≤ sampleData.length, (∀ rest, parse (sampleData.take n ++ rest) = .ok sampleFile) ∧
        ∀ k < n, ∃ f, parse (sampleData.take k) = .error f ∧ f.fault.cause.isTruncation = true) ∧
      (DeclaredClass.decode (sampleData.take 70)).mapError (fun e => (e.className, e.method)) =
        .error (Text.ofString "a.B", Text.ofString "m()V") := by
  have hparse : parse sampleData = .ok sampleFile := by decide +kernel
  obtain ⟨n, hn, hwhole, hcut⟩ := parse_determined hparse
  refine ⟨hparse, ⟨n, hn, hwhole, ?_⟩, by decide +kernel⟩
  intro k hk
  obtain ⟨f, _, hf, htruncation, -⟩ := hcut k hk
  exact ⟨f, hf, htruncation⟩

end JvmLinkage
