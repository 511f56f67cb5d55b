import JvmLinkage.ClassFile.Parser
import JvmLinkage.Proofs.ClassFile.Reads

/-!
# Reading the parts of a class file

What each part of a class file is read as, given what its indices lead to in the pool and what its
own parts are read as. Nothing is said here about where the pool or the octets come from.
-/

namespace JvmLinkage

open Reader

variable {pool : ConstantPool}

/-- A class that may be missing: index zero stands for the empty name. -/
def ConstantPool.OptionalClass (pool : ConstantPool) (index : UInt16) (name : Text) : Prop :=
  if index = 0 then name = [] else pool.className index = .ok name

/-- A class that may be missing is resolved on the way to what follows. -/
theorem reads_optional_class {β : Type} {index : UInt16} {name : Text} {place : Place}
    {next : Text → Reader Fault β} {octets : Bytes} {result : β}
    (h : pool.OptionalClass index name) (hnext : Reads (next name) octets result) :
    Reads (if index = 0 then pure [] >>= next
      else within place (given (pool.className index)) >>= next) octets result := by
  unfold ConstantPool.OptionalClass at h
  split at h
  case isTrue hzero =>
    subst h
    rw [if_pos hzero]
    exact Reads.pure.still hnext
  case isFalse hzero =>
    rw [if_neg hzero]
    exact ((Reads.given h).within place).still hnext

/-! ## Attributes and method bodies -/

theorem reads_content {content : Bytes} (h : content.length < 4294967296) :
    Reads (bytes content.length.toUInt32.toNat) content content := by
  have hlength : content.length.toUInt32.toNat = content.length := UInt32.toNat_ofNat_of_lt' h
  rw [hlength]
  exact .bytes content

/-- The octets of an attribute whose name stands at an index. -/
def attributeOctets (index : UInt16) (content : Bytes) : Bytes :=
  u2Bytes index ++ u4Bytes content.length.toUInt32 ++ content

section Attribute

variable {index : UInt16} {content : Bytes}

theorem reads_attribute {kind : Text} (h : pool.utf8 index = .ok kind)
    (hfits : content.length < 4294967296) :
    Reads (readAttribute pool) (attributeOctets index content) (kind, content) := by
  rw [attributeOctets, List.append_assoc]
  refine ((Reads.u2 index).within _).bind (((Reads.given h).within _).still ?_)
  exact ((Reads.u4 _).within _).bind (((reads_content hfits).within _).last .pure)

theorem Code.reads_lines {entries : List LineEntry} (h : pool.utf8 index = .ok linesName)
    (hfits : content.length < 4294967296) (hentries : Reads LineEntry.readTable content entries)
    (place : Nat) : Reads (readLines pool place) (attributeOctets index content) entries := by
  refine ((reads_attribute h hfits).within _).last ?_
  dsimp only
  rw [if_pos rfl]
  exact (Reads.given (hentries.run id)).within _

theorem Code.reads_other {kind : Text} (h : pool.utf8 index = .ok kind) (hother : kind ≠ linesName)
    (hfits : content.length < 4294967296) (place : Nat) :
    Reads (readLines pool place) (attributeOctets index content) [] := by
  refine ((reads_attribute h hfits).within _).last ?_
  dsimp only
  rw [if_neg hother]
  exact .pure

theorem Member.reads_body {code : Code} {name descriptor : Text}
    (h : pool.utf8 index = .ok Code.attributeName) (hfits : content.length < 4294967296)
    (hcode : Reads (Code.read pool) content code) (place : Nat) :
    Reads (readCode pool true name descriptor place) (attributeOctets index content)
      (some code) := by
  refine ((reads_attribute h hfits).within _).last ?_
  dsimp only
  rw [if_pos (by simp)]
  exact (Reads.given (hcode.run some)).within _

theorem Member.reads_other {isMethod : Bool} {kind name descriptor : Text}
    (h : pool.utf8 index = .ok kind) (hother : isMethod → kind ≠ Code.attributeName)
    (hfits : content.length < 4294967296) (place : Nat) :
    Reads (readCode pool isMethod name descriptor place) (attributeOctets index content) none := by
  refine ((reads_attribute h hfits).within _).last ?_
  dsimp only
  rw [if_neg (by simpa using hother)]
  exact .pure

end Attribute

theorem LineEntry.reads_entries {entries : List LineEntry} (hfits : entries.length < 65536) :
    Reads readTable (u2Bytes entries.length.toUInt16 ++
      entries.flatMap fun e => u2Bytes e.start ++ u2Bytes e.line) entries := by
  have hitem : ∀ e ∈ entries, ∀ _ : Nat, Reads
      (do let start ← u2; let line ← u2; return LineEntry.mk start line)
      (u2Bytes e.start ++ u2Bytes e.line) (id e) :=
    fun e _ _ => (Reads.u2 e.start).bind ((Reads.u2 e.line).last .pure)
  have hitems := Reads.items hfits hitem
  rw [List.map_id] at hitems
  exact (Reads.u2 _).bind hitems

theorem ExceptionHandler.reads {start stop handler catchIndex : UInt16} {catchType : Text}
    (h : pool.OptionalClass catchIndex catchType) :
    Reads (read pool) (u2Bytes start ++ u2Bytes stop ++ u2Bytes handler ++ u2Bytes catchIndex)
      ⟨start, stop, handler, catchType⟩ := by
  rw [List.append_assoc, List.append_assoc]
  refine (Reads.u2 start).bind ((Reads.u2 stop).bind ((Reads.u2 handler).bind ?_))
  exact (Reads.u2 catchIndex).last (reads_optional_class h .pure)

theorem Code.reads (maxStack maxLocals : UInt16) {handlerCount tableCount : UInt16}
    {code handlerOctets tableOctets : Bytes} {handlers : List ExceptionHandler}
    {tables : List (List LineEntry)} (hfits : code.length < 4294967296)
    (hhandlers : Reads (items handlerCount.toNat fun i =>
      within (.item "exception handler" i) (ExceptionHandler.read pool)) handlerOctets handlers)
    (htables : Reads (items tableCount.toNat (readLines pool)) tableOctets tables) :
    Reads (read pool) (u2Bytes maxStack ++ u2Bytes maxLocals ++ u4Bytes code.length.toUInt32 ++ code
        ++ (u2Bytes handlerCount ++ handlerOctets) ++ (u2Bytes tableCount ++ tableOctets))
      ⟨maxStack, maxLocals, code, handlers, tables.flatten⟩ := by
  simp only [List.append_assoc]
  refine ((Reads.u2 maxStack).within _).bind (((Reads.u2 maxLocals).within _).bind ?_)
  refine ((Reads.u4 _).within _).bind (((reads_content hfits).within _).bind ?_)
  refine ((Reads.u2 handlerCount).within _).bind (hhandlers.bind ?_)
  exact ((Reads.u2 tableCount).within _).bind (htables.last .pure)

/-! ## Fields and methods -/

theorem Member.reads {isMethod : Bool} (access : UInt16) {nameIndex descriptorIndex count : UInt16}
    {name descriptor : Text} {octets : Bytes} {codes : List (Option Code)}
    (hname : pool.utf8 nameIndex = .ok name) (hdescriptor : pool.utf8 descriptorIndex = .ok descriptor)
    (hcodes : Reads (items count.toNat (readCode pool isMethod name descriptor)) octets codes) :
    Reads (read pool isMethod) (u2Bytes access ++ u2Bytes nameIndex ++ u2Bytes descriptorIndex
        ++ (u2Bytes count ++ octets))
      ⟨access, name, descriptor, (codes.filterMap id).getLast?⟩ := by
  simp only [List.append_assoc]
  refine (((Reads.u2 access).within _).mapError _).bind ?_
  refine ((((Reads.u2 nameIndex).within _).last ((Reads.given hname).within _)).mapError _).bind ?_
  refine ((((Reads.u2 descriptorIndex).within _).last
    ((Reads.given hdescriptor).within _)).mapError _).bind ?_
  exact ((((Reads.u2 count).within _).bind hcodes).mapError _).last .pure

theorem Member.reads_members {isMethod : Bool} {parts : List Bytes} {members : List Member}
    (hfits : parts.length < 65536) (h : List.Forall₂ (Reads (read pool isMethod)) parts members)
    (thisClass what : Text) :
    Reads (ClassFile.readMembers pool isMethod thisClass what) (Assembler.counted parts) members := by
  refine ((((Reads.u2 _).within _).within _).mapError _).bind (.mapError _ ?_)
  apply Reads.items_of_forall₂ hfits
  exact h.imp fun _ _ hmember index => hmember.mapError _

/-! ## Whole class files -/

namespace ClassFile

theorem reads_version (major minor : UInt16) :
    Reads readVersion (u4Bytes magic ++ u2Bytes minor ++ u2Bytes major) (major, minor) := by
  rw [List.append_assoc]
  refine ((Reads.u4 magic).within _).bind ?_
  exact ((Reads.u2 minor).within _).bind (((Reads.u2 major).within _).last .pure)

theorem reads_interfaces {indices : List UInt16} {names : List Text}
    (hfits : indices.length < 65536)
    (h : List.Forall₂ (fun index name => pool.className index = .ok name) indices names) :
    Reads (items indices.length.toUInt16.toNat (readInterface pool)) (indices.flatMap u2Bytes)
      names := by
  have hparts : List.Forall₂ (fun part name => ∀ i, Reads (readInterface pool i) part name)
      (indices.map u2Bytes) names := by
    rw [List.forall₂_map_left_iff]
    exact h.imp fun index _ hname _ =>
      ((Reads.u2 index).within _).last ((Reads.given hname).within _)
  have hitems := Reads.items_of_forall₂ (by rwa [List.length_map]) hparts
  rwa [List.length_map, ← List.flatMap_def] at hitems

/-- A class file is read from the octets of its parts. What is known of the class changes how
failures are reported, and so groups the parts. -/
theorem reads (file : ClassFile) {thisIndex superIndex interfaceCount : UInt16}
    {poolOctets interfaceOctets fieldOctets methodOctets attributeOctets : Bytes}
    (hpool : Reads ConstantPool.read poolOctets file.pool)
    (hthis : file.pool.className thisIndex = .ok file.thisClass)
    (hsuper : file.pool.OptionalClass superIndex file.superClass)
    (hinterfaces : Reads (items interfaceCount.toNat (readInterface file.pool)) interfaceOctets
      file.interfaces)
    (hfields : Reads (readMembers file.pool false file.thisClass "fields") fieldOctets file.fields)
    (hmethods : Reads (readMembers file.pool true file.thisClass "methods") methodOctets
      file.methods)
    (hattributes : Reads skipAttributes attributeOctets ()) :
    Reads read ((u4Bytes magic ++ u2Bytes file.minor ++ u2Bytes file.major
          ++ (poolOctets ++ (u2Bytes file.access ++ u2Bytes thisIndex)))
        ++ ((u2Bytes superIndex ++ (u2Bytes interfaceCount ++ interfaceOctets))
          ++ (fieldOctets ++ (methodOctets ++ attributeOctets)))) file := by
  refine Reads.bind (Reads.mapError _ ((reads_version file.major file.minor).bind
    ((hpool.within _).bind (((Reads.u2 file.access).within _).bind
      (((Reads.u2 thisIndex).within _).last (((Reads.given hthis).within _).still .pure)))))) ?_
  refine Reads.bind (Reads.mapError _ (((Reads.u2 superIndex).within _).bind
    (reads_optional_class hsuper (((Reads.u2 interfaceCount).within _).bind
      (hinterfaces.last .pure))))) ?_
  refine hfields.bind (hmethods.bind ?_)
  exact ((hattributes.within _).mapError _).last .pure

end ClassFile

end JvmLinkage
