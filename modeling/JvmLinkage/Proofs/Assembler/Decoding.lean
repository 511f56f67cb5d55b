import JvmLinkage.Proofs.Assembler.ClassFile
import JvmLinkage.Proofs.Assembler.References
import JvmLinkage.Proofs.Declared.Building

/-!
# Decoding assembled classes

A class that was assembled from a valid source is decoded to the class that the source describes.
-/

namespace JvmLinkage

/-! ## Methods of a valid source -/

namespace Method

variable {raw name : Text}

theorem spelled_ofRaw (h : (Method.parse raw name false).isOk) (static : Bool) :
    (Method.ofRaw raw name static).Spelled raw ∧ (Method.ofRaw raw name static).name = name := by
  obtain ⟨hspelled, hname, -⟩ := spelled_of_parse (parse_of_isOk h static)
  exact ⟨hspelled, hname⟩

/-- The identity of a method is its name followed by its descriptor, if that is in internal form. -/
theorem key_ofRaw (h : (Method.parse raw name false).isOk) (hdot : Ascii.dot ∉ raw)
    (static : Bool) : (Method.ofRaw raw name static).key = name ++ raw := by
  obtain ⟨hspelled, hname⟩ := spelled_ofRaw h static
  rw [key, hname, hspelled.raw_eq, Text.replace_of_not_mem _ hdot]

end Method

namespace PlacedMethod

/-- What a valid step says about the method that it adds. -/
structure Valid (m : PlacedMethod) : Prop where
  name : Ascii.openParen ∉ m.name
  descriptor : Ascii.dot ∉ m.descriptor
  signature : (Method.parse m.descriptor m.name false).isOk
  steps : ∀ p ∈ m.steps, p.step.Valid

variable {m n : PlacedMethod}

/-- Methods with the same identity have the same name and descriptor: the name ends at the first
parenthesis. -/
theorem eq_of_key_eq (hm : m.Valid) (hn : n.Valid)
    (h : m.declared.method.key = n.declared.method.key) :
    m.name = n.name ∧ m.descriptor = n.descriptor := by
  obtain ⟨⟨params, result, hraw, -, -⟩, -⟩ := Method.spelled_ofRaw hm.signature m.static
  obtain ⟨⟨params', result', hraw', -, -⟩, -⟩ := Method.spelled_ofRaw hn.signature n.static
  rw [declared, declared, Method.key_ofRaw hm.signature hm.descriptor,
    Method.key_ofRaw hn.signature hn.descriptor, hraw, hraw'] at h
  obtain ⟨hname, hrest⟩ := Text.eq_of_append_cons_eq hm.name hn.name h
  exact ⟨hname, by rw [hraw, hraw', hrest]⟩

end PlacedMethod

namespace Assembler

theorem valid_of_placed? {a : Assembler} {c : ClassStep} {m : PlacedMethod}
    (h : a.placed? c = some m) (hvalid : c.Valid) : m.Valid := by
  cases c with
  | method access name descriptor body =>
    cases h
    obtain ⟨hname, hdescriptor, hsignature, hbody⟩ := hvalid
    refine ⟨hname, hdescriptor, hsignature, ?_⟩
    cases body with
    | none => exact fun p hp => absurd hp List.not_mem_nil
    | some steps =>
      intro p hp
      refine hbody.1 p.step ?_
      have hsteps := List.mem_map_of_mem (f := Placed.step) hp
      rwa [PlacedMethod.steps, Option.map_some, Option.getD_some, map_step_place] at hsteps
  | _ => cases h

theorem valid_of_mem_placedFrom {a : Assembler} {steps : List ClassStep}
    (hvalid : ∀ c ∈ steps, c.Valid) : ∀ m ∈ placedFrom a steps, m.Valid := by
  induction steps generalizing a with
  | nil => exact fun m hm => absurd hm List.not_mem_nil
  | cons c rest ih =>
    intro m hm
    rcases List.mem_append.mp hm with hm | hm
    · exact valid_of_placed? (Option.mem_toList.mp hm) (hvalid c (by simp))
    · exact ih (fun d hd => hvalid d (by simp [hd])) m hm

theorem map_signature_placedFrom (a : Assembler) (steps : List ClassStep) :
    (placedFrom a steps).map (fun m => (m.name, m.descriptor)) =
      steps.filterMap ClassStep.signature? := by
  induction steps generalizing a with
  | nil => rfl
  | cons c rest ih =>
    rw [placedFrom, List.map_append, ih]
    cases c <;> rfl

end Assembler

namespace ClassSource

variable {s : ClassSource}

theorem Valid.methods (h : s.Valid) : ∀ m ∈ s.methods, m.Valid :=
  Assembler.valid_of_mem_placedFrom h.steps

theorem Valid.declared_distinct (h : s.Valid) :
    (s.methods.map PlacedMethod.declared).Pairwise DeclaredMethod.Distinct := by
  have hsignatures := h.distinct
  rw [← Assembler.map_signature_placedFrom
    ((Assembler.start s.name s.superName s.interfaces).run {}).2, List.Nodup,
    List.pairwise_map] at hsignatures
  rw [List.pairwise_map]
  refine hsignatures.imp_of_mem ?_
  intro m n hm hn hne hkey
  obtain ⟨hname, hdescriptor⟩ := PlacedMethod.eq_of_key_eq (h.methods m hm) (h.methods n hn) hkey
  exact hne (by rw [hname, hdescriptor])

end ClassSource

/-! ## Decoding methods -/

section Decoding

variable {m : Type → Type} [Monad m] [DescriptorSource m] [FaithfulSource m]
  {pool : ConstantPool}

open Decoder

theorem yields_collect {steps : List Placed} {code : Code}
    (h : Assembler.OfSteps pool steps code) (hvalid : ∀ s ∈ steps, s.step.Valid) :
    Yields (collect (m := m) pool code)
      (.ok ((spotsFrom 0 steps).foldl (visited steps) {})) := by
  obtain ⟨is, hemitted, hfits, hcode⟩ := h
  have hbytes : code.code = is.flatMap Instruction.bytes := congrArg Code.code hcode
  have hhandlers : code.handlers = steps.filterMap Assembler.handlerOf? :=
    congrArg Code.handlers hcode
  have hlines : code.lines = [] ++ steps.filterMap Assembler.lineOf? := congrArg Code.lines hcode
  have hwalk : Instruction.walk code.code = (is, none) := by
    rw [hbytes]
    exact hemitted.walkFrom_eq _
  have hvisits := yields_visits (m := m) (e := {}) hvalid hhandlers hemitted hvalid (by omega)
    (by simp) hlines rfl
  unfold collect
  rw [hwalk]
  exact hvisits.bind_ok (.pure _)

/-- The method of a member is decoded, with what its body loads. -/
theorem yields_decodeMethod {method : PlacedMethod} {member : Member}
    (h : method.Represented pool member) (hvalid : method.Valid) :
    Yields (decodeMethod (m := m) pool member) (.ok (method.declared, method.loads)) := by
  unfold decodeMethod
  dsimp only
  rw [h.name, h.descriptor, Member.isStatic, h.access]
  split
  on_goal 1 =>
    rename_i hinit
    -- The class initialiser is not read from its descriptor, and no flag decides that it is static.
    have hstatic : method.static = true := by simp [PlacedMethod.static, hinit]
    obtain ⟨hname, hdescriptor⟩ : method.name = Method.classInit.name ∧
        method.descriptor = Method.classInit.raw := by simpa using hinit
    have hread : Method.parse Method.classInit.raw Method.classInit.name true = .ok .classInit :=
      Method.accepted_classInit.parse_raw
    have hsignature : Method.classInit = .ofRaw method.descriptor method.name method.static := by
      rw [hstatic, hname, hdescriptor, Method.ofRaw, hread]
      rfl
    refine (Yields.pure _).bind_ok ?_
    rw [hsignature]
  on_goal 2 =>
    rename_i hother
    have hstatic : method.static = decide (method.access &&& 0x0008 ≠ 0) := by
      simp only [Bool.not_eq_true] at hother
      simp [PlacedMethod.static, hother]
    rw [← hstatic]
    refine (yields_method hvalid.signature _ _).bind_ok ?_
  -- From the signature on, all methods are decoded in the same way.
  all_goals
    obtain ⟨access, name, descriptor, body, size⟩ := method
    obtain ⟨access', name', descriptor', code⟩ := member
    cases h.code with
    | none => exact .pure _
    | some hcode =>
      refine (yields_collect hcode hvalid.steps).bind_ok ?_
      rw [foldl_visited]
      exact .pure _

/-- The methods are added in order, with what their bodies load. -/
theorem yields_addRepresented (file : ClassFile) {methods : List PlacedMethod}
    {members : List Member}
    (h : List.Forall₂ (PlacedMethod.Represented file.pool) methods members)
    (hvalid : ∀ p ∈ methods, p.Valid) {b : ClassBuilder}
    (hdistinct :
      (b.methods ++ methods.map PlacedMethod.declared).Pairwise DeclaredMethod.Distinct) :
    Yields (m := m) (members.foldlM (fun b member =>
        attributed file (member.name ++ member.descriptor) (addMethod file.pool b member)) b)
      (.ok { b with
        loads := b.loads ++ methods.flatMap PlacedMethod.loads
        methods := b.methods ++ methods.map PlacedMethod.declared
        methods_distinct := hdistinct }) := by
  induction h generalizing b with
  | nil =>
    simp only [List.map_nil, List.flatMap_nil, List.append_nil]
    exact .pure b
  | @cons method member methods members hfirst _ ih =>
    have hall : ((b.methods ++ [method.declared]) ++ methods.map PlacedMethod.declared).Pairwise
        DeclaredMethod.Distinct := by simpa using hdistinct
    have hnext := (List.pairwise_append.mp hall).1
    let next : ClassBuilder := { b.addLoads method.loads with
      methods := b.methods ++ [method.declared], methods_distinct := hnext }
    have hadd : Yields (addMethod (m := m) file.pool b member) (.ok next) := by
      refine (yields_decodeMethod hfirst (hvalid method (by simp))).bind_ok ?_
      dsimp only
      rw [ClassBuilder.addMethod?_of_distinct (b := b.addLoads method.loads) hnext]
      exact .pure next
    have hrest := ih (b := next) (fun p hp => hvalid p (by simp [hp])) hall
    simp only [next, ClassBuilder.addLoads, List.append_assoc, List.singleton_append] at hrest
    exact (hadd.adapt _).bind_ok hrest

/-- The class of a source, before its lists are put in order. -/
def ClassSource.Valid.builder {s : ClassSource} (h : s.Valid) : ClassBuilder where
  name := .ofSlashed s.name
  parents := s.parents
  loads := s.methods.flatMap PlacedMethod.loads
  fields := s.fields
  methods := s.methods.map PlacedMethod.declared
  methods_distinct := h.declared_distinct

theorem isOk_of_member? {c : ClassStep} {member : Member} (h : c.member? = some member)
    (hvalid : c.Valid) : (Field.parse member.name member.descriptor).isOk := by
  cases c with
  | field access name descriptor =>
    cases h
    exact hvalid
  | _ => cases h

theorem yields_fields {s : ClassSource} (h : s.Valid) :
    Yields (m := m) ((s.steps.filterMap ClassStep.member?).mapM fun f =>
      descriptor [] (DescriptorSource.field f.name f.descriptor)) (.ok s.fields) := by
  have hnamed : ∀ f ∈ s.steps.filterMap ClassStep.member?,
      (Field.parse f.name f.descriptor).isOk := by
    intro f hf
    obtain ⟨c, hc, hmember⟩ := List.mem_filterMap.mp hf
    exact isOk_of_member? hmember (h.steps c hc)
  have hfields : (s.steps.filterMap ClassStep.member?).map
      (fun f => Field.ofRaw f.name f.descriptor) = s.fields := by
    rw [ClassSource.fields, List.map_filterMap, List.map_filterMap]
    simp [ClassStep.member?, Function.comp_def]
  rw [← hfields]
  exact Yields.mapM_ok fun f hf => yields_field (hnamed f hf) _

/-- A class file with the names of a source, its fields and its methods is decoded to the class of
the source. -/
theorem yields_decodeClassFile {s : ClassSource} (h : s.Valid) {file : ClassFile}
    (hthis : file.thisClass = s.name) (hsuper : file.superClass = s.superName)
    (hinterfaces : file.interfaces = s.interfaces)
    (hfields : file.fields = s.steps.filterMap ClassStep.member?)
    (hmethods : List.Forall₂ (PlacedMethod.Represented file.pool) s.methods file.methods) :
    Yields (decodeClassFile (m := m) file) (.ok h.builder.build) := by
  let parts : ClassBuilder :=
    ((ClassBuilder.start (.ofSlashed s.name)).addParents s.parents).addFields s.fields
  have hparts (front : List ClassName)
      (hfront : s.parents = front ++ s.interfaces.map .ofSlashed) :
      Yields (do
        let interfaces ← s.interfaces.mapM fun i =>
          descriptor [.part "interface"] (DescriptorSource.className i)
        let fields ← (s.steps.filterMap ClassStep.member?).mapM fun f =>
          descriptor [] (DescriptorSource.field f.name f.descriptor)
        return ((ClassBuilder.start (.ofSlashed s.name)).addParents
          (front ++ interfaces)).addFields fields : ExceptT Fault m ClassBuilder) (.ok parts) := by
    refine (Yields.mapM_ok fun i hi => yields_className (h.interfaces i hi) _).bind_ok ?_
    refine (yields_fields h).bind_ok ?_
    rw [← hfront]
    exact .pure parts
  have hrest := yields_addRepresented (m := m) file (b := parts) hmethods h.methods
    h.declared_distinct
  unfold decodeClassFile
  refine Yields.bind_ok (a := parts) (Yields.adapt (r := .ok parts) _ ?_)
    (hrest.bind_ok (.pure h.builder.build))
  dsimp only
  rw [hthis, hsuper, hinterfaces, hfields]
  refine (yields_className h.name _).bind_ok ?_
  split
  case isTrue hnone =>
    exact (Yields.pure _).bind_ok (hparts [] (by simp [ClassSource.parents, hnone]))
  case isFalse hsome =>
    have hparsed : (ClassName.parse s.superName).isOk :=
      h.superName.resolve_left fun hnone => hsome (by simp [hnone])
    refine (yields_className hparsed _).bind_ok ?_
    refine (Yields.pure _).bind_ok (hparts [.ofSlashed s.superName] ?_)
    simp [ClassSource.parents, hsome]

end Decoding

namespace ClassSource

variable {s : ClassSource}

theorem Valid.accepted_fields (h : s.Valid) : ∀ f ∈ s.fields, f.Accepted := by
  intro f hf
  obtain ⟨⟨access, name, descriptor⟩, hmem, rfl⟩ := List.mem_map.mp hf
  obtain ⟨c, hc, hfield⟩ := List.mem_filterMap.mp hmem
  have hvalid := h.steps c hc
  cases c with
  | field access name descriptor =>
    cases hfield
    exact Field.accepted_of_parse (eq_ok_of_isOk hvalid)
  | _ => cases hfield

theorem Valid.describes (h : s.Valid) : s.Describes h.builder.build := by
  have hname (x y : ClassName) (heq : compare x y = .eq) : x = y :=
    Std.LawfulEqOrd.eq_of_compare heq
  constructor
  case name => rfl
  case parents => exact fun p => Ascending.mem_ofList_iff fun x _ y _ => hname x y
  case fields =>
    refine fun f => Ascending.mem_ofList_iff fun x hx y hy => ?_
    exact (h.accepted_fields x hx).eq_of_cmp_eq (h.accepted_fields y hy)
  case methods =>
    intro d
    have hmem : d ∈ h.builder.build.methods ↔ d ∈ s.methods.map PlacedMethod.declared :=
      Ascending.mem_ofList_iff fun x hx y hy =>
        DeclaredMethod.eq_of_cmp_eq h.declared_distinct hx hy
    simp only [hmem, List.mem_map, eq_comm]
  case loads =>
    intro l
    have hmem : l ∈ h.builder.build.loads ↔ l ∈ s.methods.flatMap PlacedMethod.loads :=
      Ascending.mem_ofList_iff fun x _ y _ => hname x y
    rw [hmem, List.mem_flatMap]

theorem Valid.yields_decode {m : Type → Type} [Monad m] [DescriptorSource m] [FaithfulSource m]
    (h : s.Valid) :
    Yields (Decoder.decode (m := m) s.assemble.bytes) (.ok h.builder.build) := by
  obtain ⟨file, hparse, hthis, hsuper, hinterfaces, hfields, hmethods⟩ := h.exists_parse
  unfold Decoder.decode
  rw [hparse]
  exact yields_decodeClassFile h hthis hsuper hinterfaces hfields hmethods

/-- The octets of a class that was assembled from a valid source are decoded to the class that the
source describes, afresh and with any tables of descriptors. -/
theorem decode_assemble (h : s.Valid) : ∃ c, s.Describes c ∧
    DeclaredClass.decode s.assemble.bytes = .ok c ∧
    ∀ interner : Interner, interner.Sound → ∃ next : Interner, next.Sound ∧
      (Decoder.decode (m := StateM Interner) s.assemble.bytes).run.run interner = (.ok c, next) :=
  ⟨h.builder.build, h.describes, h.yields_decode (m := Id),
    h.yields_decode (m := StateM Interner)⟩

/-- A class whose initialiser loads the class of an array, with a static method that calls in and
after a guarded part, and a method without a body. -/
def sample : ClassSource where
  name := "p/Main"
  superName := "java/lang/Object"
  interfaces := ["p/Task", "java/lang/Object"]
  steps := [
    .constant (.long (-7)),
    .field 0x0002 "größe" "I",
    .method 0x0000 "<clinit>" "()V" (some [
      .classLiteral "[Lp/Other;",
      .pop,
      .stringLiteral "€",
      .access .putStatic "p/Main" "größe" "I",
      .returnVoid]),
    .method 0x0009 "run" "(Lp/Task;)V" (some [
      .line 3,
      .guarded 0 5 9 "java/io/IOException",
      .invokeInterface "p/Task" "run" "(J)Z" 3,
      .line 4,
      .constant (.integer 5),
      .invoke .static "p/Other" "stop" "()V",
      .invoke .virtual "[I" "clone" "()Ljava/lang/Object;",
      .returnVoid]),
    .method 0x0401 "run" "()V" none]

def sampleStrings : List String := [
  "p/Main", "java/lang/Object", "p/Task", "java/lang/Object", "größe", "I", "<clinit>", "()V",
  "[Lp/Other;", "€", "p/Main", "größe", "I", "run", "(Lp/Task;)V", "java/io/IOException", "p/Task",
  "run", "(J)Z", "p/Other", "stop", "()V", "[I", "clone", "()Ljava/lang/Object;", "run", "()V"]

theorem plain_sample : ∀ t ∈ sample.texts, t.Plain := by
  have htexts : sample.texts = sampleStrings.map Text.ofString := by decide +kernel
  have hfits : (sampleStrings.all fun s =>
      s.toList.all (·.toNat < 65536) && (Text.ofString s).length < 65536) = true := by decide +kernel
  rw [htexts, List.forall_mem_map]
  intro s hs
  obtain ⟨hunits, hlength⟩ := Bool.and_eq_true_iff.mp (List.all_eq_true.mp hfits s hs)
  exact Text.plain_ofString hunits (of_decide_eq_true hlength)

theorem valid_sample : sample.Valid where
  name := by decide +kernel
  superName := by decide +kernel
  interfaces := by decide +kernel
  steps := by decide +kernel
  plain := plain_sample
  distinct := by decide +kernel
  interfaces_fit := by decide +kernel
  fields_fit := by decide +kernel
  methods_fit := by decide +kernel
  code_fits := by decide +kernel
  slots_fit := by decide +kernel

/-- The static method of the sample: the second call stands after the guarded part, and a call of a
method of an array leaves nothing. -/
def sampleMethod : DeclaredMethod where
  method := ⟨"run", [.plain (.reference ⟨"p.Task"⟩)], .void, true⟩
  line := 4
  calls := [
    ⟨⟨"p.Task"⟩, ⟨"run", [.plain (.primitive .long)], .value (.plain (.primitive .boolean)), false⟩,
      3, [⟨"java.io.IOException"⟩]⟩,
    ⟨⟨"p.Other"⟩, ⟨"stop", [], .void, true⟩, 4, []⟩]
  accesses := []

theorem sample_decode_assemble : sample.Valid ∧
    ∃ c, DeclaredClass.decode sample.assemble.bytes = .ok c ∧ c.name = ⟨"p.Main"⟩ ∧
      (∀ p, p ∈ c.parents ↔ p ∈ [⟨"java.lang.Object"⟩, ⟨"p.Task"⟩]) ∧
      (∀ l, l ∈ c.loads ↔ l = ⟨"p.Other"⟩) ∧ sampleMethod ∈ c.methods ∧
      ∃ next, next.Sound ∧
        (Decoder.decode (m := StateM Interner) sample.assemble.bytes).run.run (.ofCapacity 2) =
          (.ok c, next) := by
  obtain ⟨c, hc, hdecode, hinterned⟩ := decode_assemble valid_sample
  refine ⟨valid_sample, c, hdecode, ?_, ?_, ?_, ?_, hinterned _ (Interner.sound_ofCapacity 2)⟩
  · rw [hc.name]
    decide +kernel
  · intro p
    have hparents : sample.parents =
        [⟨"java.lang.Object"⟩, ⟨"p.Task"⟩, ⟨"java.lang.Object"⟩] := by decide +kernel
    rw [hc.parents, hparents]
    grind
  · intro l
    have hloads : sample.methods.flatMap PlacedMethod.loads = [⟨"p.Other"⟩] := by decide +kernel
    rw [hc.loads, ← List.mem_flatMap, hloads, List.mem_singleton]
  · have hmem : sampleMethod ∈ sample.methods.map PlacedMethod.declared := by decide +kernel
    obtain ⟨m, hm, heq⟩ := List.mem_map.mp hmem
    exact (hc.methods _).mpr ⟨m, hm, heq.symm⟩

end ClassSource

end JvmLinkage
