import JvmLinkage.Proofs.Declared.Building
import JvmLinkage.Proofs.Declared.Decoding
import JvmLinkage.Proofs.Declared.Sharing

/-!
# Rearranged class files

A class file is decoded by reading its parts one by one and building a class from them. The order in
which it lists interfaces, fields and methods does not show in the class.
-/

namespace JvmLinkage

/-- The second class file lists the interfaces, fields and methods of the first one in another
order. -/
structure ClassFile.Rearranged (file file' : ClassFile) : Prop where
  pool : file'.pool = file.pool
  thisClass : file'.thisClass = file.thisClass
  superClass : file'.superClass = file.superClass
  interfaces : file'.interfaces.Perm file.interfaces
  fields : file'.fields.Perm file.fields
  methods : file'.methods.Perm file.methods

namespace Decoder

/-! ## What the parts of a class file are read as -/

/-- What a method is decoded as, with the classes that it loads. -/
abbrev Found := DeclaredMethod × List ClassName

/-- The method of a class file is decoded on its own. -/
def Found.OfMember (pool : ConstantPool) (member : Member) (found : Found) : Prop :=
  (decodeMethod (m := Id) pool member).run.run = .ok found

/-- The steps in which a decoded method is added. -/
def Found.steps (found : Found) : List BuildStep := [.loads found.2, .method found.1]

/-- What the parts of a class file are read as. -/
structure Parts where
  name : ClassName
  superClass : List ClassName
  interfaces : List ClassName
  fields : List Field
  methods : List Found

/-- The steps in which a class is built. -/
def Parts.steps (parts : Parts) : List BuildStep :=
  .parents (parts.superClass ++ parts.interfaces) :: .fields parts.fields ::
    parts.methods.flatMap Found.steps

/-- Every part of a class file is read, and no two methods have the same identity. -/
structure Parts.Read (parts : Parts) (file : ClassFile) : Prop where
  name : ClassName.parse file.thisClass = .ok parts.name
  superClass : if file.superClass.isEmpty then parts.superClass = []
    else ∃ c, ClassName.parse file.superClass = .ok c ∧ parts.superClass = [c]
  interfaces : List.Forall₂ (fun i c => ClassName.parse i = .ok c) file.interfaces parts.interfaces
  fields : List.Forall₂ (fun (f : Member) g => Field.parse f.name f.descriptor = .ok g) file.fields
    parts.fields
  methods : List.Forall₂ (Found.OfMember file.pool) file.methods parts.methods
  distinct : (parts.methods.map (·.1)).Pairwise DeclaredMethod.Distinct

variable {file file' : ClassFile} {parts : Parts}

/-- The parts of a rearranged class file are read as the same ones, rearranged. -/
theorem Parts.Read.rearranged (h : parts.Read file) (hfile : file.Rearranged file') :
    ∃ parts' : Parts, parts'.Read file' ∧ parts'.name = parts.name ∧
      parts'.superClass = parts.superClass ∧ parts'.interfaces.Perm parts.interfaces ∧
      parts'.fields.Perm parts.fields ∧ parts'.methods.Perm parts.methods := by
  obtain ⟨interfaces, hinterfaces, hpermI⟩ := List.perm_comp_forall₂ hfile.interfaces h.interfaces
  obtain ⟨fields, hfields, hpermF⟩ := List.perm_comp_forall₂ hfile.fields h.fields
  obtain ⟨methods, hmethods, hpermM⟩ := List.perm_comp_forall₂ hfile.methods h.methods
  refine ⟨⟨parts.name, parts.superClass, interfaces, fields, methods⟩, ?_, rfl, rfl, hpermI, hpermF,
    hpermM⟩
  constructor
  case name => rw [hfile.thisClass, h.name]
  case superClass => rw [hfile.superClass]; exact h.superClass
  case interfaces => exact hinterfaces
  case fields => exact hfields
  case methods => rw [hfile.pool]; exact hmethods
  case distinct =>
    exact ((hpermM.map _).pairwise_iff fun hne => Ne.symm hne).mpr h.distinct

theorem Parts.flatMap_steps (parts : Parts) :
    parts.steps.flatMap (·.givenParents) = parts.superClass ++ parts.interfaces ∧
      parts.steps.flatMap (·.givenLoads) = parts.methods.flatMap (·.2) ∧
      parts.steps.flatMap (·.givenFields) = parts.fields ∧
      parts.steps.flatMap (·.givenMethods) = parts.methods.map (·.1) := by
  simp [steps, Found.steps, List.flatMap_assoc, BuildStep.givenParents, BuildStep.givenLoads,
    BuildStep.givenFields, BuildStep.givenMethods, List.map_eq_flatMap]

theorem Parts.Read.accepted_fields (h : parts.Read file) :
    ∀ f ∈ parts.steps.flatMap (·.givenFields), f.Accepted := by
  obtain ⟨-, -, hfields, -⟩ := parts.flatMap_steps
  rw [hfields]
  have hread := h.fields.flip.imp fun f member hf => And.intro (Field.accepted_of_parse hf) hf
  exact ((List.forall₂_and_left _ _).mp hread).1

theorem Parts.Read.sameParts {parts' : Parts} (h : parts.Read file)
    (hsuper : parts'.superClass = parts.superClass)
    (hinterfaces : parts'.interfaces.Perm parts.interfaces)
    (hfields : parts'.fields.Perm parts.fields) (hmethods : parts'.methods.Perm parts.methods) :
    BuildStep.SameParts parts.steps parts'.steps := by
  obtain ⟨hp, hl, hf, hm⟩ := parts.flatMap_steps
  obtain ⟨hp', hl', hf', hm'⟩ := parts'.flatMap_steps
  constructor
  case parents => rw [hp, hp', hsuper]; exact fun p => (hinterfaces.append_left _).mem_iff.symm
  case loads => rw [hl, hl']; exact fun l => (hmethods.flatMap_right _).mem_iff.symm
  case fields => rw [hf, hf']; exact fun f => hfields.mem_iff.symm
  case methods => rw [hm, hm']; exact (hmethods.map _).symm
  case distinct => rw [hm]; exact h.distinct

/-! ## Classes that are decoded -/

/-- What the parts were read as makes this class. -/
def Parts.declared (parts : Parts) : DeclaredClass :=
  (ClassBuilder.ofSteps parts.name parts.steps).build

/-- A run of its own ensures its result. -/
theorem ensures_run {ε α : Type} (x : ExceptT ε Id α) : Ensures x fun a => x.run.run = .ok a :=
  ⟨x.run.run, rfl, fun _ h => h⟩

/-- Methods were decoded and added to what was there at the start, with the classes they load. -/
def Adds (pool : ConstantPool) (start : ClassBuilder) (members : List Member) (b : ClassBuilder) :
    Prop :=
  ∃ found, List.Forall₂ (Found.OfMember pool) members found ∧
    b = (found.flatMap Found.steps).foldl ClassBuilder.take start ∧
    b.methods = start.methods ++ found.map (·.1)

theorem ensures_adds {pool : ConstantPool} {start b : ClassBuilder} {done : List Member}
    (member : Member) (hb : Adds pool start done b) :
    Ensures (addMethod (m := Id) pool b member) (Adds pool start (done ++ [member])) := by
  obtain ⟨found, hfound, hsteps, hmethods⟩ := hb
  refine (ensures_run (decodeMethod pool member)).bind fun next hnext => ?_
  obtain ⟨declared, loads⟩ := next
  dsimp only
  split
  case h_1 b' hb' =>
    obtain ⟨-, -, -, -, hadded⟩ := ClassBuilder.eq_of_addMethod? hb'
    have htaken : (b.take (.loads loads)).take (.method declared) = b' :=
      congrArg (Option.getD · (b.addLoads loads)) hb'
    refine .pure ⟨found ++ [(declared, loads)], List.rel_append hfound (.cons hnext .nil), ?_, ?_⟩
    · rw [List.flatMap_append, List.foldl_append, ← hsteps]
      exact htaken.symm
    · rw [hadded, List.map_append, ← List.append_assoc, ← hmethods]
      rfl
  case h_2 => exact .throw _

/-- The parts at the start of the methods are those of the file without its methods. -/
def Starts (file : ClassFile) (b : ClassBuilder) : Prop :=
  ∃ parts : Parts, parts.Read { file with methods := [] } ∧
    b = ClassBuilder.ofSteps parts.name parts.steps

theorem ensures_starts {name : ClassName} {superClass : List ClassName}
    (hname : ClassName.parse file.thisClass = .ok name)
    (hsuper : if file.superClass.isEmpty then superClass = []
      else ∃ c, ClassName.parse file.superClass = .ok c ∧ superClass = [c]) :
    Ensures (do
      let interfaces ← file.interfaces.mapM fun i =>
        descriptor [.part "interface"] (DescriptorSource.className i)
      let fields ← file.fields.mapM fun f =>
        descriptor [] (DescriptorSource.field f.name f.descriptor)
      return ((ClassBuilder.start name).addParents (superClass ++ interfaces)).addFields fields :
        ExceptT Fault Id ClassBuilder) (Starts file) := by
  refine (Ensures.mapM_forall₂ (fun i => ensures_descriptor _
    (FaithfulSource.yields_className i)) _).bind fun interfaces hinterfaces => ?_
  refine (Ensures.mapM_forall₂ (fun f : Member => ensures_descriptor _
    (FaithfulSource.yields_field f.name f.descriptor)) _).bind fun fields hfields => ?_
  exact .pure ⟨⟨name, superClass, interfaces, fields, []⟩,
    ⟨hname, hsuper, hinterfaces, hfields, .nil, .nil⟩, rfl⟩

/-- Adding the methods to the parts at their start makes the class of all parts. -/
theorem exists_read_of_adds {start b : ClassBuilder} (hstart : Starts file start)
    (hb : Adds file.pool start file.methods b) :
    ∃ parts : Parts, parts.Read file ∧ parts.declared = b.build := by
  obtain ⟨⟨name, superClass, interfaces, fields, methods⟩, hread, rfl⟩ := hstart
  obtain ⟨found, hfound, hsteps, hmethods⟩ := hb
  obtain rfl : methods = [] := List.forall₂_nil_left_iff.mp hread.methods
  have hdistinct := b.methods_distinct
  rw [hmethods] at hdistinct
  refine ⟨⟨name, superClass, interfaces, fields, found⟩, ?_, ?_⟩
  · exact ⟨hread.name, hread.superClass, hread.interfaces, hread.fields, hfound, hdistinct⟩
  · rw [hsteps]
    rfl

/-- A class file that is decoded has all its parts read, and the class is built from them. -/
theorem ensures_read (file : ClassFile) :
    Ensures (decodeClassFile (m := Id) file) fun c =>
      ∃ parts : Parts, parts.Read file ∧ parts.declared = c := by
  unfold decodeClassFile
  refine Ensures.bind (p := Starts file) (Ensures.adapt _ ?_) fun start hstart => ?_
  · refine (ensures_descriptor _ (FaithfulSource.yields_className _)).bind fun name hname => ?_
    dsimp only
    split
    case isTrue hnone =>
      refine (Ensures.pure (p := (· = [])) rfl).bind fun superClass hsuper => ?_
      exact ensures_starts hname (by rwa [if_pos hnone])
    case isFalse hsome =>
      refine (ensures_descriptor _ (FaithfulSource.yields_className _)).bind fun c hc => ?_
      refine (Ensures.pure (p := (· = [c])) rfl).bind fun superClass hsuper => ?_
      exact ensures_starts hname (by rw [if_neg hsome]; exact ⟨c, hc, hsuper⟩)
  · have hstep : ∀ done member b, done ++ [member] <+: file.methods → Adds file.pool start done b →
        Ensures (attributed file (member.name ++ member.descriptor)
          (addMethod (m := Id) file.pool b member)) (Adds file.pool start (done ++ [member])) :=
      fun done member b _ hb => (ensures_adds member hb).adapt _
    have hnone : Adds file.pool start [] start := ⟨[], .nil, rfl, (List.append_nil _).symm⟩
    exact (Ensures.foldlM_of_done hstep hnone).bind fun b hb =>
      .pure (exists_read_of_adds hstart hb)

/-! ## Class files that are read -/

section

variable {m : Type → Type} [Monad m] [DescriptorSource m] [FaithfulSource m]

theorem Found.OfMember.yields {pool : ConstantPool} {member : Member} {found : Found}
    (h : found.OfMember pool member) : Yields (decodeMethod (m := m) pool member) (.ok found) :=
  h ▸ agrees_decodeMethod pool member

/-- Methods that are decoded, each with an identity of its own, are added one after the other. -/
theorem yields_addMethods {members : List Member} {found : List Found}
    (h : List.Forall₂ (Found.OfMember file.pool) members found) {b : ClassBuilder}
    (hdistinct : (b.methods ++ found.map (·.1)).Pairwise DeclaredMethod.Distinct) :
    Yields (members.foldlM (fun b member => attributed file (member.name ++ member.descriptor)
        (addMethod (m := m) file.pool b member)) b)
      (.ok ((found.flatMap Found.steps).foldl ClassBuilder.take b)) := by
  induction h generalizing b with
  | nil => exact .pure b
  | @cons member next members found hfirst _ ih =>
    obtain ⟨declared, loads⟩ := next
    have hall : (b.methods ++ [declared] ++ found.map (·.1)).Pairwise DeclaredMethod.Distinct := by
      simpa using hdistinct
    have hnext := (List.pairwise_append.mp hall).1
    let next := (b.take (.loads loads)).take (.method declared)
    have hadd : (b.addLoads loads).addMethod? declared = some next := by
      have hadded := ClassBuilder.addMethod?_of_distinct (b := b.addLoads loads) hnext
      rw [hadded]
      exact congrArg (fun added => some (Option.getD added (b.addLoads loads))) hadded.symm
    have hmethods : next.methods = b.methods ++ [declared] :=
      (ClassBuilder.eq_of_addMethod? hadd).2.2.2.2
    have hmember : Yields (addMethod (m := m) file.pool b member) (.ok next) := by
      refine (Found.OfMember.yields hfirst).bind_ok ?_
      dsimp only
      rw [hadd]
      exact .pure next
    exact (hmember.adapt _).bind_ok (ih (hmethods.symm ▸ hall))

theorem yields_start (h : parts.Read file) : Yields (do
      let interfaces ← file.interfaces.mapM fun i =>
        descriptor [.part "interface"] (DescriptorSource.className i)
      let fields ← file.fields.mapM fun f =>
        descriptor [] (DescriptorSource.field f.name f.descriptor)
      return ((ClassBuilder.start parts.name).addParents
        (parts.superClass ++ interfaces)).addFields fields : ExceptT Fault m ClassBuilder)
    (.ok (ClassBuilder.ofSteps parts.name
      [.parents (parts.superClass ++ parts.interfaces), .fields parts.fields])) := by
  refine (Yields.mapM_of_forall₂ (h.interfaces.imp fun i c hi => ?_)).bind_ok ?_
  · exact Yields.descriptor_ok (hi ▸ FaithfulSource.yields_className i)
  refine (Yields.mapM_of_forall₂ (h.fields.imp fun f g hf => ?_)).bind_ok (.pure _)
  exact Yields.descriptor_ok (hf ▸ FaithfulSource.yields_field f.name f.descriptor)

/-- A class file whose parts are read is decoded to the class that is built from them. -/
theorem Parts.Read.yields (h : parts.Read file) :
    Yields (decodeClassFile (m := m) file) (.ok parts.declared) := by
  let start := ClassBuilder.ofSteps parts.name
    [.parents (parts.superClass ++ parts.interfaces), .fields parts.fields]
  have hmethods := yields_addMethods (m := m) (b := start) h.methods h.distinct
  unfold decodeClassFile
  refine Yields.bind_ok (a := start) (Yields.adapt (r := .ok start) _ ?_)
    (hmethods.bind_ok (.pure parts.declared))
  refine (Yields.descriptor_ok (h.name ▸ FaithfulSource.yields_className file.thisClass)).bind_ok ?_
  have hsuper := h.superClass
  dsimp only
  split
  case isTrue hnone =>
    rw [if_pos hnone] at hsuper
    exact (Yields.pure []).bind_ok (hsuper ▸ yields_start h)
  case isFalse hsome =>
    rw [if_neg hsome] at hsuper
    obtain ⟨c, hc, hsuper⟩ := hsuper
    refine (Yields.descriptor_ok (hc ▸ FaithfulSource.yields_className file.superClass)).bind_ok ?_
    exact (Yields.pure [c]).bind_ok (hsuper ▸ yields_start h)

/-- A rearranged class file is decoded to the same class. -/
theorem yields_of_rearranged {c : DeclaredClass} (hfile : file.Rearranged file')
    (h : (decodeClassFile (m := Id) file).run.run = .ok c) :
    Yields (decodeClassFile (m := m) file') (.ok c) := by
  obtain ⟨r, hr, hread⟩ := ensures_read file
  obtain ⟨parts, hparts, rfl⟩ := hread c (hr.symm.trans h)
  obtain ⟨parts', hparts', hname, hsuper, hinterfaces, hfields, hmethods⟩ := hparts.rearranged hfile
  have hsame := hparts.sameParts hsuper hinterfaces hfields hmethods
  have hdeclared : parts'.declared = parts.declared := by
    rw [Parts.declared, hname]
    exact ClassBuilder.build_eq_of_sameParts hparts.accepted_fields hsame
  exact hdeclared ▸ hparts'.yields

end

end Decoder

/-! ## Canonical classes -/

/-- A method is refused exactly if one with its identity was added before, and then nothing changes.
A class shows the parts that were given and nothing of how they were given, and one that is decoded
shows nothing of the order in which the class file lists its interfaces, fields and methods. -/
theorem class_is_canonical :
    (∀ name steps d,
      ((ClassBuilder.ofSteps name steps).addMethod? d = none ↔
        ∃ e ∈ steps.flatMap (·.givenMethods), e.method.key = d.method.key) ∧
      ((ClassBuilder.ofSteps name steps).addMethod? d = none → ∀ more,
        ClassBuilder.ofSteps name (steps ++ .method d :: more) =
          ClassBuilder.ofSteps name (steps ++ more))) ∧
    (∀ name steps, (∀ f ∈ steps.flatMap (·.givenFields), f.Accepted) →
      ClassBuilder.Shows (ClassBuilder.ofSteps name steps).build name steps ∧
      ∀ steps', BuildStep.SameParts steps steps' →
        (ClassBuilder.ofSteps name steps').build = (ClassBuilder.ofSteps name steps).build) ∧
    ∀ (file file' : ClassFile) (c : DeclaredClass), file.Rearranged file' →
      ((Decoder.decodeClassFile (m := Id) file).run.run = .ok c →
        (Decoder.decodeClassFile (m := Id) file').run.run = .ok c) ∧
      ∀ tables tables' : Interner, tables.Sound → tables'.Sound →
        ((Decoder.decodeClassFile (m := StateM Interner) file).run.run tables).1 = .ok c →
        ((Decoder.decodeClassFile (m := StateM Interner) file').run.run tables').1 = .ok c := by
  refine ⟨fun name steps d => ?_, fun name steps hfields => ?_, fun file file' c hfile => ?_⟩
  · exact ⟨ClassBuilder.addMethod?_ofSteps_eq_none_iff d, ClassBuilder.ofSteps_of_refused⟩
  · exact ⟨ClassBuilder.shows_build hfields, fun steps' =>
      ClassBuilder.build_eq_of_sameParts hfields⟩
  · refine ⟨Decoder.yields_of_rearranged (m := Id) hfile, ?_⟩
    intro tables tables' htables htables' h
    -- With tables or without them, a class file is decoded to the same class.
    obtain ⟨_, -, hrun⟩ := Decoder.agrees_decodeClassFile (m := StateM Interner) file tables htables
    rw [hrun] at h
    obtain ⟨_, -, hrun'⟩ :=
      Decoder.yields_of_rearranged (m := StateM Interner) hfile h tables' htables'
    rw [hrun']

namespace Rearranging

/-- A class file with two interfaces, two fields and two methods without bodies. -/
def sampleFile : ClassFile where
  minor := 0
  major := 52
  pool := ⟨#[]⟩
  access := 0x0421
  thisClass := "p/A"
  superClass := "java/lang/Object"
  interfaces := ["p/C", "p/B"]
  fields := [⟨0, "x", "J", none⟩, ⟨0, "x", "I", none⟩]
  methods := [⟨0x0401, "run", "()V", none⟩, ⟨0x0401, "get", "()I", none⟩]

/-- The same class file the other way round. -/
def sampleReversed : ClassFile :=
  { sampleFile with
    interfaces := sampleFile.interfaces.reverse
    fields := sampleFile.fields.reverse
    methods := sampleFile.methods.reverse }

def sampleField : Field := ⟨"x", .plain (.primitive .int)⟩

/-- A method with a name, without parameters and result. -/
def sampleMethod (name : Text) (line : Int) : DeclaredMethod :=
  ⟨⟨name, [], .void, false⟩, line, [], []⟩

def sampleSteps : List BuildStep :=
  [.method (sampleMethod "run" 1), .parents [⟨"p.C"⟩, ⟨"p.B"⟩, ⟨"p.C"⟩], .fields [sampleField],
    .method (sampleMethod "get" 2)]

/-- Steps that give the same parts in another way. -/
def sampleReordered : List BuildStep :=
  [.parents [⟨"p.B"⟩], .fields [sampleField, sampleField], .method (sampleMethod "get" 2),
    .method (sampleMethod "run" 1), .parents [⟨"p.C"⟩]]

/-- A second method `run` is refused, and neither the order of steps nor that of a class file shows
in the class. -/
theorem sample_is_canonical :
    (ClassBuilder.ofSteps ⟨"p.A"⟩ sampleSteps).addMethod? (sampleMethod "run" 3) = none ∧
      ClassBuilder.ofSteps ⟨"p.A"⟩ (sampleSteps ++ [.method (sampleMethod "run" 3)]) =
        ClassBuilder.ofSteps ⟨"p.A"⟩ sampleSteps ∧
      (∀ f ∈ sampleSteps.flatMap (·.givenFields), f.Accepted) ∧
      ClassBuilder.Shows (ClassBuilder.ofSteps ⟨"p.A"⟩ sampleSteps).build ⟨"p.A"⟩ sampleSteps ∧
      BuildStep.SameParts sampleSteps sampleReordered ∧
      (ClassBuilder.ofSteps ⟨"p.A"⟩ sampleReordered).build =
        (ClassBuilder.ofSteps ⟨"p.A"⟩ sampleSteps).build ∧
      sampleFile.Rearranged sampleReversed ∧
      ∃ c, (Decoder.decodeClassFile (m := Id) sampleFile).run.run = .ok c ∧
        (Decoder.decodeClassFile (m := Id) sampleReversed).run.run = .ok c ∧
        ((Decoder.decodeClassFile (m := StateM Interner) sampleReversed).run.run
          (.ofCapacity 1)).1 = .ok c := by
  have hfields : ∀ f ∈ sampleSteps.flatMap (·.givenFields), f.Accepted := by
    have hparse : Field.parse "x" "I" = .ok sampleField := by decide +kernel
    exact List.forall_mem_singleton.mpr ⟨"I", hparse⟩
  have hsame : BuildStep.SameParts sampleSteps sampleReordered := by
    constructor
    case parents => simp [sampleSteps, sampleReordered, BuildStep.givenParents]
    case loads => simp [sampleSteps, sampleReordered, BuildStep.givenLoads]
    case fields => simp [sampleSteps, sampleReordered, BuildStep.givenFields]
    case methods => exact .swap _ _ _
    case distinct => decide +kernel
  have hfile : sampleFile.Rearranged sampleReversed :=
    ⟨rfl, rfl, rfl, List.reverse_perm _, List.reverse_perm _, List.reverse_perm _⟩
  have hok : (Decoder.decodeClassFile (m := Id) sampleFile).run.run.isOk = true := by decide +kernel
  obtain ⟨c, hc⟩ : ∃ c, (Decoder.decodeClassFile (m := Id) sampleFile).run.run = .ok c := by
    cases hrun : (Decoder.decodeClassFile (m := Id) sampleFile).run.run with
    | ok c => exact ⟨c, rfl⟩
    | error e =>
      rw [hrun] at hok
      cases hok
  have hc' := (Decoder.agrees_decodeClassFile (m := StateM Interner) sampleFile).run_interner 1
  have htables := Interner.sound_ofCapacity 1
  obtain ⟨hrefuses, hbuilds, hdecodes⟩ := class_is_canonical
  obtain ⟨hrefused, hunchanged⟩ := hrefuses ⟨"p.A"⟩ sampleSteps (sampleMethod "run" 3)
  have hnone := hrefused.mpr ⟨sampleMethod "run" 1, List.mem_cons_self, rfl⟩
  obtain ⟨hshows, hreordered⟩ := hbuilds ⟨"p.A"⟩ sampleSteps hfields
  obtain ⟨hafresh, hinterned⟩ := hdecodes sampleFile sampleReversed c hfile
  exact ⟨hnone, hunchanged hnone [], hfields, hshows, hsame, hreordered _ hsame, hfile, c, hc,
    hafresh hc, hinterned _ _ htables htables (hc'.trans hc)⟩

end Rearranging

end JvmLinkage
