import JvmLinkage.Proofs.Assembler.Members

/-!
# Assembled class files

The steps of a class add members one after the other, while the pool grows. When all steps are done,
the class file is read back from its octets with the names of the source.
-/

namespace JvmLinkage

open Reader

/-- The member is the method of the source, with the code of its steps. -/
structure PlacedMethod.Represented (pool : ConstantPool) (m : PlacedMethod) (member : Member) :
    Prop where
  access : member.access = m.access
  name : member.name = m.name
  descriptor : member.descriptor = m.descriptor
  code : Option.Rel (Assembler.OfSteps pool) m.body member.code

/-- The field that a step adds. -/
def ClassStep.member? (c : ClassStep) : Option Member :=
  c.field?.map fun (access, name, descriptor) => ⟨access, name, descriptor, none⟩

namespace Assembler

/-! ## The steps of a class -/

/-- The second class file under construction has, after the members of the first one, octets that are
read as these fields and methods. -/
structure Adds (pool : ConstantPool) (fields : List Member) (methods : List PlacedMethod)
    (a b : Assembler) : Prop where
  thisClass : b.thisClass = a.thisClass
  superClass : b.superClass = a.superClass
  interfaces : b.interfaces = a.interfaces
  fields : ∃ parts, b.fields = a.fields ++ parts ∧
    List.Forall₂ (Reads (Member.read pool false)) parts fields
  methods : ∃ parts members, b.methods = a.methods ++ parts ∧
    List.Forall₂ (Reads (Member.read pool true)) parts members ∧
    List.Forall₂ (PlacedMethod.Represented pool) methods members

variable {pool : ConstantPool} {fields fields' : List Member} {methods methods' : List PlacedMethod}
  {a b c : Assembler} {cs : List Constant}

theorem Adds.nothing (h : outline b = outline a) : Adds pool [] [] a b := by
  simp only [outline, Assembler.mk.injEq] at h
  obtain ⟨-, -, -, -, -, hthis, hsuper, hinterfaces, hfields, hmethods⟩ := h
  constructor
  case thisClass => exact hthis
  case superClass => exact hsuper
  case interfaces => exact hinterfaces
  case fields => exact ⟨[], by simp [hfields], .nil⟩
  case methods => exact ⟨[], [], by simp [hmethods], .nil, .nil⟩

theorem Adds.field {part : Bytes} {member : Member}
    (h : Reads (Member.read pool false) part member) (a : Assembler) :
    Adds pool [member] [] a { a with fields := a.fields ++ [part] } :=
  ⟨rfl, rfl, rfl, ⟨[part], rfl, .cons h .nil⟩, ⟨[], [], (List.append_nil _).symm, .nil, .nil⟩⟩

theorem Adds.method {part : Bytes} {member : Member} {m : PlacedMethod}
    (h : Reads (Member.read pool true) part member) (hm : m.Represented pool member)
    (a : Assembler) : Adds pool [] [m] a { a with methods := a.methods ++ [part] } :=
  ⟨rfl, rfl, rfl, ⟨[], (List.append_nil _).symm, .nil⟩,
    ⟨[part], [member], rfl, .cons h .nil, .cons hm .nil⟩⟩

theorem Adds.trans (h : Adds pool fields methods a b) (h' : Adds pool fields' methods' b c) :
    Adds pool (fields ++ fields') (methods ++ methods') a c := by
  obtain ⟨parts, hparts, hfields⟩ := h.fields
  obtain ⟨parts', hparts', hfields'⟩ := h'.fields
  obtain ⟨octets, members, hoctets, hread, hmethods⟩ := h.methods
  obtain ⟨octets', members', hoctets', hread', hmethods'⟩ := h'.methods
  constructor
  case thisClass => exact h'.thisClass.trans h.thisClass
  case superClass => exact h'.superClass.trans h.superClass
  case interfaces => exact h'.interfaces.trans h.interfaces
  case fields =>
    refine ⟨parts ++ parts', ?_, List.rel_append hfields hfields'⟩
    rw [hparts', hparts, List.append_assoc]
  case methods =>
    refine ⟨octets ++ octets', members ++ members', ?_, List.rel_append hread hread',
      List.rel_append hmethods hmethods'⟩
    rw [hoctets', hoctets, List.append_assoc]

/-- A step adds its member, if it has one. -/
theorem exists_classStep {s : ClassStep} (hvalid : s.Valid) (hplain : ∀ t ∈ s.texts, t.Plain)
    (hsize : ∀ m ∈ a.placed? s, ∀ n ∈ m.size, n < 65536) (ha : Entered a cs) :
    ∃ more, Entered ((classStep s).run a).2 (cs ++ more) ∧
      Always (cs ++ more) fun pool =>
        Adds pool s.member?.toList (a.placed? s).toList a ((classStep s).run a).2 := by
  cases s with
  | constant item =>
    obtain ⟨more, hentered, hsame, -⟩ :=
      enters_item (p := fun _ => True) hvalid hplain a cs ha fun _ _ => trivial
    exact ⟨more, hentered, fun _ _ => .nothing hsame⟩
  | version major =>
    refine ⟨[], ?_, fun _ _ => ?_⟩
    · rw [List.append_nil]
      exact ⟨ha.pool, ha.slots, ha.plain, ha.labels⟩
    · exact ⟨rfl, rfl, rfl, ⟨[], (List.append_nil _).symm, .nil⟩,
        ⟨[], [], (List.append_nil _).symm, .nil, .nil⟩⟩
  | field access name descriptor =>
    obtain ⟨more, hentered, hsame, hhead⟩ :=
      enters_memberHead (p := fun _ => True) access (hplain name (by simp [ClassStep.texts]))
        (hplain descriptor (by simp [ClassStep.texts])) a cs ha fun _ _ => trivial
    refine ⟨more, ⟨hentered.pool, hentered.slots, hentered.plain, hentered.labels⟩, ?_⟩
    intro later hlater
    obtain ⟨i, j, hoctets, hi, hj⟩ := hhead later hlater
    have hmember : Reads (Member.read (.ofConstants (cs ++ more ++ later)) false)
        (((memberHead access name descriptor).run a).1 ++ u2Bytes 0)
        ⟨access, name, descriptor, none⟩ := by
      have hnone : Reads (items (0 : UInt16).toNat
          (Member.readCode (.ofConstants (cs ++ more ++ later)) false name descriptor)) [] [] := .pure
      simpa [hoctets] using Member.reads access hi hj hnone
    exact (Adds.nothing hsame).trans (.field hmember _)
  | method access name descriptor steps =>
    have hsteps : ∀ s ∈ steps.getD [], ∀ t ∈ s.texts, t.Plain := by
      intro s hs t ht
      refine hplain t ?_
      simp only [ClassStep.texts, List.mem_cons, List.mem_flatMap]
      exact .inr (.inr ⟨s, hs, ht⟩)
    obtain ⟨more, hentered, b, octets, hsame, hrun, hmember⟩ :=
      exists_method (hplain name (by simp [ClassStep.texts]))
        (hplain descriptor (by simp [ClassStep.texts])) hvalid.2.2.2 hsteps (hsize _ rfl) ha
    refine ⟨more, hentered, fun later hlater => ?_⟩
    obtain ⟨code, hread, hcode⟩ := hmember later hlater
    change Adds _ _ _ a ((method access name descriptor steps).run a).2
    rw [hrun]
    exact (Adds.nothing hsame).trans (.method hread ⟨rfl, rfl, rfl, hcode⟩ b)

/-- All steps add their members in order. -/
theorem exists_classSteps {steps : List ClassStep} (hvalid : ∀ s ∈ steps, s.Valid)
    (hplain : ∀ s ∈ steps, ∀ t ∈ s.texts, t.Plain)
    (hsize : ∀ m ∈ placedFrom a steps, ∀ n ∈ m.size, n < 65536) (ha : Entered a cs) :
    ∃ more, Entered ((steps.forM classStep).run a).2 (cs ++ more) ∧
      Always (cs ++ more) fun pool =>
        Adds pool (steps.filterMap ClassStep.member?) (placedFrom a steps) a
          ((steps.forM classStep).run a).2 := by
  induction steps generalizing a cs with
  | nil =>
    refine ⟨[], ?_, fun _ _ => .nothing rfl⟩
    rwa [List.append_nil]
  | cons s rest ih =>
    rw [placedFrom] at hsize
    obtain ⟨more, hentered, hadds⟩ := exists_classStep (hvalid s (by simp)) (hplain s (by simp))
      (fun m hm => hsize m (List.mem_append_left _ (Option.mem_toList.mpr hm))) ha
    obtain ⟨later, hentered', hadds'⟩ := ih (fun t ht => hvalid t (by simp [ht]))
      (fun t ht => hplain t (by simp [ht])) (fun m hm => hsize m (List.mem_append_right _ hm)) hentered
    refine ⟨more ++ later, ?_, fun final hfinal => ?_⟩
    · rw [← List.append_assoc]
      exact hentered'
    · rw [← List.append_assoc] at hfinal ⊢
      have hfields : (s :: rest).filterMap ClassStep.member? =
          s.member?.toList ++ rest.filterMap ClassStep.member? := by
        rw [List.filterMap_cons]
        cases s.member? <;> rfl
      rw [hfields, placedFrom]
      exact ((hadds.append later) final hfinal).trans (hadds' final hfinal)

/-! ## Whole classes -/

theorem entered_empty : Entered {} [] where
  pool := rfl
  slots := rfl
  plain := nofun
  labels := nofun

theorem exists_start {name superName : Text} {interfaces : List Text} (hname : name.Plain)
    (hsuper : superName.Plain) (hinterfaces : ∀ i ∈ interfaces, i.Plain) :
    ∃ cs, Entered ((start name superName interfaces).run {}).2 cs ∧
      ((start name superName interfaces).run {}).2.fields = [] ∧
      ((start name superName interfaces).run {}).2.methods = [] ∧
      Always cs fun pool =>
        pool.className ((start name superName interfaces).run {}).2.thisClass = .ok name ∧
        pool.OptionalClass ((start name superName interfaces).run {}).2.superClass superName ∧
        List.Forall₂ (fun i n => pool.className i = .ok n)
          ((start name superName interfaces).run {}).2.interfaces interfaces := by
  let names : Assembly (UInt16 × UInt16 × List UInt16) := do
    let thisClass ← classRef name
    let superClass ← optionalClass superName
    let interfaces ← interfaces.mapM classRef
    return (thisClass, superClass, interfaces)
  have hnames : Enters (fun _ => True) names fun found pool =>
      pool.className found.1 = .ok name ∧ pool.OptionalClass found.2.1 superName ∧
        List.Forall₂ (fun i n => pool.className i = .ok n) found.2.2 interfaces := by
    have hmap : ∀ {p}, Enters p (interfaces.mapM classRef) fun found pool =>
        List.Forall₂ (fun n i => (PoolItem.classRef n).Resolves pool i) interfaces found :=
      Enters.mapM fun i hi => enters_classRef (hinterfaces i hi)
    refine (enters_classRef hname).bind fun i => (enters_optionalClass hsuper).bind fun j => ?_
    refine hmap.bind fun found => .pure ?_
    rintro pool ⟨⟨⟨-, hi⟩, hj⟩, hfound⟩
    refine ⟨ConstantPool.className_of_resolves hi, hj, ?_⟩
    exact hfound.flip.imp fun _ _ h => ConstantPool.className_of_resolves h
  obtain ⟨cs, hentered, hsame, hresolves⟩ := hnames {} [] entered_empty fun _ _ => trivial
  simp only [outline, Assembler.mk.injEq] at hsame
  obtain ⟨-, -, -, -, -, -, -, -, hfields, hmethods⟩ := hsame
  exact ⟨cs, ⟨hentered.pool, hentered.slots, hentered.plain, hentered.labels⟩, hfields, hmethods,
    hresolves⟩

theorem slotCount_of_entered (h : Entered a cs) :
    a.slotCount = (ConstantPool.ofConstants cs).size := by
  have hentry (c : Constant) : entrySlots c.octets = c.slots.length := by
    cases c <;> rfl
  rw [slotCount, h.pool, ConstantPool.size_ofConstants, List.length_flatMap, List.map_map]
  simp [Function.comp_def, hentry]

/-- The octets of a class whose indices lead to names and whose members are read as such. -/
theorem parse_bytes {thisClass superClass : Text} {interfaces : List Text}
    {fields methods : List Member} (ha : Entered a cs)
    (hfits : (ConstantPool.ofConstants cs).size < 65536)
    (hthis : (ConstantPool.ofConstants cs).className a.thisClass = .ok thisClass)
    (hsuper : (ConstantPool.ofConstants cs).OptionalClass a.superClass superClass)
    (hinterfaces : List.Forall₂ (fun i n => (ConstantPool.ofConstants cs).className i = .ok n)
      a.interfaces interfaces)
    (hfields : List.Forall₂ (Reads (Member.read (.ofConstants cs) false)) a.fields fields)
    (hmethods : List.Forall₂ (Reads (Member.read (.ofConstants cs) true)) a.methods methods)
    (hinterfacesFit : interfaces.length < 65536) (hfieldsFit : fields.length < 65536)
    (hmethodsFit : methods.length < 65536) :
    ClassFile.parse a.bytes = .ok {
      minor := 0, major := a.major, pool := .ofConstants cs, access := a.access, thisClass,
      superClass, interfaces, fields, methods } := by
  rw [← hinterfaces.length_eq] at hinterfacesFit
  rw [← hfields.length_eq] at hfieldsFit
  rw [← hmethods.length_eq] at hmethodsFit
  have hattributes : Reads skipAttributes (u2Bytes 0) () := (Reads.u2 0).last .pure
  have hread := ClassFile.reads {
      minor := 0, major := a.major, pool := .ofConstants cs, access := a.access, thisClass,
      superClass, interfaces, fields, methods }
    (ConstantPool.reads_ofConstants ha.plain hfits) hthis hsuper
    (ClassFile.reads_interfaces hinterfacesFit hinterfaces)
    (Member.reads_members hfieldsFit hfields thisClass "fields")
    (Member.reads_members hmethodsFit hmethods thisClass "methods") hattributes
  have hbytes : a.bytes = (u4Bytes ClassFile.magic ++ u2Bytes 0 ++ u2Bytes a.major
        ++ (u2Bytes (ConstantPool.ofConstants cs).size.toUInt16 ++ cs.flatMap Constant.octets
          ++ (u2Bytes a.access ++ u2Bytes a.thisClass)))
      ++ ((u2Bytes a.superClass ++ (u2Bytes a.interfaces.length.toUInt16
          ++ a.interfaces.flatMap u2Bytes))
        ++ (counted a.fields ++ (counted a.methods ++ u2Bytes 0))) := by
    have hinterfaces : counted (a.interfaces.map u2Bytes) =
        u2Bytes a.interfaces.length.toUInt16 ++ a.interfaces.flatMap u2Bytes := by
      rw [counted, List.length_map, List.flatMap_def]
    simp only [bytes, ha.slots, ha.pool, ← List.flatMap_def, hinterfaces, ClassFile.magic,
      List.append_assoc]
  have hrun := hread.run id
  rw [ClassFile.parse, hbytes]
  exact hrun

end Assembler

namespace ClassSource

variable {s : ClassSource}

/-- The class file of a source is read back with the names of the source, its fields, and its methods
with the code of their steps. -/
theorem Valid.exists_parse (h : s.Valid) : ∃ file : ClassFile,
    ClassFile.parse s.assemble.bytes = .ok file ∧ file.thisClass = s.name ∧
      file.superClass = s.superName ∧ file.interfaces = s.interfaces ∧
      file.fields = s.steps.filterMap ClassStep.member? ∧
      List.Forall₂ (PlacedMethod.Represented file.pool) s.methods file.methods := by
  have hinterfaces : ∀ i ∈ s.interfaces, i.Plain := fun i hi => h.plain i (by simp [texts, hi])
  have hsteps : ∀ c ∈ s.steps, ∀ t ∈ c.texts, t.Plain := by
    intro c hc t ht
    exact h.plain t (List.mem_append_right _ (List.mem_flatMap.mpr ⟨c, hc, ht⟩))
  obtain ⟨cs, hstart, hnoFields, hnoMethods, hnames⟩ :=
    Assembler.exists_start (h.plain s.name (by simp [texts]))
      (h.plain s.superName (by simp [texts])) hinterfaces
  obtain ⟨more, hentered, hadds⟩ := Assembler.exists_classSteps h.steps hsteps h.code_fits hstart
  change Assembler.Entered s.assemble (cs ++ more) at hentered
  have hfits : (ConstantPool.ofConstants (cs ++ more)).size < 65536 := by
    rw [← Assembler.slotCount_of_entered hentered]
    exact h.slots_fit
  obtain ⟨hthis, hsuper, hinterfaces⟩ := hnames more hfits
  have hadds := hadds [] (by simpa using hfits)
  rw [List.append_nil] at hadds
  obtain ⟨parts, hparts, hfields⟩ := hadds.fields
  obtain ⟨octets, members, hoctets, hread, hmethods⟩ := hadds.methods
  rw [hnoFields, List.nil_append] at hparts
  rw [hnoMethods, List.nil_append] at hoctets
  rw [← hadds.thisClass] at hthis
  rw [← hadds.superClass] at hsuper
  rw [← hadds.interfaces] at hinterfaces
  rw [← hparts] at hfields
  rw [← hoctets] at hread
  have hfieldsFit : (s.steps.filterMap ClassStep.member?).length < 65536 := by
    have hcount := h.fields_fit
    rw [List.length_filterMap_eq_countP] at hcount ⊢
    simpa [ClassStep.member?] using hcount
  have hmethodsFit : members.length < 65536 := by
    rw [← hmethods.length_eq]
    exact h.methods_fit
  exact ⟨_, Assembler.parse_bytes hentered hfits hthis hsuper hinterfaces hfields hread
    h.interfaces_fit hfieldsFit hmethodsFit, rfl, rfl, rfl, rfl, hmethods⟩

end ClassSource

end JvmLinkage
