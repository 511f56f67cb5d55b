import JvmLinkage.Proofs.Assembler.Body

/-!
# Assembled members

Fields and methods are read back from their octets with the names they were given, and a body with its
code, its handlers and its lines.
-/

namespace JvmLinkage

open Reader

/-- The body as it is read. -/
def Body.toCode (b : Body) : Code := ⟨8, 8, b.code, b.handlers, b.lines⟩

/-- The texts of the body stand for themselves, and its parts can be counted. -/
structure Body.Writable (b : Body) : Prop where
  plain : ∀ h ∈ b.handlers, h.catchType.Plain
  code_fits : b.code.length < 65536
  handlers_fit : b.handlers.length < 65536
  lines_fit : b.lines.length < 65536

namespace Assembler

variable {p : ConstantPool → Prop}

/-! ## Bodies -/

theorem enters_optionalClass {name : Text} (h : name.Plain) :
    Enters p (optionalClass name) fun index pool => pool.OptionalClass index name := by
  unfold optionalClass
  split
  case isTrue hempty => exact .pure fun _ _ => by simpa [ConstantPool.OptionalClass] using hempty
  case isFalse =>
    exact (enters_classRef h).imp fun _ _ _ hclass => ConstantPool.optionalClass_of_resolves hclass

theorem enters_handler {h : ExceptionHandler} (hplain : h.catchType.Plain) :
    Enters p (handler h) fun part pool =>
      part.length = 8 ∧ Reads (ExceptionHandler.read pool) part h := by
  refine (enters_optionalClass hplain).bind fun index => .pure fun pool hp => ⟨?_, ?_⟩
  · simp [u2Bytes]
  · exact ExceptionHandler.reads hp.2

/-- The table of lines is one attribute, or none if there are no lines. -/
theorem enters_lineTable {lines : List LineEntry} (hfits : lines.length < 65536) :
    Enters p (lineTable lines) fun octets pool => octets.length ≤ 4 * lines.length + 10 ∧
      ∃ (count : UInt16) (parts : Bytes) (tables : List (List LineEntry)),
        octets = u2Bytes count ++ parts ∧
        Reads (items count.toNat (Code.readLines pool)) parts tables ∧ tables.flatten = lines := by
  unfold lineTable
  split
  case isTrue hempty =>
    obtain rfl := List.isEmpty_iff.mp hempty
    exact .pure fun _ _ => ⟨by simp [u2Bytes], 0, [], [], by simp, .pure, rfl⟩
  case isFalse =>
    have hname : Code.linesName.Plain := Text.plain_ofString (by decide) (by decide)
    let content := u2Bytes lines.length.toUInt16 ++
      lines.flatMap fun e => u2Bytes e.start ++ u2Bytes e.line
    have hlength : content.length = 2 + 4 * lines.length := by
      have hentries : (lines.flatMap fun e => u2Bytes e.start ++ u2Bytes e.line).length =
          lines.length * 4 := by
        simp [List.length_flatMap, u2Bytes, List.map_const']
      rw [List.length_append, hentries]
      simp [u2Bytes, Nat.mul_comm]
    refine (enters_utf8 hname).bind fun name => .pure fun pool hp => ?_
    have hoctets : u2Bytes 1 ++ u2Bytes name ++ u4Bytes (2 + 4 * lines.length).toUInt32 ++
        u2Bytes lines.length.toUInt16 ++ (lines.flatMap fun e => u2Bytes e.start ++ u2Bytes e.line) =
        u2Bytes 1 ++ attributeOctets name content := by
      simp [attributeOctets, hlength, content]
    rw [hoctets]
    refine ⟨?_, 1, _, [lines], rfl, ?_, by simp⟩
    · rw [attributeOctets, List.length_append, List.length_append, List.length_append, hlength]
      simp [u2Bytes, u4Bytes]
      omega
    · have hentries : Reads LineEntry.readTable content lines := LineEntry.reads_entries hfits
      exact (Code.reads_lines hp.2 (by omega) hentries 0).last .pure

theorem length_flatten_of_forall₂ {τ : Type} {n : Nat} {items : List τ} {parts : List Bytes}
    (h : List.Forall₂ (fun _ part => part.length = n) items parts) :
    parts.flatten.length = n * items.length := by
  induction h with
  | nil => rfl
  | cons hpart _ ih =>
    rw [List.flatten_cons, List.length_append, ih, hpart, List.length_cons, Nat.mul_succ,
      Nat.add_comm]

theorem enters_bodyBytes {b : Body} (h : b.Writable) :
    Enters p (bodyBytes b) fun content pool =>
      content.length < 4294967296 ∧ Reads (Code.read pool) content b.toCode := by
  have hhandlers : Enters p (b.handlers.mapM handler) fun parts pool =>
      List.Forall₂ (fun e part => part.length = 8 ∧ Reads (ExceptionHandler.read pool) part e)
        b.handlers parts :=
    Enters.mapM fun e he => enters_handler (h.plain e he)
  refine hhandlers.bind fun parts => (enters_lineTable h.lines_fit).bind fun table => ?_
  refine .pure ?_
  rintro pool ⟨⟨-, hparts⟩, htable, count, tableParts, tables, rfl, htables, hlines⟩
  have hlength : b.handlers.length = parts.length := hparts.length_eq
  have hoctets : parts.flatten.length = 8 * b.handlers.length :=
    length_flatten_of_forall₂ (hparts.imp fun _ _ hpart => hpart.1)
  have hcodeFits := h.code_fits
  have hhandlersFit := h.handlers_fit
  have hlinesFit := h.lines_fit
  constructor
  · simp only [List.length_append, hoctets] at htable ⊢
    simp only [u2Bytes, u4Bytes, Bytes.length_ofNat] at htable ⊢
    omega
  · have hread := hparts.flip.imp fun part e hpart index =>
      hpart.2.within (.item "exception handler" index)
    have hcode := Code.reads 8 8 (show b.code.length < 4294967296 by omega)
      (Reads.items_of_forall₂ (by omega) hread) htables
    rw [hlines, ← hlength] at hcode
    simpa only [Body.toCode, List.append_assoc] using hcode

/-! ## Fields and methods -/

theorem enters_memberHead (access : UInt16) {name descriptor : Text} (hname : name.Plain)
    (hdescriptor : descriptor.Plain) :
    Enters p (memberHead access name descriptor) fun head pool => ∃ i j,
      head = u2Bytes access ++ u2Bytes i ++ u2Bytes j ∧ pool.utf8 i = .ok name ∧
        pool.utf8 j = .ok descriptor := by
  refine (enters_utf8 hname).bind fun i => (enters_utf8 hdescriptor).bind fun j => ?_
  exact .pure fun _ hp => ⟨i, j, rfl, hp.1.2, hp.2⟩

theorem enters_bodyAttributes {body : Option Body} (h : ∀ b ∈ body, b.Writable) :
    Enters p (bodyAttributes body) fun octets pool =>
      ∃ (count : UInt16) (parts : Bytes) (codes : List (Option Code)),
        octets = u2Bytes count ++ parts ∧ (codes.filterMap id).getLast? = body.map Body.toCode ∧
        ∀ name descriptor, Reads (items count.toNat (Member.readCode pool true name descriptor))
          parts codes := by
  cases body with
  | none => exact .pure fun _ _ => ⟨0, [], [], by simp, rfl, fun _ _ => .pure⟩
  | some b =>
    have hname : Code.attributeName.Plain := Text.plain_ofString (by decide) (by decide)
    refine (enters_bodyBytes (h b rfl)).bind fun content => (enters_utf8 hname).bind fun label => ?_
    refine .pure ?_
    rintro pool ⟨⟨-, hfits, hcode⟩, hlabel⟩
    refine ⟨1, attributeOctets label content, [some b.toCode], by simp [attributeOctets], rfl, ?_⟩
    intro name descriptor
    exact (Member.reads_body hlabel hfits hcode 0).last .pure

/-! ## Bodies from their steps -/

theorem map_step_place (a : Assembler) (b : Body) (steps : List BodyStep) :
    (place a b steps).map Placed.step = steps := by
  induction steps generalizing a b with
  | nil => rfl
  | cons s rest ih => rw [place, List.map_cons, ih]

theorem isSome_lineOf? (s : Placed) : (lineOf? s).isSome = s.step.isLine := by
  obtain ⟨pc, step⟩ := s
  cases step <;> rfl

theorem isSome_handlerOf? (s : Placed) : (handlerOf? s).isSome = s.step.isGuard := by
  obtain ⟨pc, step⟩ := s
  cases step <;> rfl

/-- A table has as many entries as there are steps of its kind. -/
theorem length_table {τ : Type} {made? : Placed → Option τ} {kind : BodyStep → Bool}
    (h : ∀ s, (made? s).isSome = kind s.step) (a : Assembler) (b : Body) (steps : List BodyStep) :
    ((place a b steps).filterMap made?).length = steps.countP kind := by
  calc
    ((place a b steps).filterMap made?).length
      = (place a b steps).countP (kind ∘ Placed.step) := by
        simp [List.length_filterMap_eq_countP, h, Function.comp_def]
    _ = steps.countP kind := by rw [← List.countP_map, map_step_place]

theorem catchType_mem_texts {s : Placed} {e : ExceptionHandler} (h : handlerOf? s = some e) :
    e.catchType ∈ s.step.texts := by
  obtain ⟨pc, step⟩ := s
  cases step with
  | guarded start stop target catchType =>
    cases h
    exact List.mem_singleton_self _
  | _ => cases h

variable {a : Assembler} {cs : List Constant}

theorem writable_steps {steps : List BodyStep} (hvalid : ValidBody steps)
    (hplain : ∀ s ∈ steps, ∀ t ∈ s.texts, t.Plain)
    (hsize : ((steps.foldlM step {}).run a).1.code.length < 65536) :
    ((steps.foldlM step {}).run a).1.Writable := by
  have hlines := table_steps lines_step a {} steps
  have hhandlers := table_steps handlers_step a {} steps
  rw [List.nil_append] at hlines hhandlers
  constructor
  case plain =>
    intro e he
    rw [hhandlers] at he
    obtain ⟨s, hs, hmade⟩ := List.mem_filterMap.mp he
    have hstep : s.step ∈ steps := by
      rw [← map_step_place a {} steps]
      exact List.mem_map_of_mem hs
    exact hplain s.step hstep _ (catchType_mem_texts hmade)
  case code_fits => exact hsize
  case handlers_fit =>
    rw [hhandlers, length_table isSome_handlerOf?]
    exact hvalid.2.2
  case lines_fit =>
    rw [hlines, length_table isSome_lineOf?]
    exact hvalid.2.1

/-- The code is that of the steps: their instructions in a row, their guards and their lines. -/
def OfSteps (pool : ConstantPool) (steps : List Placed) (code : Code) : Prop :=
  ∃ is, Emitted pool 0 steps is ∧ (is.flatMap Instruction.bytes).length < 65536 ∧
    code = ⟨8, 8, is.flatMap Instruction.bytes, steps.filterMap handlerOf?,
      steps.filterMap lineOf?⟩

theorem exists_body {steps : Option (List BodyStep)} (hvalid : ValidBody (steps.getD []))
    (hplain : ∀ s ∈ steps.getD [], ∀ t ∈ s.texts, t.Plain)
    (hsize : ∀ b ∈ ((body steps).run a).1, b.code.length < 65536) (ha : Entered a cs) :
    ∃ more, Entered ((body steps).run a).2 (cs ++ more) ∧
      outline ((body steps).run a).2 = outline a ∧ (∀ b ∈ ((body steps).run a).1, b.Writable) ∧
      Always (cs ++ more) fun pool => Option.Rel (OfSteps pool) (steps.map (place a {}))
        (((body steps).run a).1.map Body.toCode) := by
  cases steps with
  | none =>
    refine ⟨[], ?_, rfl, nofun, fun _ _ => .none⟩
    rwa [List.append_nil]
  | some steps =>
    have hlines := table_steps lines_step a {} steps
    have hhandlers := table_steps handlers_step a {} steps
    have hfits : ((steps.foldlM step {}).run a).1.code.length < 65536 := hsize _ rfl
    obtain ⟨more, hentered, hsame, hemitted⟩ := emitted_steps hvalid.1 hplain ha {}
    refine ⟨more, hentered, hsame, ?_, fun later hlater => .some ?_⟩
    · rintro _ ⟨⟩
      exact writable_steps hvalid hplain hfits
    · obtain ⟨is, his, hcode⟩ := hemitted later hlater
      rw [Option.getD_some] at his hcode
      rw [List.nil_append] at hlines hhandlers hcode
      refine ⟨is, his, hcode ▸ hfits, ?_⟩
      change ((steps.foldlM step {}).run a).1.toCode = _
      rw [Body.toCode, hlines, hhandlers, hcode]

/-- The octets of a method are read as its names and the code of its steps. -/
theorem exists_method {access : UInt16} {name descriptor : Text} {steps : Option (List BodyStep)}
    (hname : name.Plain) (hdescriptor : descriptor.Plain) (hvalid : ValidBody (steps.getD []))
    (hplain : ∀ s ∈ steps.getD [], ∀ t ∈ s.texts, t.Plain)
    (hsize : ∀ n ∈ ((method access name descriptor steps).run a).1, n < 65536)
    (ha : Entered a cs) :
    ∃ more, Entered ((method access name descriptor steps).run a).2 (cs ++ more) ∧
      ∃ (b : Assembler) (octets : Bytes), outline b = outline a ∧
        ((method access name descriptor steps).run a).2 =
          { b with methods := b.methods ++ [octets] } ∧
        Always (cs ++ more) fun pool => ∃ code : Option Code,
          Reads (Member.read pool true) octets ⟨access, name, descriptor, code⟩ ∧
          Option.Rel (OfSteps pool)
            (steps.map (place ((memberHead access name descriptor).run a).2 {})) code := by
  let head := (memberHead access name descriptor).run a
  let assembled := (body steps).run head.2
  let attributes := (bodyAttributes assembled.1).run assembled.2
  have hrun : (method access name descriptor steps).run a =
      (assembled.1.map fun b => b.code.length,
        { attributes.2 with methods := attributes.2.methods ++ [head.1 ++ attributes.1] }) := rfl
  obtain ⟨first, hentered, hsame, hhead⟩ :=
    enters_memberHead (p := fun _ => True) access hname hdescriptor a cs ha fun _ _ => trivial
  have hfits : ∀ b ∈ assembled.1, b.code.length < 65536 := by
    intro b hb
    rw [hrun] at hsize
    exact hsize _ (Option.mem_map_of_mem _ hb)
  obtain ⟨second, hentered', hsame', hwritable, hcode⟩ := exists_body hvalid hplain hfits hentered
  obtain ⟨third, hentered'', hsame'', hattributes⟩ :=
    enters_bodyAttributes (p := fun _ => True) hwritable _ _ hentered' fun _ _ => trivial
  rw [hrun]
  refine ⟨first ++ (second ++ third), ?_, attributes.2, head.1 ++ attributes.1,
    hsame''.trans (hsame'.trans hsame), rfl, ?_⟩
  · rw [← List.append_assoc, ← List.append_assoc]
    exact ⟨hentered''.pool, hentered''.slots, hentered''.plain, hentered''.labels⟩
  · -- Head and body were assembled with smaller pools; what they entered is in the last one too.
    intro later hlater
    rw [← List.append_assoc, ← List.append_assoc] at hlater ⊢
    obtain ⟨i, j, hoctets, hi, hj⟩ := (hhead.append second).append third later hlater
    obtain ⟨count, parts, codes, hparts, hlast, hcodes⟩ := hattributes later hlater
    have hmember := Member.reads access hi hj (hcodes name descriptor)
    refine ⟨assembled.1.map Body.toCode, ?_, (hcode.append third) later hlater⟩
    rw [hoctets, hparts, ← hlast]
    exact hmember

end Assembler

end JvmLinkage
