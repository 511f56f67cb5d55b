import JvmLinkage.Proofs.Assembler.Members
import JvmLinkage.Proofs.Declared.References

/-!
# References of assembled bodies

Walking the code of an assembled body meets the instructions of its steps in order, and each gives the
call, the access or the class that its step names, with the line in force and the exceptions caught
around it.
-/

namespace JvmLinkage

/-! ## Names that can be read -/

theorem eq_ok_of_isOk {ε α : Type} [Inhabited α] {r : Except ε α} (h : r.isOk = true) :
    r = .ok (r.toOption.getD default) := by
  cases r with
  | error e => cases h
  | ok a => rfl

theorem ClassName.parse_of_isOk {name : Text} (h : (ClassName.parse name).isOk) :
    ClassName.parse name = .ok (.ofSlashed name) := by
  unfold ClassName.parse at h ⊢
  split at h
  · cases h
  · split at h
    · cases h
    · rename_i hne hend
      rw [if_neg hne, if_neg hend]
      rfl

/-- Whether a signature can be read does not depend on the static flag. -/
theorem Method.parse_of_isOk {raw name : Text} (h : (Method.parse raw name false).isOk)
    (static : Bool) : Method.parse raw name static = .ok (.ofRaw raw name static) := by
  obtain ⟨found, hfound⟩ : ∃ found, Method.parse raw name false = .ok found := ⟨_, eq_ok_of_isOk h⟩
  obtain ⟨hspelled, rfl, -⟩ := spelled_of_parse hfound
  have hparse : Method.parse raw found.name static = .ok { found with static } :=
    parse_of_spelled (m := { found with static }) hspelled
  rw [Method.ofRaw, hparse]
  rfl

/-! ## Opcodes -/

namespace MethodUse

/-- What is written as a call is taken for one. -/
theorem opcode_mem (use : MethodUse) :
    use.opcode ∈ [Opcode.invokeVirtual, Opcode.invokeSpecial, Opcode.invokeStatic] := by
  cases use <;> decide

theorem opcode_eq_invokeStatic_iff {use : MethodUse} :
    use.opcode = Opcode.invokeStatic ↔ use = static := by
  cases use <;> decide

theorem arity?_opcode (use : MethodUse) : Opcode.arity? use.opcode = some 2 := by
  cases use <;> decide

end MethodUse

namespace FieldUse

/-- What is written as the use of a field is taken for one. -/
theorem opcode_mem (use : FieldUse) :
    use.opcode ∈ [Opcode.getStatic, Opcode.putStatic, Opcode.getField] := by
  cases use <;> decide

theorem opcode_static_iff {use : FieldUse} :
    use.opcode = Opcode.getStatic ∨ use.opcode = Opcode.putStatic ↔ use ≠ getField := by
  cases use <;> decide

theorem arity?_opcode (use : FieldUse) : Opcode.arity? use.opcode = some 2 := by
  cases use <;> decide

end FieldUse

/-! ## Walking the code -/

variable {pool : ConstantPool}

theorem Instruction.arity?_of_encodes {i : Instruction} {s : BodyStep}
    (h : i.Encodes pool s) : Opcode.arity? i.opcode = some i.operands.length := by
  have hload {item : PoolItem} (hloads : i.Loads pool item) :
      Opcode.arity? i.opcode = some i.operands.length := by
    rcases hloads with ⟨hopcode, hlength, -⟩ | ⟨hopcode, hlength, -⟩
    · rw [hopcode, hlength]
      decide
    · rw [hopcode, hlength]
      decide
  cases s with
  | invokeInterface owner name descriptor slots =>
    rw [h.1, h.2.1]
    decide
  | invoke use owner name descriptor | access use owner name descriptor =>
    rw [h.1, h.2.1]
    exact use.arity?_opcode
  | classLiteral name => exact hload h
  | stringLiteral s => exact hload h
  | pop =>
    rw [h.1, h.2]
    decide
  | returnVoid =>
    rw [h.1, h.2]
    decide
  | emit opcode operands => exact absurd h id
  | line n => exact absurd h id
  | guarded start stop target catchType => exact absurd h id
  | constant item => exact absurd h id

namespace Emitted

variable {pc : Nat} {steps : List Placed} {is : List Instruction}

theorem walkFrom_eq (h : Emitted pool pc steps is) (size : Nat) :
    Instruction.walkFrom size pc (is.flatMap Instruction.bytes) = (is, none) := by
  induction h with
  | nil => rw [List.flatMap_nil, Instruction.walkFrom]
  | mark _ _ ih => exact ih
  | instruction _ hpc hencodes _ ih =>
    have harity := Instruction.arity?_of_encodes hencodes
    subst hpc
    rw [List.flatMap_cons,
      Instruction.walkFrom_bytes_append (Instruction.operandCount_of_arity? harity _ _), ih]

/-- The steps stand in order between the ends of the code. -/
theorem pc_mem (h : Emitted pool pc steps is) :
    ∀ s ∈ steps, pc ≤ s.pc ∧ s.pc ≤ pc + (is.flatMap Instruction.bytes).length := by
  induction h with
  | nil => simp
  | mark _ _ ih =>
    intro s hs
    rcases List.mem_cons.mp hs with rfl | hs
    · simp
    · exact ih s hs
  | instruction _ _ _ _ ih =>
    intro s hs
    rw [List.flatMap_cons, List.length_append]
    rcases List.mem_cons.mp hs with rfl | hs
    · simp
    · have hrest := ih s hs
      omega

end Emitted

/-! ## Lines and guards -/

theorem toNat_lowWord {n : Int} (h : IsWord n) : ((lowWord n).toNat : Int) = n := by
  obtain ⟨hlow, hhigh⟩ := h
  have hmod : n % 65536 = n := Int.emod_eq_of_lt hlow hhigh
  have hfits : n.toNat < 65536 := by omega
  rw [lowWord, hmod, UInt16.toNat_ofNat_of_lt' hfits]
  omega

namespace Decoder

theorem lineAt?_append_of_ne {front back : List LineEntry} {pc : Nat}
    (h : ∀ e ∈ back, e.start.toNat ≠ pc) : lineAt? (front ++ back) pc = lineAt? front pc := by
  have hback : back.filter (fun e => e.start.toNat = pc) = [] := by
    simpa [List.filter_eq_nil_iff] using h
  rw [lineAt?, lineAt?, List.filter_append, hback, List.append_nil]

theorem lineAt?_append_singleton (front : List LineEntry) (e : LineEntry) :
    lineAt? (front ++ [e]) e.start.toNat = some (e.line.toNat : Int) := by
  simp [lineAt?]

end Decoder

theorem catches?_eq {s : Placed} (h : s.step.Valid) (pc : Nat) :
    ((Assembler.handlerOf? s).filter fun e => !e.catchType.isEmpty && e.protects pc).map
      (fun e => ClassName.ofSlashed e.catchType) = s.step.catches? pc := by
  obtain ⟨position, step⟩ := s
  cases step with
  | guarded start stop target catchType =>
    obtain ⟨hstart, hstop, -, -⟩ := h
    simp only [Assembler.handlerOf?, BodyStep.catches?, ExceptionHandler.protects,
      toNat_lowWord hstart, toNat_lowWord hstop, Option.filter_some, Bool.and_assoc]
    split <;> rfl
  | _ => rfl

theorem isOk_of_handlerOf? {s : Placed} {e : ExceptionHandler}
    (h : Assembler.handlerOf? s = some e) (hvalid : s.step.Valid) :
    e.catchType = [] ∨ (ClassName.parse e.catchType).isOk := by
  obtain ⟨position, step⟩ := s
  cases step with
  | guarded start stop target catchType =>
    cases h
    exact hvalid.2.2.2
  | _ => cases h

section Decoding

variable {m : Type → Type} [Monad m] [DescriptorSource m] [FaithfulSource m]

open Decoder

theorem yields_className {name : Text} (h : (ClassName.parse name).isOk) (places : List Place) :
    Yields (descriptor (m := m) places (DescriptorSource.className name))
      (.ok (.ofSlashed name)) := by
  have hname := FaithfulSource.yields_className (m := m) name
  rw [ClassName.parse_of_isOk h] at hname
  exact hname.descriptor_ok

theorem yields_method {raw name : Text} (h : (Method.parse raw name false).isOk) (static : Bool)
    (places : List Place) :
    Yields (descriptor (m := m) places (DescriptorSource.method raw name static))
      (.ok (.ofRaw raw name static)) := by
  have hmethod := FaithfulSource.yields_method (m := m) raw name static
  rw [Method.parse_of_isOk h] at hmethod
  exact hmethod.descriptor_ok

theorem yields_field {name raw : Text} (h : (Field.parse name raw).isOk) (places : List Place) :
    Yields (descriptor (m := m) places (DescriptorSource.field name raw)) (.ok (.ofRaw name raw)) := by
  have hfield := FaithfulSource.yields_field (m := m) name raw
  rw [eq_ok_of_isOk h] at hfield
  exact hfield.descriptor_ok

theorem yields_constant {α : Type} {r : Except Fault α} {a : α} (h : r = .ok a)
    (places : List Place) : Yields (constant (m := m) places r) (.ok a) := by
  rw [h]
  exact .pure a

/-- The exceptions caught around a position are those that the guards of the body name. -/
theorem yields_caughtAt {body : List Placed} (h : ∀ s ∈ body, s.step.Valid) (pc : Nat) :
    Yields (caughtAt (m := m) (body.filterMap Assembler.handlerOf?) pc)
      (.ok (caughtAround body pc)) := by
  have hguards : ((body.filterMap Assembler.handlerOf?).filter fun e =>
      !e.catchType.isEmpty && e.protects pc).map (fun e => ClassName.ofSlashed e.catchType) =
      body.filterMap fun s => s.step.catches? pc := by
    rw [List.filter_filterMap, List.map_filterMap]
    exact List.filterMap_congr fun s hs => catches?_eq (h s hs) pc
  have hnamed : ∀ e ∈ (body.filterMap Assembler.handlerOf?).filter fun e =>
      !e.catchType.isEmpty && e.protects pc, (ClassName.parse e.catchType).isOk := by
    intro e he
    obtain ⟨hmem, hcondition⟩ := List.mem_filter.mp he
    obtain ⟨s, hs, hmade⟩ := List.mem_filterMap.mp hmem
    have hnonempty : e.catchType ≠ [] := by
      rintro hempty
      simp [hempty] at hcondition
    exact (isOk_of_handlerOf? hmade (h s hs)).resolve_left hnonempty
  refine (Yields.mapM_ok fun e he => yields_className (hnamed e he) _).bind_ok ?_
  rw [caughtAround, ← hguards]
  exact .pure _

/-! ## What one instruction refers to -/

section Visit

variable {body : List Placed} (hbody : ∀ s ∈ body, s.step.Valid) (line : Int) {i : Instruction}
  {owner name raw : Text} {tag : Tag}

include hbody

theorem yields_call? (hmember : pool.memberRef i.index2 = .ok ⟨tag, owner, name, raw⟩)
    (howner : NamesOwner owner) (hraw : (Method.parse raw name false).isOk) :
    Yields (call? (m := m) pool (body.filterMap Assembler.handlerOf?) line i)
      (.ok (Spot.callOf? body i.pc line owner
        (.ofRaw raw name (i.opcode = Opcode.invokeStatic)))) := by
  refine (yields_constant hmember _).bind_ok ?_
  dsimp only
  unfold Spot.callOf?
  split
  case isTrue => exact .pure none
  case isFalse hskipped =>
    have hclass : (ClassName.parse owner).isOk := by
      refine howner.resolve_left fun harray => hskipped ?_
      simp [harray]
    refine (yields_className hclass _).bind_ok ((yields_method hraw _ _).bind_ok ?_)
    exact (yields_caughtAt hbody i.pc).bind_ok (.pure _)

theorem yields_access? {use : FieldUse} (hopcode : i.opcode = use.opcode)
    (hmember : pool.memberRef i.index2 = .ok ⟨tag, owner, name, raw⟩)
    (howner : NamesOwner owner) (hraw : (Field.parse name raw).isOk) :
    Yields (access? (m := m) pool (body.filterMap Assembler.handlerOf?) line i)
      (.ok (Spot.access? body ⟨i.pc, line, .access use owner name raw⟩)) := by
  have hstatic : (i.opcode = Opcode.getStatic || i.opcode = Opcode.putStatic) =
      decide (use ≠ .getField) := by
    rw [hopcode, ← Bool.decide_or]
    exact decide_eq_decide.mpr FieldUse.opcode_static_iff
  refine (yields_constant hmember _).bind_ok ?_
  dsimp only [Spot.access?]
  rw [hstatic]
  split
  case isTrue => exact .pure none
  case isFalse hskipped =>
    have hclass : (ClassName.parse owner).isOk := howner.resolve_left hskipped
    refine (yields_className hclass _).bind_ok ((yields_field hraw _).bind_ok ?_)
    exact (yields_caughtAt hbody i.pc).bind_ok (.pure _)

end Visit

theorem yields_load? {index : UInt16} {name : Text}
    (hclass : (PoolItem.classRef name).Resolves pool index)
    (hvalid : (BodyStep.classLiteral name).Valid) (pc : Nat) (line : Int) :
    Yields (load? (m := m) pool index) (.ok (Spot.load? ⟨pc, line, .classLiteral name⟩)) := by
  obtain ⟨text, hget, htext⟩ := hclass
  refine (yields_constant hget _).bind_ok ((yields_constant htext _).bind_ok ?_)
  simp only [BodyStep.Valid] at hvalid
  dsimp only [Spot.load?]
  split at hvalid
  case isTrue harray =>
    have htype := FaithfulSource.yields_fieldType (m := m) name
    rw [eq_ok_of_isOk hvalid] at htype
    rw [if_pos harray, if_pos harray]
    refine htype.descriptor_ok.bind_ok ?_
    rw [FieldType.ofRaw]
    cases (FieldType.parse name).toOption.getD default with
    | plain e => exact .pure none
    | array e n =>
      cases e with
      | primitive p => exact .pure none
      | reference c => exact .pure (some c)
  case isFalse hname =>
    rw [if_neg hname, if_neg hname]
    exact (yields_className hvalid _).map some

theorem yields_load?_string {index : UInt16} {s : Text}
    (hstring : (PoolItem.string s).Resolves pool index) :
    Yields (load? (m := m) pool index) (.ok none) := by
  obtain ⟨text, hget, -⟩ := hstring
  exact (yields_constant hget _).bind_ok (.pure none)

/-- What is collected when an instruction has been visited. -/
def visited (body : List Placed) (e : Evidence) (s : Spot) : Evidence where
  line := s.line
  calls := e.calls ++ (s.call? body).toList
  accesses := e.accesses ++ (s.access? body).toList
  loads := e.loads ++ s.load?.toList

theorem foldl_visited (body : List Placed) (e : Evidence) (spots : List Spot) :
    spots.foldl (visited body) e = {
      line := (spots.getLast?.map Spot.line).getD e.line
      calls := e.calls ++ spots.filterMap (Spot.call? body)
      accesses := e.accesses ++ spots.filterMap (Spot.access? body)
      loads := e.loads ++ spots.filterMap Spot.load? } := by
  have append {α β : Type} (f : α → Option β) (front : List β) (a : α) (rest : List α) :
      front ++ (f a).toList ++ rest.filterMap f = front ++ (a :: rest).filterMap f := by
    rw [List.filterMap_cons]
    cases f a <;> simp
  induction spots generalizing e with
  | nil => simp
  | cons s rest ih =>
    rw [List.foldl_cons, ih]
    simp only [visited, append]
    cases rest with
    | nil => rfl
    | cons next rest => simp [List.getLast?_cons]

section Kinds

variable {code : Code} {i : Instruction} {e : Evidence} {line : Int}
  (hline : (lineAt? code.lines i.pc).getD e.line = line)

include hline

theorem yields_visit_of_invocation
    (hopcode : i.opcode ∈ [Opcode.invokeVirtual, Opcode.invokeSpecial, Opcode.invokeStatic,
      Opcode.invokeInterface])
    {call : Option Call} (h : Yields (call? (m := m) pool code.handlers line i) (.ok call)) :
    Yields (visit (m := m) pool code e i)
      (.ok { e with line, calls := e.calls ++ call.toList }) := by
  have hinvoke : (i.opcode = Opcode.invokeVirtual || i.opcode = Opcode.invokeSpecial
      || i.opcode = Opcode.invokeStatic || i.opcode = Opcode.invokeInterface) = true := by
    simpa [or_assoc] using hopcode
  unfold visit
  dsimp only
  rw [hline, if_pos hinvoke]
  exact h.bind_ok (.pure _)

theorem yields_visit_of_field
    (hopcode : i.opcode ∈ [Opcode.getStatic, Opcode.putStatic, Opcode.getField])
    {access : Option Access} (h : Yields (access? (m := m) pool code.handlers line i) (.ok access)) :
    Yields (visit (m := m) pool code e i)
      (.ok { e with line, accesses := e.accesses ++ access.toList }) := by
  have hkind : ∀ opcode ∈ [Opcode.getStatic, Opcode.putStatic, Opcode.getField],
      ¬ (opcode = Opcode.invokeVirtual || opcode = Opcode.invokeSpecial
        || opcode = Opcode.invokeStatic || opcode = Opcode.invokeInterface) = true ∧
      (opcode = Opcode.getStatic || opcode = Opcode.putStatic || opcode = Opcode.getField
        || opcode = Opcode.putField) = true := by
    rw [List.forall_mem_cons, List.forall_mem_cons, List.forall_mem_singleton]
    decide
  obtain ⟨hother, hfield⟩ := hkind i.opcode hopcode
  unfold visit
  dsimp only
  rw [hline, if_neg hother, if_pos hfield]
  exact h.bind_ok (.pure _)

/-- A literal is loaded by one of two instructions. -/
theorem yields_visit_of_loads {item : PoolItem} (h : i.Loads pool item) {load : Option ClassName}
    (hload : ∀ index, item.Resolves pool index → Yields (load? (m := m) pool index) (.ok load)) :
    Yields (visit (m := m) pool code e i)
      (.ok { e with line, loads := e.loads ++ load.toList }) := by
  unfold visit
  dsimp only
  rw [hline]
  rcases h with ⟨hopcode, -, hindex⟩ | ⟨hopcode, -, hindex⟩
  · rw [hopcode, if_neg (by decide), if_neg (by decide), if_pos rfl]
    exact (hload _ hindex).bind_ok (.pure _)
  · rw [hopcode, if_neg (by decide), if_neg (by decide), if_neg (by decide), if_pos rfl]
    exact (hload _ hindex).bind_ok (.pure _)

theorem yields_visit_of_plain (hopcode : i.opcode ∈ [Opcode.pop, Opcode.returnVoid]) :
    Yields (visit (m := m) pool code e i) (.ok { e with line }) := by
  have hplain : ∀ opcode ∈ [Opcode.pop, Opcode.returnVoid],
      ¬ (opcode = Opcode.invokeVirtual || opcode = Opcode.invokeSpecial
        || opcode = Opcode.invokeStatic || opcode = Opcode.invokeInterface) = true ∧
      ¬ (opcode = Opcode.getStatic || opcode = Opcode.putStatic || opcode = Opcode.getField
        || opcode = Opcode.putField) = true ∧ opcode ≠ Opcode.ldc ∧ opcode ≠ Opcode.ldcWide := by
    rw [List.forall_mem_cons, List.forall_mem_singleton]
    decide
  obtain ⟨hinvoke, hfield, hldc, hwide⟩ := hplain i.opcode hopcode
  unfold visit
  dsimp only
  rw [hline, if_neg hinvoke, if_neg hfield, if_neg hldc, if_neg hwide]
  exact .pure _

end Kinds

/-- Visiting an instruction collects what its step refers to. -/
theorem yields_visit {body : List Placed} (hbody : ∀ s ∈ body, s.step.Valid) {code : Code}
    (hhandlers : code.handlers = body.filterMap Assembler.handlerOf?) {s : BodyStep}
    (hvalid : s.Valid) {i : Instruction} (hencodes : i.Encodes pool s) {e : Evidence} {line : Int}
    (hline : (lineAt? code.lines i.pc).getD e.line = line) :
    Yields (visit (m := m) pool code e i) (.ok (visited body e ⟨i.pc, line, s⟩)) := by
  cases s with
  | emit opcode operands => exact absurd hvalid id
  | line n => exact absurd hencodes id
  | guarded start stop target catchType => exact absurd hencodes id
  | constant item => exact absurd hencodes id
  | invoke use owner name descriptor =>
    obtain ⟨hopcode, -, hmember⟩ := hencodes
    obtain ⟨-, howner, hraw⟩ := hvalid
    have hcall := yields_call? (m := m) hbody line hmember howner hraw
    rw [← hhandlers] at hcall
    have hinvoke := List.mem_append_left [Opcode.invokeInterface] (hopcode ▸ use.opcode_mem)
    have hvisit := yields_visit_of_invocation hline hinvoke hcall
    simpa [visited, Spot.call?, Spot.access?, Spot.load?, hopcode,
      MethodUse.opcode_eq_invokeStatic_iff] using hvisit
  | invokeInterface owner name descriptor slots =>
    obtain ⟨hopcode, -, hmember⟩ := hencodes
    obtain ⟨-, howner, hraw⟩ := hvalid
    have hinstance : ¬ Opcode.invokeInterface = Opcode.invokeStatic := by decide
    have hcall := yields_call? (m := m) hbody line hmember howner hraw
    rw [← hhandlers] at hcall
    have hvisit := yields_visit_of_invocation hline (by simp [hopcode]) hcall
    simpa [visited, Spot.call?, Spot.access?, Spot.load?, hopcode, hinstance] using hvisit
  | access use owner name descriptor =>
    obtain ⟨hopcode, -, hmember⟩ := hencodes
    obtain ⟨-, howner, hraw⟩ := hvalid
    have haccess := yields_access? (m := m) hbody line hopcode hmember howner hraw
    rw [← hhandlers] at haccess
    have hvisit := yields_visit_of_field hline (hopcode ▸ use.opcode_mem) haccess
    simpa [visited, Spot.call?, Spot.load?] using hvisit
  | classLiteral name =>
    have hvisit := yields_visit_of_loads (m := m) hline hencodes fun _ hclass =>
      yields_load? hclass hvalid i.pc line
    simpa [visited, Spot.call?, Spot.access?] using hvisit
  | stringLiteral s =>
    have hvisit := yields_visit_of_loads (m := m) hline hencodes fun _ hs => yields_load?_string hs
    simpa [visited, Spot.call?, Spot.access?, Spot.load?] using hvisit
  | pop =>
    have hvisit : Yields (visit (m := m) pool code e i) _ :=
      yields_visit_of_plain hline (by simp [hencodes.1])
    simpa [visited, Spot.call?, Spot.access?, Spot.load?] using hvisit
  | returnVoid =>
    have hvisit : Yields (visit (m := m) pool code e i) _ :=
      yields_visit_of_plain hline (by simp [hencodes.1])
    simpa [visited, Spot.call?, Spot.access?, Spot.load?] using hvisit

/-! ## What a body refers to -/

/-- A step that is taken at a position changes the line in force there, if it is a mark of one. -/
theorem lineAt?_step {s : BodyStep} (h : s.Valid) {pc : Nat} (hpc : pc < 65536)
    (front : List LineEntry) (before : Int) :
    (lineAt? (front ++ (Assembler.lineOf? ⟨pc, s⟩).toList) pc).getD before =
      s.lineAfter ((lineAt? front pc).getD before) := by
  cases s with
  | line n =>
    have hentry := lineAt?_append_singleton front ⟨pc.toUInt16, lowWord n⟩
    rw [UInt16.toNat_ofNat_of_lt' hpc, toNat_lowWord h] at hentry
    rw [Assembler.lineOf?, Option.toList_some, hentry]
    rfl
  | _ => simp only [Assembler.lineOf?, Option.toList_none, List.append_nil, BodyStep.lineAfter]

theorem start_of_lineOf? {s : Placed} {entry : LineEntry} (h : Assembler.lineOf? s = some entry)
    (hpc : s.pc < 65536) : entry.start.toNat = s.pc := by
  obtain ⟨pc, step⟩ := s
  cases step with
  | line n =>
    cases h
    exact UInt16.toNat_ofNat_of_lt' hpc
  | _ => cases h

/-- Lines that are marked later do not start at a position before. -/
theorem Emitted.lineAt?_append_of_lt {start pc : Nat} {steps : List Placed} {is : List Instruction}
    (h : Emitted pool start steps is)
    (hfits : start + (is.flatMap Instruction.bytes).length < 65536) (hlt : pc < start)
    (front : List LineEntry) :
    lineAt? (front ++ steps.filterMap Assembler.lineOf?) pc = lineAt? front pc := by
  refine Decoder.lineAt?_append_of_ne fun entry hentry => ?_
  obtain ⟨s, hs, hmade⟩ := List.mem_filterMap.mp hentry
  obtain ⟨hlow, hhigh⟩ := h.pc_mem s hs
  rw [start_of_lineOf? hmade (by omega)]
  omega

theorem not_line_of_isInstruction {s : BodyStep} (h : s.isInstruction = true) (pc : Nat)
    (line : Int) : Assembler.lineOf? ⟨pc, s⟩ = none ∧ s.lineAfter line = line := by
  cases s with
  | line n => cases h
  | _ => exact ⟨rfl, rfl⟩

/-- The instructions of a body are visited one after the other. The entries of the table of lines are
split where the walk stands: those up to there decide the line in force, and later ones do not
matter yet. -/
theorem yields_visits {body : List Placed} (hbody : ∀ s ∈ body, s.step.Valid) {code : Code}
    (hhandlers : code.handlers = body.filterMap Assembler.handlerOf?) {pc : Nat}
    {steps : List Placed} {is : List Instruction} (h : Emitted pool pc steps is)
    (hvalid : ∀ s ∈ steps, s.step.Valid)
    (hfits : pc + (is.flatMap Instruction.bytes).length < 65536) {front : List LineEntry}
    (hfront : ∀ entry ∈ front, entry.start.toNat ≤ pc)
    (hlines : code.lines = front ++ steps.filterMap Assembler.lineOf?) {e : Evidence} {line : Int}
    (hline : (lineAt? front pc).getD e.line = line) :
    Yields (is.foldlM (visit (m := m) pool code) e)
      (.ok ((spotsFrom line steps).foldl (visited body) e)) := by
  induction h generalizing front e line with
  | nil => exact .pure e
  | @mark pc step rest is hmark hrest ih =>
    have hspots : spotsFrom line (⟨pc, step⟩ :: rest) = spotsFrom (step.lineAfter line) rest := by
      simp [spotsFrom, hmark]
    have hhere : pc < 65536 := by omega
    -- The entry of the mark, if it has one, joins those that have been passed.
    have hfront' : ∀ entry ∈ front ++ (Assembler.lineOf? ⟨pc, step⟩).toList,
        entry.start.toNat ≤ pc := by
      intro entry hentry
      rcases List.mem_append.mp hentry with hentry | hentry
      · exact hfront entry hentry
      · exact Nat.le_of_eq (start_of_lineOf? (Option.mem_toList.mp hentry) hhere)
    rw [hspots]
    refine ih (fun s hs => hvalid s (by simp [hs])) hfits hfront' ?_ ?_
    · rw [hlines, List.filterMap_cons]
      cases Assembler.lineOf? ⟨pc, step⟩ <;> simp
    · rw [lineAt?_step (hvalid _ List.mem_cons_self) hhere, hline]
  | @instruction pc step rest i is hinstruction hpc hencodes hrest ih =>
    obtain ⟨hnone, hafter⟩ := not_line_of_isInstruction hinstruction pc line
    have hspots : spotsFrom line (⟨pc, step⟩ :: rest) = ⟨pc, line, step⟩ :: spotsFrom line rest := by
      simp [spotsFrom, hinstruction, hafter]
    rw [List.filterMap_cons_none hnone] at hlines
    rw [List.flatMap_cons, List.length_append] at hfits
    have hbytes : 0 < i.bytes.length := by simp [Instruction.bytes]
    have hvisit : (lineAt? code.lines i.pc).getD e.line = line := by
      rw [hlines, hpc, hrest.lineAt?_append_of_lt (by omega) (by omega), hline]
    -- No entry passed so far starts a line at the next position, so the line stays in force there.
    have hpast : lineAt? front (pc + i.bytes.length) = none := by
      refine lineAt?_eq_none_iff.mpr fun entry hentry => ?_
      have hle := hfront entry hentry
      omega
    rw [hspots, List.foldl_cons, ← hpc]
    refine (yields_visit hbody hhandlers (hvalid _ List.mem_cons_self) hencodes hvisit).bind_ok ?_
    refine ih (fun s hs => hvalid s (by simp [hs])) (by omega) ?_ hlines ?_
    · intro entry hentry
      have hle := hfront entry hentry
      omega
    · rw [hpast]
      rfl

end Decoding

end JvmLinkage
