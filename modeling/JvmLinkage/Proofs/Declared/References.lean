import JvmLinkage.Proofs.Declared.Decoding
import JvmLinkage.Proofs.Instruction.Walk

/-!
# References of method bodies

What a method refers to is said here without the walk that collects it: which instructions are sites
of a reference, the line in force as a property of the entries for lines, and the caught exceptions
as a property of the handlers. Decoding a method gives a reference for each site, with the evidence
that belongs there, whatever tables of descriptors are used.
-/

namespace JvmLinkage

namespace Decoder

/-! ## Sites -/

/-- One entry for each site among instructions, in their order. -/
inductive Entries {α : Type} (site : Instruction → Prop) (evidence : Instruction → α → Prop) :
    List Instruction → List α → Prop where
  | nil : Entries site evidence [] []
  | other {i : Instruction} {is : List Instruction} {entries : List α} :
      ¬ site i → Entries site evidence is entries → Entries site evidence (i :: is) entries
  | site {i : Instruction} {is : List Instruction} {entry : α} {entries : List α} :
      site i → evidence i entry → Entries site evidence is entries →
        Entries site evidence (i :: is) (entry :: entries)

/-- Opcodes that invoke a method. -/
def invocations : List UInt8 :=
  [Opcode.invokeVirtual, Opcode.invokeSpecial, Opcode.invokeStatic, Opcode.invokeInterface]

/-- Opcodes that read or write a field. -/
def fieldAccesses : List UInt8 :=
  [Opcode.getStatic, Opcode.putStatic, Opcode.getField, Opcode.putField]

/-- An owner that could declare what is called: no array, and no class whose methods take any
signature. -/
structure Declaring (owner : Text) : Prop where
  not_array : owner.head? ≠ some Ascii.openBracket
  ne_methodHandle : owner ≠ "java/lang/invoke/MethodHandle"
  ne_varHandle : owner ≠ "java/lang/invoke/VarHandle"

/-- An invocation whose owner could declare the method. -/
def IsCall (pool : ConstantPool) (i : Instruction) : Prop :=
  i.opcode ∈ invocations ∧ ∃ ref, pool.memberRef i.index2 = .ok ref ∧ Declaring ref.owner

/-- A field instruction whose owner is no array. -/
def IsAccess (pool : ConstantPool) (i : Instruction) : Prop :=
  i.opcode ∈ fieldAccesses ∧ ∃ ref, pool.memberRef i.index2 = .ok ref ∧
    ref.owner.head? ≠ some Ascii.openBracket

/-- The constant of a class, with the name that it holds. -/
def ClassConstant (pool : ConstantPool) (index : UInt16) (name : Text) : Prop :=
  ∃ nameIndex, pool.get index = .ok (.classRef nameIndex) ∧ pool.utf8 nameIndex = .ok name

/-- An instruction loads the constant of a class. -/
def LoadsConstant (pool : ConstantPool) (i : Instruction) (name : Text) : Prop :=
  i.opcode = Opcode.ldc ∧ ClassConstant pool i.index1 name ∨
    i.opcode = Opcode.ldcWide ∧ ClassConstant pool i.index2 name

/-- A literal of a class, or of an array with a class at its bottom. -/
def IsLiteral (pool : ConstantPool) (i : Instruction) : Prop :=
  ∃ name, LoadsConstant pool i name ∧ (name.head? = some Ascii.openBracket →
    ∃ c dims, FieldType.parse name = .ok (.array (.reference c) dims))

/-! ## Evidence -/

/-- The line in force: of the entries that start where an instruction begins, that with the greatest
start counts, and of several such entries the last. -/
inductive InForce (begins : Nat → Prop) (lines : List LineEntry) : Int → Prop where
  | initial : (∀ e ∈ lines, ¬ begins e.start.toNat) → InForce begins lines 0
  | entry {before after : List LineEntry} {e : LineEntry} :
      lines = before ++ e :: after → begins e.start.toNat →
        (∀ f ∈ before, begins f.start.toNat → f.start.toNat ≤ e.start.toNat) →
          (∀ f ∈ after, begins f.start.toNat → f.start.toNat < e.start.toNat) →
            InForce begins lines e.line.toNat

/-- An instruction begins at a position. -/
def Begins (is : List Instruction) (position : Nat) : Prop := ∃ i ∈ is, i.pc = position

/-- The classes that the handlers around a position catch, each once and in order. -/
structure Caught (handlers : List ExceptionHandler) (pc : Nat) (caught : List ClassName) :
    Prop where
  ordered : Ascending.Ordered compare caught
  mem_iff (c : ClassName) : c ∈ caught ↔ ∃ h ∈ handlers, h.catchType ≠ [] ∧ h.start.toNat ≤ pc ∧
    pc < h.stop.toNat ∧ ClassName.parse h.catchType = .ok c

/-- A call says what its instruction refers to, where it stands and what is caught there. -/
structure CallEvidence (pool : ConstantPool) (code : Code) (is : List Instruction) (i : Instruction)
    (call : Call) : Prop where
  resolved : ∃ ref, pool.memberRef i.index2 = .ok ref ∧ ClassName.parse ref.owner = .ok call.owner ∧
    Method.parse ref.descriptor ref.name (i.opcode = Opcode.invokeStatic) = .ok call.method
  static_iff : call.method.static = true ↔ i.opcode = Opcode.invokeStatic
  line : InForce (fun p => p ≤ i.pc ∧ Begins is p) code.lines call.line
  caught : Caught code.handlers i.pc call.caught

/-- An access says what its instruction refers to, where it stands and what is caught there. -/
structure AccessEvidence (pool : ConstantPool) (code : Code) (is : List Instruction)
    (i : Instruction) (access : Access) : Prop where
  resolved : ∃ ref, pool.memberRef i.index2 = .ok ref ∧
    ClassName.parse ref.owner = .ok access.owner ∧
    Field.parse ref.name ref.descriptor = .ok access.field
  static_iff : access.static = true ↔ i.opcode = Opcode.getStatic ∨ i.opcode = Opcode.putStatic
  line : InForce (fun p => p ≤ i.pc ∧ Begins is p) code.lines access.line
  caught : Caught code.handlers i.pc access.caught

/-- A load is the class of a literal; for an array, that of its elements. -/
inductive LiteralEvidence (pool : ConstantPool) (i : Instruction) (c : ClassName) : Prop where
  | ofClass {name : Text} :
      LoadsConstant pool i name → name.head? ≠ some Ascii.openBracket →
        ClassName.parse name = .ok c → LiteralEvidence pool i c
  | ofArray {name : Text} {dims : Nat} :
      LoadsConstant pool i name → name.head? = some Ascii.openBracket →
        FieldType.parse name = .ok (.array (.reference c) dims) → LiteralEvidence pool i c

/-- What was collected from the first instructions of a body is what they refer to, and the line is
that in force behind them. -/
structure Evidence.Covers (pool : ConstantPool) (code : Code) (is done : List Instruction)
    (e : Evidence) : Prop where
  line : InForce (Begins done) code.lines e.line
  calls : Entries (IsCall pool) (CallEvidence pool code is) done e.calls
  accesses : Entries (IsAccess pool) (AccessEvidence pool code is) done e.accesses
  loads : Entries (IsLiteral pool) (LiteralEvidence pool) done e.loads

/-! ## Entries -/

section Entries

variable {α : Type} {site : Instruction → Prop} {evidence : Instruction → α → Prop}

theorem Entries.append {is js : List Instruction} {front back : List α}
    (h : Entries site evidence is front) (h' : Entries site evidence js back) :
    Entries site evidence (is ++ js) (front ++ back) := by
  induction h with
  | nil => exact h'
  | other hsite _ ih => exact .other hsite ih
  | site hsite hevidence _ ih => exact .site hsite hevidence ih

/-- An instruction that is no site adds nothing. -/
theorem Entries.concat_of_not {is : List Instruction} {entries : List α} {i : Instruction}
    (h : Entries site evidence is entries) (hi : ¬ site i) :
    Entries site evidence (is ++ [i]) entries := by
  have hlast : Entries site evidence [i] [] := .other hi .nil
  simpa using h.append hlast

end Entries

/-! ## Lines -/

section Lines

variable {lines : List LineEntry} {pc : Nat} {begins : Nat → Prop} {line : Int}

theorem lineAt?_eq_some_iff : lineAt? lines pc = some line ↔ ∃ before after e,
    lines = before ++ e :: after ∧ e.start.toNat = pc ∧ (∀ f ∈ after, f.start.toNat ≠ pc) ∧
      (e.line.toNat : Int) = line := by
  rw [lineAt?, Option.map_eq_some_iff, List.getLast?_eq_head?_reverse, ← List.filter_reverse,
    List.head?_filter]
  constructor
  · rintro ⟨e, hfound, hline⟩
    obtain ⟨hstart, front, back, hlines, hfront⟩ := List.find?_eq_some_iff_append.mp hfound
    refine ⟨back.reverse, front.reverse, e, ?_, by simpa using hstart, ?_, hline⟩
    · rw [← List.reverse_reverse lines, hlines]
      simp
    · intro f hf
      simpa using hfront f (List.mem_reverse.mp hf)
  · rintro ⟨before, after, e, rfl, hstart, hafter, hline⟩
    refine ⟨e, List.find?_eq_some_iff_append.mpr ⟨by simpa using hstart, after.reverse,
      before.reverse, by simp, ?_⟩, hline⟩
    intro f hf
    simpa using hafter f (List.mem_reverse.mp hf)

theorem lineAt?_eq_none_iff : lineAt? lines pc = none ↔ ∀ e ∈ lines, e.start.toNat ≠ pc := by
  rw [lineAt?, Option.map_eq_none_iff, List.getLast?_eq_none_iff, List.filter_eq_nil_iff]
  simp

/-- The entries for an instruction behind all others come to be in force there. -/
theorem InForce.next (h : InForce begins lines line) (hpc : ∀ p, begins p → p < pc) :
    InForce (fun p => begins p ∨ p = pc) lines ((lineAt? lines pc).getD line) := by
  cases hline : lineAt? lines pc with
  | some found =>
    obtain ⟨before, after, e, hlines, rfl, hafter, rfl⟩ := lineAt?_eq_some_iff.mp hline
    refine .entry hlines (.inr rfl) ?_ ?_
    · rintro f - (hf | hf)
      · exact Nat.le_of_lt (hpc _ hf)
      · exact Nat.le_of_eq hf
    · rintro f hmem (hf | hf)
      · exact hpc _ hf
      · exact absurd hf (hafter f hmem)
  | none =>
    have hnone := lineAt?_eq_none_iff.mp hline
    cases h with
    | initial hlines =>
      refine .initial ?_
      rintro e he (hbegins | hstart)
      · exact hlines e he hbegins
      · exact hnone e he hstart
    | @entry before after e hlines hbegins hbefore hafter =>
      subst hlines
      refine .entry rfl (.inl hbegins) ?_ ?_
      · rintro f hf (hfront | hstart)
        · exact hbefore f hf hfront
        · exact absurd hstart (hnone f (by simp [hf]))
      · rintro f hf (hback | hstart)
        · exact hafter f hf hback
        · exact absurd hstart (hnone f (by simp [hf]))

theorem begins_concat (is : List Instruction) (i : Instruction) :
    Begins (is ++ [i]) = fun p => Begins is p ∨ p = i.pc := by
  funext p
  simp [Begins, or_and_right, exists_or, eq_comm]

/-- Up to an instruction, the instructions begin that stand before it, and itself. -/
theorem begins_concat_of_front {is done : List Instruction} {i : Instruction}
    (hpcs : is.Pairwise (·.pc < ·.pc)) (h : done ++ [i] <+: is) :
    Begins (done ++ [i]) = fun p => p ≤ i.pc ∧ Begins is p := by
  obtain ⟨left, rfl⟩ := h
  obtain ⟨hfront, -, hleft⟩ := List.pairwise_append.mp hpcs
  obtain ⟨-, -, hdone⟩ := List.pairwise_append.mp hfront
  funext p
  refine propext ⟨?_, ?_⟩
  · rintro ⟨j, hj, rfl⟩
    refine ⟨?_, j, List.mem_append_left _ hj, rfl⟩
    rcases List.mem_append.mp hj with hj | hj
    · exact Nat.le_of_lt (hdone j hj i (List.mem_singleton_self i))
    · exact Nat.le_of_eq (congrArg _ (List.mem_singleton.mp hj))
  · rintro ⟨hle, j, hj, rfl⟩
    rcases List.mem_append.mp hj with hj | hj
    · exact ⟨j, hj, rfl⟩
    · exact absurd (hleft i (by simp) j hj) (Nat.not_lt_of_le hle)

end Lines

/-! ## One instruction -/

section Visit

variable {m : Type → Type} [Monad m] [DescriptorSource m] [FaithfulSource m] {pool : ConstantPool}

theorem isArrayName_iff {name : Text} :
    isArrayName name = true ↔ name.head? = some Ascii.openBracket := by
  have hmark : Text.ofString "[" = [Ascii.openBracket] := by decide
  rw [isArrayName, Text.startsWith, List.isPrefixOf_iff_prefix, hmark, List.head?_eq_some_iff]
  exact ⟨fun ⟨back, hback⟩ => ⟨back, hback.symm⟩, fun ⟨back, hback⟩ => ⟨back, hback.symm⟩⟩

theorem not_declaring_iff {owner : Text} :
    (isArrayName owner || anySignatureOwners.contains owner) = true ↔ ¬ Declaring owner := by
  rw [Bool.or_eq_true, isArrayName_iff, List.contains_iff_mem]
  constructor
  · rintro (harray | hany) ⟨hnot, hhandle, hvariable⟩
    · exact hnot harray
    · simp [anySignatureOwners, hhandle, hvariable] at hany
  · intro h
    by_contra hno
    obtain ⟨hnot, hany⟩ := not_or.mp hno
    simp only [anySignatureOwners, List.mem_cons, List.not_mem_nil, or_false, not_or] at hany
    exact h ⟨hnot, hany.1, hany.2⟩

theorem mem_iff_of_forall₂ {α β : Type} {ε : Type} {read : β → Except ε α} {items : List β}
    {results : List α} (h : List.Forall₂ (fun b a => read b = .ok a) items results) {a : α} :
    a ∈ results ↔ ∃ b ∈ items, read b = .ok a := by
  induction h with
  | nil => simp
  | cons hfirst _ ih => simp [ih, hfirst, eq_comm]

theorem ensures_caughtAt_caught (handlers : List ExceptionHandler) (pc : Nat) :
    Ensures (caughtAt (m := m) handlers pc) (Caught handlers pc) := by
  have hread (h : ExceptionHandler) :
      Ensures (descriptor (m := m) [.part "catch type"] (DescriptorSource.className h.catchType))
        fun c => ClassName.parse h.catchType = .ok c :=
    ensures_descriptor _ (FaithfulSource.yields_className _)
  refine (Ensures.mapM_forall₂ hread _).bind fun caught hcaught => .pure ⟨?_, fun c => ?_⟩
  · exact Ascending.ordered_ofList compare caught
  · have hmem : c ∈ sortCaught caught ↔ c ∈ caught := Ascending.mem_ofList_compare_iff
    rw [hmem, mem_iff_of_forall₂ hcaught]
    simp [ExceptionHandler.protects, and_assoc]

theorem ensures_call?_entries {code : Code} {is : List Instruction} {line : Int} {i : Instruction}
    (hopcode : i.opcode ∈ invocations)
    (hline : InForce (fun p => p ≤ i.pc ∧ Begins is p) code.lines line) :
    Ensures (call? (m := m) pool code.handlers line i) fun call =>
      Entries (IsCall pool) (CallEvidence pool code is) [i] call.toList := by
  refine (Ensures.constant _ _).bind fun ref href => ?_
  split
  case isTrue hskipped =>
    refine .pure (.other ?_ .nil)
    rintro ⟨-, _, href', hdeclaring⟩
    obtain rfl := Except.ok.inj (href.symm.trans href')
    exact not_declaring_iff.mp hskipped hdeclaring
  case isFalse hkept =>
    have hdeclaring : Declaring ref.owner := not_not.mp (mt not_declaring_iff.mpr hkept)
    refine (ensures_descriptor _ (FaithfulSource.yields_className _)).bind fun owner howner => ?_
    refine (ensures_descriptor _ (FaithfulSource.yields_method _ _ _)).bind fun method hmethod => ?_
    refine (ensures_caughtAt_caught _ _).bind fun caught hcaught => ?_
    have hstatic : method.static = true ↔ i.opcode = Opcode.invokeStatic := by
      rw [(Method.spelled_of_parse hmethod).2.2, decide_eq_true_iff]
    exact .pure (.site ⟨hopcode, ref, href, hdeclaring⟩
      ⟨⟨ref, href, howner, hmethod⟩, hstatic, hline, hcaught⟩ .nil)

theorem ensures_access?_entries {code : Code} {is : List Instruction} {line : Int} {i : Instruction}
    (hopcode : i.opcode ∈ fieldAccesses)
    (hline : InForce (fun p => p ≤ i.pc ∧ Begins is p) code.lines line) :
    Ensures (access? (m := m) pool code.handlers line i) fun access =>
      Entries (IsAccess pool) (AccessEvidence pool code is) [i] access.toList := by
  refine (Ensures.constant _ _).bind fun ref href => ?_
  split
  case isTrue harray =>
    refine .pure (.other ?_ .nil)
    rintro ⟨-, _, href', hnot⟩
    obtain rfl := Except.ok.inj (href.symm.trans href')
    exact hnot (isArrayName_iff.mp harray)
  case isFalse harray =>
    refine (ensures_descriptor _ (FaithfulSource.yields_className _)).bind fun owner howner => ?_
    refine (ensures_descriptor _ (FaithfulSource.yields_field _ _)).bind fun field hfield => ?_
    refine (ensures_caughtAt_caught _ _).bind fun caught hcaught => ?_
    refine .pure (.site ⟨hopcode, ref, href, mt isArrayName_iff.mpr harray⟩
      ⟨⟨ref, href, howner, hfield⟩, ?_, hline, hcaught⟩ .nil)
    simp

theorem ClassConstant.name_eq {index : UInt16} {name name' : Text}
    (h : ClassConstant pool index name) (h' : ClassConstant pool index name') : name = name' := by
  obtain ⟨nameIndex, hfound, hname⟩ := h
  obtain ⟨_, hfound', hname'⟩ := h'
  obtain rfl := Constant.classRef.inj (Except.ok.inj (hfound.symm.trans hfound'))
  exact Except.ok.inj (hname.symm.trans hname')

theorem loadsConstant_iff_of_ldc {i : Instruction} (h : i.opcode = Opcode.ldc) (name : Text) :
    LoadsConstant pool i name ↔ ClassConstant pool i.index1 name := by
  have hwide : ¬ Opcode.ldc = Opcode.ldcWide := by decide
  simp [LoadsConstant, h, hwide]

theorem loadsConstant_iff_of_ldcWide {i : Instruction} (h : i.opcode = Opcode.ldcWide)
    (name : Text) : LoadsConstant pool i name ↔ ClassConstant pool i.index2 name := by
  have hldc : ¬ Opcode.ldcWide = Opcode.ldc := by decide
  simp [LoadsConstant, h, hldc]

theorem ensures_load?_entries {index : UInt16} {i : Instruction}
    (h : ∀ name, LoadsConstant pool i name ↔ ClassConstant pool index name) :
    Ensures (load? (m := m) pool index) fun load =>
      Entries (IsLiteral pool) (LiteralEvidence pool) [i] load.toList := by
  refine (Ensures.constant _ _).bind fun found hfound => ?_
  split
  case h_1 nameIndex =>
    refine (Ensures.constant _ _).bind fun name hname => ?_
    have hconstant : ClassConstant pool index name := ⟨nameIndex, hfound, hname⟩
    have hloads : LoadsConstant pool i name := (h name).mpr hconstant
    split
    case isTrue harray =>
      have harray := isArrayName_iff.mp harray
      refine (ensures_descriptor _ (FaithfulSource.yields_fieldType _)).bind fun type htype => ?_
      split
      case h_1 c dims =>
        exact .pure (.site ⟨name, hloads, fun _ => ⟨c, dims, htype⟩⟩ (.ofArray hloads harray htype)
          .nil)
      case h_2 hother =>
        refine .pure (.other ?_ .nil)
        rintro ⟨name', hloads', helements⟩
        obtain rfl := hconstant.name_eq ((h name').mp hloads')
        obtain ⟨c, dims, hparse⟩ := helements harray
        exact hother c dims (Except.ok.inj (htype.symm.trans hparse))
    case isFalse hplain =>
      have hplain := mt isArrayName_iff.mpr hplain
      have hread : Ensures (descriptor (m := m) [.part "ldc"] (DescriptorSource.className name))
          fun c => ClassName.parse name = .ok c :=
        ensures_descriptor _ (FaithfulSource.yields_className _)
      refine .map _ (hread.mono fun c hparse => ?_)
      exact .site ⟨name, hloads, fun harray => absurd harray hplain⟩ (.ofClass hloads hplain hparse)
        .nil
  case h_2 hother =>
    refine .pure (.other ?_ .nil)
    rintro ⟨name, hloads, -⟩
    obtain ⟨nameIndex, hfound', -⟩ := (h name).mp hloads
    exact hother nameIndex (Except.ok.inj (hfound.symm.trans hfound'))

/-- An instruction adds the reference that it is a site of, if it is one, to what was collected. -/
theorem ensures_visit_covers {code : Code} {is done : List Instruction} {e : Evidence}
    {i : Instruction} (hpcs : is.Pairwise (·.pc < ·.pc)) (hfront : done ++ [i] <+: is)
    (he : e.Covers pool code is done) :
    Ensures (visit (m := m) pool code e i) (Evidence.Covers pool code is (done ++ [i])) := by
  have hbehind : ∀ p, Begins done p → p < i.pc := by
    rintro _ ⟨j, hj, rfl⟩
    obtain ⟨-, -, hcross⟩ := List.pairwise_append.mp (hpcs.sublist hfront.sublist)
    exact hcross j hj i (List.mem_singleton_self i)
  have hline := he.line.next hbehind
  rw [← begins_concat] at hline
  have hhere := hline
  rw [begins_concat_of_front hpcs hfront] at hhere
  -- the opcode decides which of the three lists can grow
  have hcall (h : i.opcode ∉ invocations) : ¬ IsCall pool i := fun hi => h hi.1
  have haccess (h : i.opcode ∉ fieldAccesses) : ¬ IsAccess pool i := fun hi => h hi.1
  have hliteral (h : i.opcode ≠ Opcode.ldc) (h' : i.opcode ≠ Opcode.ldcWide) :
      ¬ IsLiteral pool i := fun ⟨_, hloads, _⟩ => hloads.elim (fun hi => h hi.1) fun hi => h' hi.1
  unfold visit
  dsimp only
  split
  case isTrue hop =>
    have hop : i.opcode ∈ invocations := by simpa [invocations, or_assoc] using hop
    have hother : ∀ op ∈ invocations,
        op ∉ fieldAccesses ∧ op ≠ Opcode.ldc ∧ op ≠ Opcode.ldcWide := by decide +kernel
    obtain ⟨hfield, hldc, hwide⟩ := hother _ hop
    refine (ensures_call?_entries hop hhere).bind fun call hnew => .pure ?_
    exact ⟨hline, he.calls.append hnew, he.accesses.concat_of_not (haccess hfield),
      he.loads.concat_of_not (hliteral hldc hwide)⟩
  case isFalse hop =>
    have hop : i.opcode ∉ invocations := by simpa [invocations, or_assoc] using hop
    have hcalls := he.calls.concat_of_not (hcall hop)
    split
    case isTrue hfield =>
      have hfield : i.opcode ∈ fieldAccesses := by simpa [fieldAccesses, or_assoc] using hfield
      have hother : ∀ op ∈ fieldAccesses, op ≠ Opcode.ldc ∧ op ≠ Opcode.ldcWide := by
        decide +kernel
      obtain ⟨hldc, hwide⟩ := hother _ hfield
      refine (ensures_access?_entries hfield hhere).bind fun access hnew => .pure ?_
      exact ⟨hline, hcalls, he.accesses.append hnew,
        he.loads.concat_of_not (hliteral hldc hwide)⟩
    case isFalse hfield =>
      have hfield : i.opcode ∉ fieldAccesses := by simpa [fieldAccesses, or_assoc] using hfield
      have haccesses := he.accesses.concat_of_not (haccess hfield)
      split
      case isTrue hldc =>
        refine (ensures_load?_entries (loadsConstant_iff_of_ldc hldc)).bind
          fun load hnew => .pure ?_
        exact ⟨hline, hcalls, haccesses, he.loads.append hnew⟩
      case isFalse hldc =>
        split
        case isTrue hwide =>
          refine (ensures_load?_entries (loadsConstant_iff_of_ldcWide hwide)).bind
            fun load hnew => .pure ?_
          exact ⟨hline, hcalls, haccesses, he.loads.append hnew⟩
        case isFalse hwide =>
          exact .pure ⟨hline, hcalls, haccesses, he.loads.concat_of_not (hliteral hldc hwide)⟩

end Visit

/-! ## A whole body -/

section Body

variable {m : Type → Type} [Monad m] [DescriptorSource m] [FaithfulSource m] (pool : ConstantPool)

theorem ensures_collect_covers (code : Code) :
    Ensures (collect (m := m) pool code) fun e => ∃ is, Instruction.walk code.code = (is, none) ∧
      e.Covers pool code is is := by
  unfold collect
  have hpcs := (Instruction.tiles_walkFrom code.code.length 0 code.code).laid.pairwise_pc
  rw [← Instruction.walk] at hpcs
  cases hwalk : Instruction.walk code.code with
  | mk is ended =>
  rw [hwalk] at hpcs
  have hstart : Evidence.Covers pool code is [] {} :=
    ⟨.initial fun e _ => by simp [Begins], .nil, .nil, .nil⟩
  refine (Ensures.foldlM_of_done (fun done i e hfront he =>
    ensures_visit_covers hpcs hfront he) hstart).bind fun e he => ?_
  cases ended with
  | none => exact .pure ⟨is, rfl, he⟩
  | some cause => exact .throw _

theorem ensures_decodeMethod_covers {member : Member} {code : Code}
    (hcode : member.code = some code) :
    Ensures (decodeMethod (m := m) pool member) fun (d, loads) =>
      ∃ is, Instruction.walk code.code = (is, none) ∧
        Evidence.Covers pool code is is ⟨d.line, d.calls, d.accesses, loads⟩ := by
  unfold decodeMethod
  rw [hcode]
  dsimp only
  split
  on_goal 1 => refine (Ensures.pure (p := fun _ => True) trivial).bind fun method _ => ?_
  on_goal 2 => refine (ensures_method _ _ _ _).bind fun method _ => ?_
  -- From the signature on, all methods are decoded in the same way.
  all_goals exact (ensures_collect_covers pool code).bind fun e he => .pure he

end Body

/-- A method with a body that can be decoded has one call for each invocation of a method that its
owner could declare, one access for each instruction on a field of a class, and one load for each
literal of a class, all in the order of the body, which was walked to its end. Calls and accesses
have the line in force at their instruction and the exceptions caught around it. Tables of
descriptors make no difference. -/
theorem decodeMethod_references {pool : ConstantPool} {member : Member} {code : Code}
    (hcode : member.code = some code) :
    (∀ d loads, Id.run (decodeMethod pool member).run = .ok (d, loads) →
      ∃ is, Instruction.walk code.code = (is, none) ∧
        Evidence.Covers pool code is is ⟨d.line, d.calls, d.accesses, loads⟩) ∧
    ∀ tables : Interner, tables.Sound → ∀ d loads next,
      (decodeMethod (m := StateM Interner) pool member).run.run tables = (.ok (d, loads), next) →
        ∃ is, Instruction.walk code.code = (is, none) ∧
          Evidence.Covers pool code is is ⟨d.line, d.calls, d.accesses, loads⟩ := by
  refine ⟨fun d loads hrun => ?_, fun tables htables d loads next hrun => ?_⟩
  · obtain ⟨r, hr, hcovers⟩ := ensures_decodeMethod_covers (m := Id) pool hcode
    exact hcovers (d, loads) (hr.symm.trans hrun)
  · obtain ⟨r, hr, hcovers⟩ := ensures_decodeMethod_covers (m := StateM Interner) pool hcode
    obtain ⟨last, -, hlast⟩ := hr tables htables
    exact hcovers (d, loads) (congrArg Prod.fst (hlast.symm.trans hrun))

namespace References

/-- Constants for calls to a class, to an array and to a method handle, for a field, and for the
literal of an array type. -/
def samplePool : ConstantPool where
  slots := #[none, some (.utf8 "p/B"), some (.classRef 1), some (.utf8 "f"), some (.utf8 "(I)V"),
    some (.nameAndType 3 4), some (.methodRef 2 5), some (.utf8 "g"), some (.utf8 "J"),
    some (.nameAndType 7 8), some (.fieldRef 2 9), some (.utf8 "[[Lp/B;"), some (.classRef 11),
    some (.utf8 "[I"), some (.classRef 13), some (.methodRef 14 5),
    some (.utf8 "java/lang/invoke/MethodHandle"), some (.classRef 16), some (.methodRef 17 5)]

/-- A body whose tables are in no order. One entry for a line starts inside an instruction, and two
start at the same one. -/
def sampleCode : Code where
  maxStack := 2
  maxLocals := 0
  code := [Opcode.ldc, 12, Opcode.invokeStatic, 0, 6, Opcode.getStatic, 0, 10, Opcode.invokeVirtual,
    0, 15, Opcode.invokeVirtual, 0, 18, Opcode.returnVoid]
  handlers := [⟨0, 5, 14, "p/Y"⟩, ⟨2, 8, 14, "p/X"⟩, ⟨0, 8, 14, ""⟩, ⟨2, 3, 14, "p/X"⟩]
  lines := [⟨5, 20⟩, ⟨2, 7⟩, ⟨3, 99⟩, ⟨2, 11⟩]

def sampleMember : Member := ⟨0x0008, "m", "()V", some sampleCode⟩

def sampleDeclared : DeclaredMethod where
  method := ⟨"m", [], .void, true⟩
  line := 20
  calls := [⟨⟨"p.B"⟩, ⟨"f", [.plain (.primitive .int)], .void, true⟩, 11, [⟨"p.X"⟩, ⟨"p.Y"⟩]⟩]
  accesses := [⟨⟨"p.B"⟩, ⟨"g", .plain (.primitive .long)⟩, true, 20, [⟨"p.X"⟩]⟩]

/-- The method is decoded afresh and with tables that hold one entry each. -/
theorem sample_decodeMethod_references :
    sampleMember.code = some sampleCode ∧ (Interner.ofCapacity 1).Sound ∧
      Id.run (decodeMethod samplePool sampleMember).run = .ok (sampleDeclared, [⟨"p.B"⟩]) ∧
      (∃ next, (decodeMethod (m := StateM Interner) samplePool sampleMember).run.run
        (.ofCapacity 1) = (.ok (sampleDeclared, [⟨"p.B"⟩]), next)) ∧
      ∃ is, Instruction.walk sampleCode.code = (is, none) ∧
        Evidence.Covers samplePool sampleCode is is
          ⟨20, sampleDeclared.calls, sampleDeclared.accesses, [⟨"p.B"⟩]⟩ := by
  have htables := Interner.sound_ofCapacity 1
  have hafresh : Id.run (decodeMethod samplePool sampleMember).run =
      .ok (sampleDeclared, [⟨"p.B"⟩]) := by decide +kernel
  have hshared : ((decodeMethod (m := StateM Interner) samplePool sampleMember).run.run
      (.ofCapacity 1)).1 = .ok (sampleDeclared, [⟨"p.B"⟩]) := by decide +kernel
  have hcode : sampleMember.code = some sampleCode := rfl
  obtain ⟨-, hcovers⟩ := @decodeMethod_references samplePool _ _ hcode
  exact ⟨hcode, htables, hafresh, ⟨_, Prod.ext hshared rfl⟩,
    hcovers _ htables _ _ _ (Prod.ext hshared rfl)⟩

end References

end Decoder

end JvmLinkage
