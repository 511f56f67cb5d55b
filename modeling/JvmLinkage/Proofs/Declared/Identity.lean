import JvmLinkage.Proofs.Declared.Snapshot

/-!
# The identity of a method

In its class a method is known by its name followed by its encoded form. Two methods with the same
name, parameters and result are always known as one. The converse holds exactly if no name reaches
into the encoded form of the other method: both a name and the name of a class may hold an opening
parenthesis, and then the place where a name ends cannot be told from the text.
-/

namespace JvmLinkage

/-! ## Signatures -/

/-- Results are described alike. -/
def ReturnType.Alike : ReturnType → ReturnType → Prop
  | .void, .void => True
  | .value t, .value u => t.equal u = true
  | _, _ => False

theorem ReturnType.alike_iff {r s : ReturnType} : r.Alike s ↔ r = s := by
  cases r <;> cases s <;> simp [Alike, FieldType.equal_iff]

namespace Method

variable {m o : Method}

/-- Methods of the same name, with parameters that are pairwise described alike and results that
are. -/
structure SameSignature (m o : Method) : Prop where
  name : m.name = o.name
  params : List.Forall₂ (fun t u => t.equal u = true) m.params o.params
  result : m.result.Alike o.result

theorem sameSignature_iff :
    m.SameSignature o ↔ m.name = o.name ∧ m.params = o.params ∧ m.result = o.result := by
  have hparams : List.Forall₂ (fun t u => FieldType.equal t u = true) m.params o.params ↔
      m.params = o.params := by
    simp only [FieldType.equal_iff, List.forall₂_eq_eq_eq]
  constructor
  · rintro ⟨hname, htypes, hresult⟩
    exact ⟨hname, hparams.mp htypes, ReturnType.alike_iff.mp hresult⟩
  · rintro ⟨hname, htypes, hresult⟩
    exact ⟨hname, hparams.mpr htypes, ReturnType.alike_iff.mpr hresult⟩

/-- The encoded form determines parameters and result. -/
theorem WellFormed.eq_of_raw_eq (hm : m.WellFormed) (ho : o.WellFormed) (h : m.raw = o.raw) :
    m.params = o.params ∧ m.result = o.result := by
  have hread : parse m.raw o.name o.static = .ok { m with name := o.name, static := o.static } :=
    parse_of_spelled (m := { m with name := o.name, static := o.static }) hm.spelled_raw
  rw [h, ho.parse_raw] at hread
  have hsame := Except.ok.inj hread
  exact ⟨(congrArg (·.params) hsame).symm, (congrArg (·.result) hsame).symm⟩

theorem WellFormed.sameSignature_iff_raw (hm : m.WellFormed) (ho : o.WellFormed) :
    m.SameSignature o ↔ m.name = o.name ∧ m.raw = o.raw := by
  rw [sameSignature_iff]
  refine and_congr_right fun _ => ⟨?_, hm.eq_of_raw_eq ho⟩
  rintro ⟨hparams, hresult⟩
  rw [raw, raw, hparams, hresult]

/-! ## Names that reach into an encoded form -/

/-- The name of the second method ends with the beginning of the encoded form of the first. -/
def ReachedBy (m o : Method) : Prop :=
  ∃ part, part ≠ [] ∧ o.name = m.name ++ part ∧ m.raw = part ++ o.raw

/-- Neither name reaches into the encoded form of the other method. -/
def Apart (m o : Method) : Prop := ¬ ReachedBy m o ∧ ¬ ReachedBy o m

theorem Apart.symm (h : Apart m o) : Apart o m := And.symm h

theorem ReachedBy.name_ne (h : ReachedBy m o) : m.name ≠ o.name := by
  obtain ⟨part, hpart, hname, -⟩ := h
  intro hsame
  rw [hsame] at hname
  exact hpart (List.self_eq_append_right.mp hname)

theorem ReachedBy.openParen_mem (h : ReachedBy m o) :
    Ascii.openParen ∈ o.name ∧ Ascii.openParen ∈ m.raw.tail := by
  obtain ⟨part, hpart, hname, hraw⟩ := h
  obtain ⟨b, part, rfl⟩ := List.exists_cons_of_ne_nil hpart
  -- Both encoded forms begin with the parenthesis: one where the name goes on, one after that.
  have hopen : b = Ascii.openParen := (List.cons.inj hraw).1.symm
  constructor
  · simp [hname, hopen]
  · rw [hraw, List.cons_append, List.tail_cons]
    exact List.mem_append_right part List.mem_cons_self

/-- A name without an opening parenthesis reaches nowhere, and no name reaches into an encoded form
that has none within. -/
theorem apart_of_openParen_not_mem (h : Ascii.openParen ∉ o.name ∨ Ascii.openParen ∉ m.raw.tail)
    (h' : Ascii.openParen ∉ m.name ∨ Ascii.openParen ∉ o.raw.tail) : Apart m o := by
  constructor
  · intro hreach
    exact h.elim (· hreach.openParen_mem.1) (· hreach.openParen_mem.2)
  · intro hreach
    exact h'.elim (· hreach.openParen_mem.1) (· hreach.openParen_mem.2)

/-- Two methods are known as one exactly if their names and encoded forms are the same, or one name
reaches into the encoded form of the other method. -/
theorem key_eq_iff :
    m.key = o.key ↔ m.name = o.name ∧ m.raw = o.raw ∨ ReachedBy m o ∨ ReachedBy o m := by
  constructor
  · intro h
    rcases List.append_eq_append_iff.mp h with ⟨part, hname, hraw⟩ | ⟨part, hname, hraw⟩
    · by_cases hpart : part = []
      · subst hpart
        exact .inl ⟨by simpa using hname.symm, by simpa using hraw⟩
      · exact .inr (.inl ⟨part, hpart, hname, hraw⟩)
    · by_cases hpart : part = []
      · subst hpart
        exact .inl ⟨by simpa using hname, by simpa using hraw.symm⟩
      · exact .inr (.inr ⟨part, hpart, hname, hraw⟩)
  · rintro (⟨hname, hraw⟩ | ⟨part, -, hname, hraw⟩ | ⟨part, -, hname, hraw⟩)
    · rw [key, key, hname, hraw]
    · rw [key, key, hname, hraw, List.append_assoc]
    · rw [key, key, hname, hraw, List.append_assoc]

/-- Methods are told apart by their signatures exactly if neither name reaches into the other method. -/
theorem apart_iff (hm : m.WellFormed) (ho : o.WellFormed) :
    Apart m o ↔ (m.key = o.key ↔ m.SameSignature o) := by
  rw [key_eq_iff, hm.sameSignature_iff_raw ho]
  constructor
  · rintro ⟨hnot, hnot'⟩
    exact or_iff_left (not_or.mpr ⟨hnot, hnot'⟩)
  · intro h
    -- Where a name reaches into the other method the keys are the same, but not the names.
    constructor
    · intro hreach
      exact hreach.name_ne (h.mp (.inr (.inl hreach))).1
    · intro hreach
      exact hreach.name_ne (h.mp (.inr (.inr hreach))).1.symm

theorem Accepted.wellFormed (h : m.Accepted) : m.WellFormed := by
  obtain ⟨raw, hparse⟩ := h
  exact (spelled_of_parse hparse).1.wellFormed

end Method

/-! ## Methods of a class -/

theorem DeclaredClass.findMethod?_eq_some_iff {c : DeclaredClass} {m : Method} {d : DeclaredMethod} :
    c.findMethod? m = some d ↔ d ∈ c.methods ∧ d.method.key = m.key := by
  constructor
  · intro h
    exact ⟨List.mem_of_find?_eq_some h, by simpa using List.find?_some h⟩
  · rintro ⟨hd, hkey⟩
    cases hfind : c.findMethod? m with
    | none => simpa [hkey] using List.find?_eq_none.mp hfind d hd
    | some e =>
      have hkey' : e.method.key = m.key := by simpa using List.find?_some hfind
      have he := List.mem_of_find?_eq_some hfind
      -- No two methods of a class have the same identity.
      refine congrArg some (Decidable.byContradiction fun hne => ?_)
      exact DeclaredMethod.distinct_of_ne c.methods_distinct he hd hne (hkey'.trans hkey.symm)

theorem ClassBuilder.addMethod?_eq_none_iff {b : ClassBuilder} {d : DeclaredMethod} :
    b.addMethod? d = none ↔ ∃ e ∈ b.methods, e.method.key = d.method.key := by
  unfold addMethod?
  split
  case isTrue h => simpa using h
  case isFalse h => simpa using h

namespace Method

/-- Of two methods that were read, neither name reaches into the other's encoded form if and only if
they are known as one exactly when their names, parameters and results are the same. Then a method is
refused as already there, and found in a class, exactly when such a method was declared. -/
theorem known_by_signature {raw name : Text} {static : Bool} {m : Method}
    (hm : parse raw name static = .ok m) :
    (∀ (raw' name' : Text) (static' : Bool) (o : Method),
      parse raw' name' static' = .ok o → (Apart m o ↔ (m.key = o.key ↔ m.SameSignature o))) ∧
    (∀ (b : ClassBuilder) (d : DeclaredMethod), d.method = m →
      (∀ e ∈ b.methods, e.method.Accepted ∧ Apart e.method m) →
      (b.addMethod? d = none ↔ ∃ e ∈ b.methods, e.method.SameSignature m)) ∧
    ∀ c : DeclaredClass, (∀ e ∈ c.methods, e.method.Accepted ∧ Apart e.method m) →
      ∀ d, c.findMethod? m = some d ↔ d ∈ c.methods ∧ d.method.SameSignature m := by
  have hwell := (spelled_of_parse hm).1.wellFormed
  have hknown {e : DeclaredMethod} (he : e.method.Accepted ∧ Apart e.method m) :
      e.method.key = m.key ↔ e.method.SameSignature m :=
    (apart_iff he.1.wellFormed hwell).mp he.2
  refine ⟨?_, ?_, ?_⟩
  · intro raw' name' static' o ho
    exact apart_iff hwell (spelled_of_parse ho).1.wellFormed
  · rintro b d rfl hb
    rw [ClassBuilder.addMethod?_eq_none_iff]
    exact exists_congr fun e => and_congr_right fun he => hknown (hb e he)
  · intro c hc d
    rw [DeclaredClass.findMethod?_eq_some_iff]
    exact and_congr_right fun hd => hknown (hc d hd)

end Method

namespace Identity

/-- A method that takes an instance of a class with a parenthesis in its name. -/
def sampleMethod : Method := ⟨"f", [.plain (.reference ⟨"(La"⟩)], .void, false⟩

/-- A method with the same name that takes an instance of another class. -/
def sampleOverload : Method := ⟨"f", [.plain (.reference ⟨"a"⟩)], .void, true⟩

def sampleBuilder : ClassBuilder where
  name := ⟨"p.A"⟩
  methods := [⟨sampleOverload, 0, [], []⟩]

/-- The one method can be added to a class that declares the other, since neither name holds a
parenthesis. -/
theorem sample_known_by_signature :
    Method.parse "(L(La;)V" "f" false = .ok sampleMethod ∧
      Method.parse "(La;)V" "f" true = .ok sampleOverload ∧
      sampleMethod.Apart sampleOverload ∧
      (sampleMethod.key = sampleOverload.key ↔ sampleMethod.SameSignature sampleOverload) ∧
      (sampleBuilder.addMethod? ⟨sampleMethod, 0, [], []⟩ = none ↔
        ∃ e ∈ sampleBuilder.methods, e.method.SameSignature sampleMethod) := by
  have hmethod : Method.parse "(L(La;)V" "f" false = .ok sampleMethod := by decide +kernel
  have hoverload : Method.parse "(La;)V" "f" true = .ok sampleOverload := by decide +kernel
  have hapart : sampleMethod.Apart sampleOverload :=
    Method.apart_of_openParen_not_mem (by decide +kernel) (by decide +kernel)
  obtain ⟨hkeys, hadd, -⟩ := Method.known_by_signature hmethod
  refine ⟨hmethod, hoverload, hapart, (hkeys _ _ _ _ hoverload).mp hapart, hadd _ _ rfl ?_⟩
  exact List.forall_mem_singleton.mpr ⟨⟨_, hoverload⟩, hapart.symm⟩

/-- A method with a parenthesis in its own name. -/
def sampleReaching : Method := ⟨"f(L", [.plain (.reference ⟨"a"⟩)], .void, false⟩

/-- Two methods of different names are known as one: the second cannot be added to a class that
declares the first, and the first is found there in its place. -/
theorem methods_known_as_one :
    Method.parse "(L(La;)V" "f" false = .ok sampleMethod ∧
      Method.parse "(La;)V" "f(L" false = .ok sampleReaching ∧
      sampleMethod.key = sampleReaching.key ∧ ¬ sampleMethod.SameSignature sampleReaching ∧
      ∃ b, (ClassBuilder.start ⟨"p.A"⟩).addMethod? ⟨sampleMethod, 0, [], []⟩ = some b ∧
        b.addMethod? ⟨sampleReaching, 0, [], []⟩ = none ∧
        b.build.findMethod? sampleReaching = some ⟨sampleMethod, 0, [], []⟩ := by
  refine ⟨by decide +kernel, by decide +kernel, by decide +kernel, ?_, ?_⟩
  · intro h
    exact absurd h.name (by decide +kernel)
  · exact ⟨_, rfl, by decide +kernel, by decide +kernel⟩

end Identity

end JvmLinkage
