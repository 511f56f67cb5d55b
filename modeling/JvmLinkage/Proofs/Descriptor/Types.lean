import JvmLinkage.Descriptor.Parser

/-!
# The grammar of types

A type is written as brackets, one for each dimension, and then the code of a primitive or the name
of a class between `L` and a semicolon. Reading accepts exactly these texts. What it gives has one
written form, which differs from the text only in that slashes stand for dots.
-/

namespace JvmLinkage

/-! ## Dots and slashes -/

namespace Text

@[simp] theorem replace_cons (old new b : UInt8) (t : Text) :
    replace old new (b :: t) = (if b = old then new else b) :: replace old new t := rfl

@[simp] theorem replace_append (old new : UInt8) (s t : Text) :
    replace old new (s ++ t) = replace old new s ++ replace old new t :=
  List.map_append

@[simp] theorem replace_eq_nil {old new : UInt8} {t : Text} : replace old new t = [] ↔ t = [] :=
  List.map_eq_nil_iff

theorem replace_of_not_mem {old : UInt8} (new : UInt8) {t : Text} (h : old ∉ t) :
    replace old new t = t := by
  induction t with
  | nil => rfl
  | cons b t ih =>
    obtain ⟨hb, ht⟩ := List.ne_and_not_mem_of_not_mem_cons h
    rw [replace_cons, if_neg (Ne.symm hb), ih ht]

theorem mem_replace {old new b : UInt8} {t : Text} (h : b ∈ replace old new t) :
    b = new ∨ b ∈ t ∧ b ≠ old := by
  obtain ⟨c, hc, rfl⟩ := List.mem_map.mp h
  by_cases heq : c = old
  · simp [heq]
  · simp [heq, hc]

theorem replace_dot_replace_slash (t : Text) :
    replace Ascii.dot Ascii.slash (replace Ascii.slash Ascii.dot t)
      = replace Ascii.dot Ascii.slash t := by
  induction t with
  | nil => rfl
  | cons b t ih =>
    by_cases hb : b = Ascii.slash
    · simp [hb, ih]
    · simp [hb, ih]

theorem replace_slash_replace_dot {t : Text} (h : Ascii.slash ∉ t) :
    replace Ascii.slash Ascii.dot (replace Ascii.dot Ascii.slash t) = t := by
  induction t with
  | nil => rfl
  | cons b t ih =>
    obtain ⟨hb, ht⟩ := List.ne_and_not_mem_of_not_mem_cons h
    by_cases hdot : b = Ascii.dot
    · simp [hdot, ih ht]
    · simp [hdot, Ne.symm hb, ih ht]

theorem mem_of_endsWith_semicolon {t : Text} (h : t.endsWith ";") : Ascii.semicolon ∈ t := by
  have hsuffix : Text.ofString ";" <:+ t := List.isSuffixOf_iff_suffix.mp h
  exact hsuffix.subset (by decide)

end Text

/-! ## Class names -/

namespace ClassName

/-- The names that types can hold: not empty, without slashes, semicolons and brackets. -/
def WellFormed (c : ClassName) : Prop :=
  c.dotted ≠ [] ∧ Ascii.slash ∉ c.dotted ∧ Ascii.semicolon ∉ c.dotted
    ∧ Ascii.openBracket ∉ c.dotted

theorem parse_eq_ok_iff {name : Text} {c : ClassName} :
    parse name = .ok c ↔
      name ≠ [] ∧ name.endsWith ";" = false ∧ c = ⟨name.replace Ascii.slash Ascii.dot⟩ := by
  unfold parse
  split
  case isTrue hempty => simp_all
  case isFalse hempty =>
    split
    case isTrue hend => simp [hend]
    case isFalse hend =>
      have hne : name ≠ [] := by simpa using hempty
      have hfalse : name.endsWith ";" = false := by simpa using hend
      simp [hne, hfalse, eq_comm]

theorem parse_of_not_mem {name : Text} (hne : name ≠ []) (h : Ascii.semicolon ∉ name) :
    parse name = .ok ⟨name.replace Ascii.slash Ascii.dot⟩ := by
  have hend : name.endsWith ";" = false :=
    Bool.eq_false_iff.mpr fun hend => h (Text.mem_of_endsWith_semicolon hend)
  exact parse_eq_ok_iff.mpr ⟨hne, hend, rfl⟩

end ClassName

/-! ## Elements -/

theorem Primitive.ofCode?_code (p : Primitive) : ofCode? p.code = some p := by
  cases p <;> decide

theorem Primitive.code_of_ofCode? {b : UInt8} {p : Primitive} (h : ofCode? b = some p) :
    p.code = b := by
  simpa using List.find?_some h

theorem Primitive.exists_code_iff (b : UInt8) :
    (∃ p : Primitive, p.code = b) ↔ b ∈ Text.ofString "BSIJFDZC" := by
  constructor
  · rintro ⟨p, rfl⟩
    cases p <;> decide
  · intro h
    have hcodes : Text.ofString "BSIJFDZC" = all.map code := by decide
    rw [hcodes] at h
    obtain ⟨p, -, hp⟩ := List.mem_map.mp h
    exact ⟨p, hp⟩

namespace ElementType

/-- A text spells an element: the code of a primitive, or the name of a class between its marks. -/
inductive Spelled : Text → ElementType → Prop where
  | primitive (p : Primitive) : Spelled [p.code] (.primitive p)
  | reference {name : Text} (ne_nil : name ≠ []) (semicolon : Ascii.semicolon ∉ name)
      (bracket : Ascii.openBracket ∉ name) :
      Spelled (Ascii.capitalL :: name ++ [Ascii.semicolon])
        (.reference ⟨name.replace Ascii.slash Ascii.dot⟩)

def WellFormed : ElementType → Prop
  | primitive _ => True
  | reference c => c.WellFormed

variable {s whole : Text} {e : ElementType}

/-- What the marks around a class name look like to the reader. -/
theorem marked_iff {name : Text} :
    (3 ≤ s.length ∧ s.head? = some Ascii.capitalL ∧ s.getLast? = some Ascii.semicolon ∧
        name = s.tail.dropLast) ↔
      name ≠ [] ∧ s = Ascii.capitalL :: name ++ [Ascii.semicolon] := by
  constructor
  · rintro ⟨hlength, hhead, hlast, rfl⟩
    obtain ⟨rest, rfl⟩ := List.head?_eq_some_iff.mp hhead
    obtain ⟨front, hfront⟩ := List.getLast?_eq_some_iff.mp hlast
    cases front with
    | nil => simp_all
    | cons b front =>
      obtain ⟨rfl, rfl⟩ := List.cons.inj hfront
      refine ⟨?_, by simp⟩
      rintro hnil
      simp_all
  · rintro ⟨hne, rfl⟩
    have hpos : 0 < name.length := List.length_pos_iff.mpr hne
    refine ⟨?_, rfl, by simp [List.getLast?_cons], by simp⟩
    simp only [List.cons_append, List.length_cons, List.length_append, List.length_nil]
    omega

theorem any_mark_eq_false_iff {name : Text} :
    (name.any fun c => c = Ascii.semicolon || c = Ascii.openBracket) = false ↔
      Ascii.semicolon ∉ name ∧ Ascii.openBracket ∉ name := by
  simp only [List.any_eq_false, Bool.or_eq_true, decide_eq_true_eq]
  constructor
  · intro h
    exact ⟨fun hmem => h _ hmem (.inl rfl), fun hmem => h _ hmem (.inr rfl)⟩
  · rintro ⟨hsemicolon, hbracket⟩ c hc (rfl | rfl)
    · exact hsemicolon hc
    · exact hbracket hc

theorem Spelled.parseWith (h : Spelled s e) : parseWith ClassName.parse s whole = .ok e := by
  cases h with
  | primitive p =>
    simp only [ElementType.parseWith, Primitive.ofCode?_code]
    rfl
  | @reference name ne_nil semicolon bracket =>
    obtain ⟨hlength, hhead, hlast, hname⟩ := marked_iff.mpr ⟨ne_nil, rfl⟩
    have hmarks := any_mark_eq_false_iff.mpr ⟨semicolon, bracket⟩
    have hone : (Ascii.capitalL :: name ++ [Ascii.semicolon]).length ≠ 1 := by omega
    generalize Ascii.capitalL :: name ++ [Ascii.semicolon] = s at *
    unfold ElementType.parseWith
    split
    case h_1 b => exact absurd rfl hone
    case h_2 =>
      rw [if_neg (by simp [hhead, hlast]; omega), ← hname]
      dsimp only
      rw [hmarks, ClassName.parse_of_not_mem ne_nil semicolon]
      rfl

theorem spelled_of_parseWith (h : parseWith ClassName.parse s whole = .ok e) : Spelled s e := by
  unfold ElementType.parseWith at h
  split at h
  case h_1 b =>
    split at h
    case h_1 p hp =>
      cases h
      rw [← Primitive.code_of_ofCode? hp]
      exact .primitive p
    case h_2 => cases h
  case h_2 =>
    split at h
    case isTrue => cases h
    case isFalse hshape =>
      simp only [Bool.or_eq_true, decide_eq_true_eq, not_or, Nat.not_lt, ne_eq,
        Decidable.not_not] at hshape
      obtain ⟨⟨hlength, hhead⟩, hlast⟩ := hshape
      obtain ⟨hne, hs⟩ := marked_iff.mp ⟨hlength, hhead, hlast, rfl⟩
      generalize s.tail.dropLast = name at h hne hs
      dsimp only at h
      split at h
      case isTrue => cases h
      case isFalse hmarks =>
        obtain ⟨hsemicolon, hbracket⟩ := any_mark_eq_false_iff.mp (Bool.eq_false_iff.mpr hmarks)
        rw [ClassName.parse_of_not_mem hne hsemicolon] at h
        cases h
        rw [hs]
        exact .reference hne hsemicolon hbracket

theorem exists_spelled_iff :
    (∃ e, Spelled s e) ↔
      (∃ b ∈ Text.ofString "BSIJFDZC", s = [b]) ∨
        ∃ name, s = Ascii.capitalL :: name ++ [Ascii.semicolon] ∧ name ≠ [] ∧
          Ascii.semicolon ∉ name ∧ Ascii.openBracket ∉ name := by
  constructor
  · rintro ⟨e, h⟩
    cases h with
    | primitive p => exact .inl ⟨p.code, (Primitive.exists_code_iff _).mp ⟨p, rfl⟩, rfl⟩
    | @reference name ne_nil semicolon bracket =>
      exact .inr ⟨name, rfl, ne_nil, semicolon, bracket⟩
  · rintro (⟨b, hb, rfl⟩ | ⟨name, rfl, ne_nil, semicolon, bracket⟩)
    · obtain ⟨p, rfl⟩ := (Primitive.exists_code_iff b).mpr hb
      exact ⟨_, .primitive p⟩
    · exact ⟨_, .reference ne_nil semicolon bracket⟩

theorem Spelled.ne_nil (h : Spelled s e) : s ≠ [] := by
  cases h <;> simp

theorem Spelled.head_ne (h : Spelled s e) : s.head? ≠ some Ascii.openBracket := by
  cases h with
  | primitive p => cases p <;> decide
  | reference => exact ne_of_beq_false rfl

end ElementType

/-! ## Types -/

namespace FieldType

/-- A text spells a type: its element after one bracket for each dimension. -/
inductive Spelled : Text → FieldType → Prop where
  | plain {s : Text} {e : ElementType} (element : e.Spelled s) : Spelled s (.plain e)
  | array {s : Text} {e : ElementType} {n : Nat} (pos : 0 < n) (element : e.Spelled s) :
      Spelled (List.replicate n Ascii.openBracket ++ s) (.array e n)

def WellFormed : FieldType → Prop
  | plain e => e.WellFormed
  | array e n => 0 < n ∧ e.WellFormed

variable {raw : Text} {t : FieldType}

theorem Spelled.ne_nil (h : Spelled raw t) : raw ≠ [] := by
  cases h with
  | plain element => exact element.ne_nil
  | array pos element => exact List.append_ne_nil_of_right_ne_nil _ element.ne_nil

/-- What spells a type is a row of brackets, perhaps empty, and what spells an element. -/
theorem exists_spelled_iff :
    (∃ t, Spelled raw t) ↔
      ∃ n body, raw = List.replicate n Ascii.openBracket ++ body ∧ ∃ e : ElementType, e.Spelled body := by
  constructor
  · rintro ⟨t, ht⟩
    cases ht with
    | plain element => exact ⟨0, raw, rfl, _, element⟩
    | @array s e n pos element => exact ⟨n, s, rfl, e, element⟩
  · rintro ⟨n, body, rfl, e, element⟩
    cases n with
    | zero => exact ⟨_, .plain element⟩
    | succ n => exact ⟨_, .array (Nat.succ_pos n) element⟩

/-- The brackets before an element are those of the whole text. -/
theorem brackets_append {s : Text} (n : Nat) (h : s.head? ≠ some Ascii.openBracket) :
    (List.replicate n Ascii.openBracket ++ s).takeWhile (· = Ascii.openBracket)
        = List.replicate n Ascii.openBracket ∧
      (List.replicate n Ascii.openBracket ++ s).dropWhile (· = Ascii.openBracket) = s := by
  have hall : ∀ b ∈ List.replicate n Ascii.openBracket, decide (b = Ascii.openBracket) = true := by
    simp
  have hstop : s.takeWhile (· = Ascii.openBracket) = [] ∧ s.dropWhile (· = Ascii.openBracket) = s := by
    cases s with
    | nil => simp
    | cons b s => 
      have hb : b ≠ Ascii.openBracket := by simpa using h
      simp [List.takeWhile, List.dropWhile, hb]
  rw [List.takeWhile_append_of_pos hall, List.dropWhile_append_of_pos hall, hstop.1, hstop.2]
  simp

theorem takeWhile_bracket (s : Text) :
    s.takeWhile (· = Ascii.openBracket)
      = List.replicate (s.takeWhile (· = Ascii.openBracket)).length Ascii.openBracket := by
  rw [List.eq_replicate_iff]
  refine ⟨rfl, fun b hb => ?_⟩
  simpa using List.all_eq_true.mp List.all_takeWhile b hb

theorem Spelled.parse (h : Spelled raw t) : parse raw = .ok t := by
  have hne : raw.isEmpty = false := by simpa using h.ne_nil
  cases h with
  | plain element =>
    obtain ⟨htake, hdrop⟩ := brackets_append 0 element.head_ne
    simp only [List.replicate_zero, List.nil_append] at htake hdrop
    simp only [FieldType.parse, FieldType.parseWith, hne, htake, hdrop, element.parseWith]
    rfl
  | @array s e n pos element =>
    obtain ⟨htake, hdrop⟩ := brackets_append n element.head_ne
    obtain ⟨n, rfl⟩ := Nat.exists_eq_succ_of_ne_zero (Nat.ne_of_gt pos)
    simp only [FieldType.parse, FieldType.parseWith, hne, htake, hdrop, element.parseWith,
      List.length_replicate]
    rfl

theorem spelled_of_parse (h : parse raw = .ok t) : Spelled raw t := by
  rw [FieldType.parse, FieldType.parseWith] at h
  split at h
  case isTrue => cases h
  case isFalse =>
    have hsplit := List.takeWhile_append_dropWhile (p := (· = Ascii.openBracket)) (l := raw)
    rw [takeWhile_bracket] at hsplit
    dsimp only at h
    generalize raw.takeWhile (· = Ascii.openBracket) = brackets at h hsplit
    generalize raw.dropWhile (· = Ascii.openBracket) = body at h hsplit
    cases helement : ElementType.parseWith ClassName.parse body raw with
    | error e => rw [helement] at h; cases h
    | ok e =>
      rw [helement] at h
      cases h
      have hspelled := ElementType.spelled_of_parseWith helement
      rw [← hsplit]
      cases brackets with
      | nil => exact .plain hspelled
      | cons b brackets => exact .array (Nat.succ_pos _) hspelled

/-- Reading accepts what spells a type, and gives that type. -/
theorem parse_eq_ok_iff : parse raw = .ok t ↔ Spelled raw t :=
  ⟨spelled_of_parse, Spelled.parse⟩

end FieldType

/-! ## The written form -/

namespace ClassName

theorem wellFormed_of_spelled {name : Text} (hne : name ≠ []) (hsemicolon : Ascii.semicolon ∉ name)
    (hbracket : Ascii.openBracket ∉ name) : WellFormed ⟨name.replace Ascii.slash Ascii.dot⟩ := by
  refine ⟨by simpa using hne, ?_, ?_, ?_⟩
  · intro hmem
    rcases Text.mem_replace hmem with hdot | ⟨-, hself⟩
    · exact absurd hdot (by decide)
    · exact hself rfl
  · intro hmem
    rcases Text.mem_replace hmem with hdot | ⟨hmem, -⟩
    · exact absurd hdot (by decide)
    · exact hsemicolon hmem
  · intro hmem
    rcases Text.mem_replace hmem with hdot | ⟨hmem, -⟩
    · exact absurd hdot (by decide)
    · exact hbracket hmem

theorem mem_slashed {c : ClassName} {b : UInt8} (h : b ∈ c.slashed) :
    b = Ascii.slash ∨ b ∈ c.dotted := by
  rcases Text.mem_replace h with hslash | ⟨hmem, -⟩
  · exact .inl hslash
  · exact .inr hmem

end ClassName

namespace ElementType

variable {s : Text} {e : ElementType}

theorem Spelled.wellFormed (h : Spelled s e) : e.WellFormed := by
  cases h with
  | primitive p => trivial
  | reference ne_nil semicolon bracket =>
    exact ClassName.wellFormed_of_spelled ne_nil semicolon bracket

theorem Spelled.raw_eq (h : Spelled s e) : e.raw = s.replace Ascii.dot Ascii.slash := by
  cases h with
  | primitive p => cases p <;> rfl
  | @reference name =>
    have hopen : Ascii.capitalL ≠ Ascii.dot := by decide
    have hclose : Ascii.semicolon ≠ Ascii.dot := by decide
    simp [ElementType.raw, ClassName.raw, ClassName.slashed, Text.replace_dot_replace_slash, hopen,
      hclose]

theorem WellFormed.spelled_raw (h : e.WellFormed) : Spelled e.raw e := by
  cases e with
  | primitive p => exact .primitive p
  | reference c =>
    obtain ⟨hne, hslash, hsemicolon, hbracket⟩ := h
    have hname : c = ⟨c.slashed.replace Ascii.slash Ascii.dot⟩ := by
      rw [ClassName.slashed, Text.replace_slash_replace_dot hslash]
    have hspelled : Spelled (Ascii.capitalL :: c.slashed ++ [Ascii.semicolon])
        (.reference ⟨c.slashed.replace Ascii.slash Ascii.dot⟩) := by
      refine .reference (by simpa [ClassName.slashed] using hne) ?_ ?_
      · intro hmem
        rcases ClassName.mem_slashed hmem with heq | hmem
        · exact absurd heq (by decide)
        · exact hsemicolon hmem
      · intro hmem
        rcases ClassName.mem_slashed hmem with heq | hmem
        · exact absurd heq (by decide)
        · exact hbracket hmem
    rw [← hname] at hspelled
    exact hspelled

theorem equal_iff {f : ElementType} : e.equal f = true ↔ e = f := by
  cases e with
  | primitive p =>
    cases f with
    | primitive q => cases p <;> cases q <;> decide
    | reference d => simp [equal]
  | reference c =>
    cases f with
    | primitive q => simp [equal]
    | reference d =>
      cases c
      cases d
      simp [equal]

end ElementType

namespace FieldType

variable {raw : Text} {t u : FieldType}

theorem Spelled.wellFormed (h : Spelled raw t) : t.WellFormed := by
  cases h with
  | plain element => exact element.wellFormed
  | array pos element => exact ⟨pos, element.wellFormed⟩

theorem Spelled.raw_eq (h : Spelled raw t) : t.raw = raw.replace Ascii.dot Ascii.slash := by
  cases h with
  | plain element => exact element.raw_eq
  | array pos element =>
    have hbrackets : ∀ n, Ascii.dot ∉ List.replicate n Ascii.openBracket := by
      intro n hmem
      exact absurd (List.eq_of_mem_replicate hmem) (by decide)
    rw [FieldType.raw, element.raw_eq, Text.replace_append, Text.replace_of_not_mem _ (hbrackets _)]

theorem WellFormed.spelled_raw (h : t.WellFormed) : Spelled t.raw t := by
  cases t with
  | plain e => exact .plain (ElementType.WellFormed.spelled_raw h)
  | array e n => exact .array h.1 (ElementType.WellFormed.spelled_raw h.2)

/-- Every type that was read is read back from its written form. -/
theorem Spelled.parse_raw (h : Spelled raw t) : FieldType.parse t.raw = .ok t :=
  h.wellFormed.spelled_raw.parse

theorem equal_iff : t.equal u = true ↔ t = u := by
  cases t with
  | plain e =>
    cases u with
    | plain f => simp [equal, ElementType.equal_iff]
    | array f n => simp [equal]
  | array e m =>
    cases u with
    | plain f => simp [equal]
    | array f n => simp [equal, ElementType.equal_iff, and_comm]

theorem alike_iff {t u : Option FieldType} : alike t u = true ↔ t = u := by
  cases t <;> cases u <;> simp [alike, equal_iff]

theorem WellFormed.eq_of_raw_eq (ht : t.WellFormed) (hu : u.WellFormed) (h : t.raw = u.raw) :
    t = u := by
  have hread := ht.spelled_raw.parse
  rw [h, hu.spelled_raw.parse] at hread
  exact (Except.ok.inj hread).symm

/-- A text is accepted if and only if it is a row of brackets and then one of the eight primitive
codes, or a class name that is not empty and free of semicolons and brackets, between its marks.
What is read is well formed, its written form is the text with slashes for dots, and from that it is
read again. Types read from two texts are described alike if and only if their written forms are the
same, and if and only if they are the same. -/
theorem parse_accepts_grammar (raw : Text) :
    ((∃ t, parse raw = .ok t) ↔
      ∃ n body, raw = List.replicate n Ascii.openBracket ++ body ∧
        ((∃ b ∈ Text.ofString "BSIJFDZC", body = [b]) ∨
          ∃ name, body = Ascii.capitalL :: name ++ [Ascii.semicolon] ∧ name ≠ [] ∧
            Ascii.semicolon ∉ name ∧ Ascii.openBracket ∉ name)) ∧
      (∀ t, parse raw = .ok t →
        t.WellFormed ∧ t.raw = raw.replace Ascii.dot Ascii.slash ∧ parse t.raw = .ok t) ∧
      ∀ other t u, parse raw = .ok t → parse other = .ok u →
        (t.equal u = true ↔ t.raw = u.raw) ∧ (t.raw = u.raw ↔ t = u) := by
  refine ⟨?_, ?_, ?_⟩
  · simp only [parse_eq_ok_iff, exists_spelled_iff, ElementType.exists_spelled_iff]
  · intro t ht
    have hspelled := spelled_of_parse ht
    exact ⟨hspelled.wellFormed, hspelled.raw_eq, hspelled.parse_raw⟩
  · intro other t u ht hu
    have hraw : t.raw = u.raw ↔ t = u :=
      ⟨(spelled_of_parse ht).wellFormed.eq_of_raw_eq (spelled_of_parse hu).wellFormed,
        congrArg FieldType.raw⟩
    exact ⟨equal_iff.trans hraw.symm, hraw⟩

end FieldType

end JvmLinkage
