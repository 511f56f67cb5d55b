import JvmLinkage.Proofs.Descriptor.Types
import Mathlib.Data.List.Forall2

/-!
# The grammar of method descriptors

A descriptor is a row of types between parentheses and then a type or the code for no result. A
first scan finds where each parameter ends and a second one reads it: the two agree, because what
spells a type ends at its first semicolon or right after a primitive code. So the parts of a
descriptor are the only ones it has.
-/

namespace JvmLinkage

/-! ## Where a parameter ends -/

theorem Text.cut?_append {b : UInt8} {l : Text} (h : b ∉ l) (r : Text) :
    cut? b (l ++ b :: r) = some (l, r) := by
  induction l with
  | nil => simp [cut?]
  | cons c l ih =>
    obtain ⟨hne, hl⟩ := List.ne_and_not_mem_of_not_mem_cons h
    simp [cut?, Ne.symm hne, ih hl]

/-- What stands before and after the first mark is determined by the whole. -/
theorem Text.eq_of_append_cons_eq {b : UInt8} {l l' r r' : Text} (hl : b ∉ l) (hl' : b ∉ l')
    (h : l ++ b :: r = l' ++ b :: r') : l = l' ∧ r = r' := by
  have hcut := congrArg (cut? b) h
  rw [cut?_append hl, cut?_append hl'] at hcut
  exact Prod.mk.inj (Option.some.inj hcut)

theorem Text.eq_append_of_cut? {b : UInt8} {t l r : Text} (h : cut? b t = some (l, r)) :
    t = l ++ b :: r := by
  induction t generalizing l with
  | nil => cases h
  | cons c t ih =>
    rw [cut?] at h
    split at h
    case isTrue heq =>
      cases h
      rw [heq, List.nil_append]
    case isFalse =>
      obtain ⟨⟨l', r'⟩, hcut, heq⟩ := Option.map_eq_some_iff.mp h
      cases heq
      rw [ih hcut, List.cons_append]

namespace Method

variable {whole s token rest : Text}

theorem eq_append_of_splitParameter (h : splitParameter whole s = .ok (token, rest)) :
    s = token ++ rest := by
  have hsplit := List.takeWhile_append_dropWhile (p := (· = Ascii.openBracket)) (l := s)
  unfold splitParameter at h
  dsimp only at h
  generalize s.takeWhile (· = Ascii.openBracket) = brackets at h hsplit
  generalize s.dropWhile (· = Ascii.openBracket) = body at h hsplit
  rw [← hsplit]
  cases body with
  | nil => cases h
  | cons b body =>
    dsimp only at h
    split at h
    case isTrue =>
      split at h
      case h_1 hcut =>
        cases h
        rw [Text.eq_append_of_cut? hcut]
        simp
      case h_2 => cases h
    case isFalse =>
      cases h
      simp

/-- The first parameter ends where what spells it ends. -/
theorem splitParameter_append {type : FieldType} (h : type.Spelled token) (whole rest : Text) :
    splitParameter whole (token ++ rest) = .ok (token, rest) := by
  obtain ⟨n, body, rfl, e, helement⟩ := FieldType.exists_spelled_iff.mp ⟨type, h⟩
  have hhead : (body ++ rest).head? ≠ some Ascii.openBracket := by
    rw [List.head?_append_of_ne_nil _ helement.ne_nil]
    exact helement.head_ne
  obtain ⟨htake, hdrop⟩ := FieldType.brackets_append n hhead
  rw [List.append_assoc, splitParameter, htake, hdrop]
  cases helement with
  | primitive p =>
    have hp : p.code ≠ Ascii.capitalL := by cases p <;> decide
    simp [hp]
  | reference ne_nil semicolon bracket =>
    simp [Text.cut?_append semicolon]

/-! ## The parameters -/

section Steps

variable {m : Type → Type} [Monad m] [MonadExceptOf Malformed m] {type : Text → m FieldType}
  {index : Nat} {b : UInt8}

theorem parseParams_close : parseParams type whole index (Ascii.closeParen :: rest) = pure ([], rest) := by
  rw [parseParams, if_pos rfl]

theorem parseParams_of_error {e : Malformed} (hb : b ≠ Ascii.closeParen)
    (h : splitParameter whole (b :: s) = .error e) :
    parseParams type whole index (b :: s) = throwThe Malformed e := by
  rw [parseParams, if_neg hb]
  split
  case h_1 herror => rw [Except.error.inj (h.symm.trans herror)]
  case h_2 hok => cases h.symm.trans hok

theorem parseParams_of_token (hb : b ≠ Ascii.closeParen)
    (h : splitParameter whole (b :: s) = .ok (token, rest)) :
    parseParams type whole index (b :: s) = do
      let param ← Malformed.within (.parameter index whole) (type token)
      let (params, result) ← parseParams type whole (index + 1) rest
      return (param :: params, result) := by
  rw [parseParams, if_neg hb]
  split
  case h_1 herror => cases h.symm.trans herror
  case h_2 hok =>
    cases h.symm.trans hok
    rfl

end Steps

end Method

theorem ElementType.Spelled.head_ne_close {s : Text} {e : ElementType} (h : e.Spelled s) :
    s.head? ≠ some Ascii.closeParen := by
  cases h with
  | primitive p => cases p <;> decide
  | reference => exact ne_of_beq_false rfl

theorem FieldType.Spelled.exists_cons {s : Text} {t : FieldType} (h : t.Spelled s) :
    ∃ b rest, s = b :: rest ∧ b ≠ Ascii.closeParen := by
  obtain ⟨n, body, rfl, e, helement⟩ := FieldType.exists_spelled_iff.mp ⟨t, h⟩
  cases n with
  | zero =>
    obtain ⟨b, rest, rfl⟩ := List.exists_cons_of_ne_nil helement.ne_nil
    exact ⟨b, rest, rfl, by simpa using helement.head_ne_close⟩
  | succ n => exact ⟨Ascii.openBracket, _, rfl, by decide⟩

namespace Method

variable {whole s result : Text} {index : Nat} {types : List FieldType} {params : List Text}

theorem parseParams_of_spelled (h : List.Forall₂ FieldType.Spelled params types)
    (whole : Text) (index : Nat) (result : Text) :
    parseParams FieldType.parse whole index (params.flatten ++ Ascii.closeParen :: result)
      = .ok (types, result) := by
  induction h generalizing index with
  | nil => exact parseParams_close
  | @cons token type params types hfirst _ ih =>
    have hsplit := splitParameter_append hfirst whole
      (params.flatten ++ Ascii.closeParen :: result)
    obtain ⟨b, rest, htoken, hb⟩ := hfirst.exists_cons
    rw [htoken, List.cons_append] at hsplit
    rw [List.flatten_cons, List.append_assoc, htoken, List.cons_append,
      parseParams_of_token hb hsplit, ← htoken, hfirst.parse, ih]
    rfl

theorem spelled_of_parseParams
    (h : parseParams FieldType.parse whole index s = .ok (types, result)) :
    ∃ params, s = params.flatten ++ Ascii.closeParen :: result ∧
      List.Forall₂ FieldType.Spelled params types := by
  induction hn : s.length using Nat.strongRecOn generalizing s index types with
  | ind n ih =>
  subst hn
  match s with
  | [] =>
    rw [parseParams] at h
    cases h
  | b :: s =>
    by_cases hb : b = Ascii.closeParen
    · subst hb
      rw [parseParams_close] at h
      cases h
      exact ⟨[], rfl, .nil⟩
    · cases hsplit : splitParameter whole (b :: s) with
      | error e =>
        rw [parseParams_of_error hb hsplit] at h
        cases h
      | ok parts =>
        obtain ⟨token, rest⟩ := parts
        have hshorter := length_lt_of_splitParameter hsplit
        rw [parseParams_of_token hb hsplit] at h
        cases htype : FieldType.parse token with
        | error e =>
          rw [htype] at h
          cases h
        | ok type =>
          cases hrest : parseParams FieldType.parse whole (index + 1) rest with
          | error e =>
            rw [htype, hrest] at h
            cases h
          | ok found =>
            rw [htype, hrest] at h
            cases h
            obtain ⟨params, rfl, hparams⟩ := ih _ hshorter hrest rfl
            refine ⟨token :: params, ?_, .cons (FieldType.spelled_of_parse htype) hparams⟩
            rw [eq_append_of_splitParameter hsplit, List.flatten_cons, List.append_assoc]

/-! ## The parts of a descriptor -/

/-- Parameters in a row are told apart by what spells them. -/
theorem eq_of_flatten_eq {others : List Text} {other : Text}
    (hparams : ∀ t ∈ params, ∃ type, FieldType.Spelled t type)
    (hothers : ∀ t ∈ others, ∃ type, FieldType.Spelled t type)
    (h : params.flatten ++ Ascii.closeParen :: result
      = others.flatten ++ Ascii.closeParen :: other) : params = others ∧ result = other := by
  induction params generalizing others with
  | nil =>
    cases others with
    | nil => exact ⟨rfl, (List.cons.inj h).2⟩
    | cons u others =>
      obtain ⟨type, hu⟩ := hothers u (List.mem_cons_self ..)
      obtain ⟨b, rest, rfl, hb⟩ := hu.exists_cons
      exact absurd (List.cons.inj h).1.symm hb
  | cons t params ih =>
    obtain ⟨type, ht⟩ := hparams t (List.mem_cons_self ..)
    cases others with
    | nil =>
      obtain ⟨b, rest, rfl, hb⟩ := ht.exists_cons
      exact absurd (List.cons.inj h).1 hb
    | cons u others =>
      obtain ⟨type', hu⟩ := hothers u (List.mem_cons_self ..)
      rw [List.flatten_cons, List.flatten_cons, List.append_assoc, List.append_assoc] at h
      have hsplit := splitParameter_append ht [] (params.flatten ++ Ascii.closeParen :: result)
      rw [h, splitParameter_append hu] at hsplit
      obtain ⟨rfl, hrest⟩ := Prod.mk.inj (Except.ok.inj hsplit)
      obtain ⟨rfl, rfl⟩ := ih (fun t ht => hparams t (List.mem_cons_of_mem _ ht))
        (fun t ht => hothers t (List.mem_cons_of_mem _ ht)) hrest.symm
      exact ⟨rfl, rfl⟩

end Method

/-! ## Types in a row -/

namespace FieldType

variable {params : List Text} {types : List FieldType}

theorem exists_all_spelled_iff :
    (∃ types, List.Forall₂ Spelled params types) ↔ ∀ t ∈ params, ∃ type, parse t = .ok type := by
  constructor
  · rintro ⟨types, h⟩
    induction h with
    | nil => simp
    | cons hfirst _ ih => exact List.forall_mem_cons.mpr ⟨⟨_, hfirst.parse⟩, ih⟩
  · intro h
    induction params with
    | nil => exact ⟨[], .nil⟩
    | cons t params ih =>
      obtain ⟨⟨type, htype⟩, hparams⟩ := List.forall_mem_cons.mp h
      obtain ⟨types, htypes⟩ := ih hparams
      exact ⟨type :: types, .cons (spelled_of_parse htype) htypes⟩

theorem wellFormed_of_spelled (h : List.Forall₂ Spelled params types) :
    ∀ t ∈ types, t.WellFormed := by
  induction h with
  | nil => simp
  | cons hfirst _ ih => exact List.forall_mem_cons.mpr ⟨hfirst.wellFormed, ih⟩

theorem flatMap_raw_of_spelled (h : List.Forall₂ Spelled params types) :
    types.flatMap raw = Text.replace Ascii.dot Ascii.slash params.flatten := by
  induction h with
  | nil => rfl
  | cons hfirst _ ih =>
    rw [List.flatMap_cons, List.flatten_cons, Text.replace_append, hfirst.raw_eq, ih]

end FieldType

/-! ## Results -/

namespace ReturnType

/-- A text spells a result: the code for none, or a type. -/
inductive Spelled : Text → ReturnType → Prop where
  | void : Spelled [voidCode] .void
  | value {s : Text} {t : FieldType} (type : t.Spelled s) : Spelled s (.value t)

theorem not_spelled_voidCode (t : FieldType) : ¬ t.Spelled [voidCode] := by
  intro h
  have hparse := h.parse
  rw [show FieldType.parse [voidCode] = .error (.unknownPrimitive [voidCode]) from rfl] at hparse
  cases hparse

theorem exists_spelled_iff {s : Text} :
    (∃ r : ReturnType, r.Spelled s) ↔ s = [voidCode] ∨ ∃ t, FieldType.parse s = .ok t := by
  constructor
  · rintro ⟨r, hr⟩
    cases hr with
    | void => exact .inl rfl
    | value type => exact .inr ⟨_, type.parse⟩
  · rintro (rfl | ⟨t, ht⟩)
    · exact ⟨_, .void⟩
    · exact ⟨_, .value (FieldType.spelled_of_parse ht)⟩

variable {s : Text} {r : ReturnType}

theorem Spelled.eq_or_parse (h : r.Spelled s) :
    s = [voidCode] ∧ r = .void ∨ ∃ t, FieldType.parse s = .ok t ∧ r = .value t := by
  cases h with
  | void => exact .inl ⟨rfl, rfl⟩
  | value type => exact .inr ⟨_, type.parse, rfl⟩

def WellFormed : ReturnType → Prop
  | void => True
  | value t => t.WellFormed

theorem Spelled.ne_nil (h : r.Spelled s) : s ≠ [] := by
  cases h with
  | void => simp
  | value type => exact type.ne_nil

theorem Spelled.wellFormed (h : r.Spelled s) : r.WellFormed := by
  cases h with
  | void => trivial
  | value type => exact type.wellFormed

theorem Spelled.raw_eq (h : r.Spelled s) : r.raw = s.replace Ascii.dot Ascii.slash := by
  cases h with
  | void => rfl
  | value type => exact type.raw_eq

theorem WellFormed.spelled_raw (h : r.WellFormed) : r.Spelled r.raw := by
  cases r with
  | void => exact .void
  | value t => exact .value (FieldType.WellFormed.spelled_raw h)

end ReturnType

/-! ## Methods -/

namespace Method

/-- A text spells a method: its parameters between parentheses, then its result. -/
def Spelled (raw : Text) (m : Method) : Prop :=
  ∃ params result, raw = Ascii.openParen :: (params.flatten ++ Ascii.closeParen :: result) ∧
    List.Forall₂ FieldType.Spelled params m.params ∧ m.result.Spelled result

def WellFormed (m : Method) : Prop := (∀ t ∈ m.params, t.WellFormed) ∧ m.result.WellFormed

variable {raw name : Text} {static : Bool} {m : Method}

theorem parse_of_spelled (h : m.Spelled raw) : parse raw m.name m.static = .ok m := by
  obtain ⟨params, result, rfl, hparams, hresult⟩ := h
  have hne : 0 < result.length := List.length_pos_iff.mpr hresult.ne_nil
  have hread := parseParams_of_spelled hparams
    (Ascii.openParen :: (params.flatten ++ Ascii.closeParen :: result)) 0 result
  have hlength : ¬ (Ascii.openParen :: (params.flatten ++ Ascii.closeParen :: result)).length < 3 := by
    simp only [List.length_cons, List.length_append]
    omega
  rw [parse, parseWith, if_neg (by simpa using hlength)]
  rw [List.tail_cons, hread]
  cases m with
  | mk name types r static =>
    cases hresult with
    | void => rfl
    | @value _ t type =>
      have hvoid : result ≠ [ReturnType.voidCode] := by
        rintro rfl
        exact ReturnType.not_spelled_voidCode t type
      change (if result = [ReturnType.voidCode] then _ else _) = _
      rw [if_neg hvoid, type.parse]
      rfl

theorem spelled_of_parse (h : parse raw name static = .ok m) :
    m.Spelled raw ∧ m.name = name ∧ m.static = static := by
  rw [parse, parseWith] at h
  split at h
  case isTrue => cases h
  case isFalse hshape =>
    simp only [Bool.or_eq_true, decide_eq_true_eq, not_or, ne_eq, Decidable.not_not] at hshape
    obtain ⟨rest, rfl⟩ := List.head?_eq_some_iff.mp hshape.2
    rw [List.tail_cons] at h
    cases hparams : parseParams FieldType.parse (Ascii.openParen :: rest) 0 rest with
    | error e =>
      rw [hparams] at h
      cases h
    | ok found =>
      obtain ⟨types, result⟩ := found
      obtain ⟨params, hrest, hspelled⟩ := spelled_of_parseParams hparams
      rw [hparams] at h
      change (if result = [ReturnType.voidCode] then _ else _) = _ at h
      split at h
      case isTrue hvoid =>
        cases h
        exact ⟨⟨params, result, by rw [hrest], hspelled, hvoid ▸ .void⟩, rfl, rfl⟩
      case isFalse =>
        cases htype : FieldType.parse result with
        | error e =>
          rw [htype] at h
          cases h
        | ok type =>
          rw [htype] at h
          cases h
          have hresult := ReturnType.Spelled.value (FieldType.spelled_of_parse htype)
          exact ⟨⟨params, result, by rw [hrest], hspelled, hresult⟩, rfl, rfl⟩

theorem Spelled.wellFormed (h : m.Spelled raw) : m.WellFormed := by
  obtain ⟨params, result, -, hparams, hresult⟩ := h
  exact ⟨FieldType.wellFormed_of_spelled hparams, hresult.wellFormed⟩

theorem Spelled.raw_eq (h : m.Spelled raw) : m.raw = raw.replace Ascii.dot Ascii.slash := by
  obtain ⟨params, result, rfl, hparams, hresult⟩ := h
  have hopen : Ascii.openParen ≠ Ascii.dot := by decide
  have hclose : Ascii.closeParen ≠ Ascii.dot := by decide
  simp [raw, FieldType.flatMap_raw_of_spelled hparams, hresult.raw_eq, hopen, hclose]

theorem WellFormed.spelled_raw (h : m.WellFormed) : m.Spelled m.raw := by
  refine ⟨m.params.map FieldType.raw, m.result.raw, ?_, ?_, h.2.spelled_raw⟩
  · rw [Method.raw, List.flatMap, List.cons_append]
  · rw [List.forall₂_map_left_iff, List.forall₂_same]
    exact fun t ht => (h.1 t ht).spelled_raw

theorem WellFormed.parse_raw (h : m.WellFormed) : parse m.raw m.name m.static = .ok m :=
  parse_of_spelled h.spelled_raw

end Method

/-! ## Refusals -/

/-- Every refusal says that a descriptor is malformed, whatever it was met in. -/
theorem Malformed.heading_in_message (e : Malformed) : heading <:+: e.message := by
  induction e with
  | parameter index raw cause ih => exact ih.trans (List.suffix_append ..).isInfix
  | returnType raw cause ih => exact ih.trans (List.suffix_append ..).isInfix
  | field name cause ih => exact ih.trans (List.suffix_append ..).isInfix
  | _ =>
    simp only [message, List.append_assoc]
    exact (List.prefix_append ..).isInfix

/-! ## The grammar -/

namespace Method

/-- A descriptor taken apart: parameters between parentheses that are accepted as types, and a
result that is accepted as a type or is the code for none. -/
structure Parts (raw : Text) (params : List Text) (result : Text) : Prop where
  raw_eq : raw = Ascii.openParen :: (params.flatten ++ Ascii.closeParen :: result)
  params_accepted : ∀ t ∈ params, ∃ type, FieldType.parse t = .ok type
  result_accepted : result = [ReturnType.voidCode] ∨ ∃ type, FieldType.parse result = .ok type

variable {raw name : Text} {static : Bool} {m : Method} {params : List Text} {result : Text}

theorem Parts.unique {others : List Text} {other : Text} (h : Parts raw params result)
    (hother : Parts raw others other) : params = others ∧ result = other := by
  have hraw := List.cons.inj (h.raw_eq.symm.trans hother.raw_eq)
  refine eq_of_flatten_eq ?_ ?_ hraw.2
  · intro t ht
    obtain ⟨type, htype⟩ := h.params_accepted t ht
    exact ⟨type, FieldType.spelled_of_parse htype⟩
  · intro t ht
    obtain ⟨type, htype⟩ := hother.params_accepted t ht
    exact ⟨type, FieldType.spelled_of_parse htype⟩

theorem Parts.exists_spelled (h : Parts raw params result) (name : Text) (static : Bool) :
    ∃ m : Method, m.Spelled raw ∧ m.name = name ∧ m.static = static := by
  obtain ⟨types, htypes⟩ := FieldType.exists_all_spelled_iff.mpr h.params_accepted
  obtain ⟨r, hr⟩ := ReturnType.exists_spelled_iff.mpr h.result_accepted
  exact ⟨⟨name, types, r, static⟩, ⟨params, result, h.raw_eq, htypes, hr⟩, rfl, rfl⟩

theorem Spelled.exists_parts (h : m.Spelled raw) :
    ∃ params result, Parts raw params result ∧
      List.Forall₂ (fun t type => FieldType.parse t = .ok type) params m.params ∧
      m.result.Spelled result := by
  obtain ⟨params, result, hraw, hparams, hresult⟩ := h
  have haccepted := FieldType.exists_all_spelled_iff.mp ⟨_, hparams⟩
  have hresults := ReturnType.exists_spelled_iff.mp ⟨_, hresult⟩
  exact ⟨params, result, ⟨hraw, haccepted, hresults⟩, hparams.imp fun _ _ ht => ht.parse, hresult⟩

/-- A descriptor is accepted if and only if it can be taken apart into parameters and a result, which
is possible in at most one way. What is read has the given name and flag, the types of the parameters
in order, and the type of the result or none. Its written form is the text with slashes for dots, and
from that it is read again. A refusal always says that the descriptor is malformed. -/
theorem parse_accepts_parts (raw name : Text) (static : Bool) :
    ((∃ m, parse raw name static = .ok m) ↔ ∃ params result, Parts raw params result) ∧
      (∀ params result others other, Parts raw params result → Parts raw others other →
        params = others ∧ result = other) ∧
      (∀ m params result, parse raw name static = .ok m → Parts raw params result →
        m.name = name ∧ m.static = static ∧
          List.Forall₂ (fun t type => FieldType.parse t = .ok type) params m.params ∧
          (result = [ReturnType.voidCode] ∧ m.result = .void ∨
            ∃ type, FieldType.parse result = .ok type ∧ m.result = .value type)) ∧
      (∀ m, parse raw name static = .ok m →
        m.raw = raw.replace Ascii.dot Ascii.slash ∧ parse m.raw name static = .ok m) ∧
      ∀ e, parse raw name static = .error e → Malformed.heading <:+: e.message := by
  refine ⟨⟨?_, ?_⟩, ?_, ?_, ?_, ?_⟩
  · rintro ⟨m, hm⟩
    obtain ⟨params, result, hparts, -⟩ := (spelled_of_parse hm).1.exists_parts
    exact ⟨params, result, hparts⟩
  · rintro ⟨params, result, hparts⟩
    obtain ⟨m, hm, rfl, rfl⟩ := hparts.exists_spelled name static
    exact ⟨m, parse_of_spelled hm⟩
  · intro params result others other h hother
    exact h.unique hother
  · intro m params result hm hparts
    obtain ⟨hspelled, hname, hstatic⟩ := spelled_of_parse hm
    obtain ⟨others, other, hothers, htypes, hresult⟩ := hspelled.exists_parts
    obtain ⟨rfl, rfl⟩ := hparts.unique hothers
    exact ⟨hname, hstatic, htypes, hresult.eq_or_parse⟩
  · intro m hm
    obtain ⟨hspelled, rfl, rfl⟩ := spelled_of_parse hm
    exact ⟨hspelled.raw_eq, hspelled.wellFormed.parse_raw⟩
  · intro e _
    exact e.heading_in_message

end Method

end JvmLinkage
