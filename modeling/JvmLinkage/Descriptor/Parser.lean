import JvmLinkage.Descriptor.Basic

/-!
# Reading descriptors

The encoded forms of types, methods and fields are read back here. Readers run in any monad with
failures, so that the same rules serve with and without a table of results already known.
-/

namespace JvmLinkage

/-- Why an encoded form was refused. -/
inductive Malformed where
  | emptyClassName
  | terminatedClassName (name : Text)
  | emptyType
  | unknownPrimitive (raw : Text)
  | badType (raw : Text)
  | badClassName (raw : Text)
  | noParameterList (raw : Text)
  | truncatedType (raw : Text)
  | unterminatedClass (raw : Text)
  | unterminatedParameters (raw : Text)
  | parameter (index : Nat) (raw : Text) (cause : Malformed)
  | returnType (raw : Text) (cause : Malformed)
  | field (name : Text) (cause : Malformed)
  deriving DecidableEq, Repr, Inhabited

namespace Malformed

/-- The words that open every refusal of a descriptor. -/
def heading : Text := "malformed descriptor: "

/-- The message of a refusal. -/
def message : Malformed → Text
  | emptyClassName => heading ++ "empty class name"
  | terminatedClassName name => heading ++ "class name " ++ name.quoted ++ " ends with ';'"
  | emptyType => heading ++ "empty type descriptor"
  | unknownPrimitive raw => heading ++ "unknown primitive " ++ raw.quoted
  | badType raw => heading ++ raw.quoted
  | badClassName raw => heading ++ "invalid class name in " ++ raw.quoted
  | noParameterList raw => heading ++ "method descriptor " ++ raw.quoted
  | truncatedType raw => heading ++ "truncated type in " ++ raw.quoted
  | unterminatedClass raw => heading ++ "unterminated class type in " ++ raw.quoted
  | unterminatedParameters raw => heading ++ "unterminated parameter list in " ++ raw.quoted
  | parameter index raw cause =>
    "parameter " ++ Text.ofNat index ++ " of " ++ raw.quoted ++ ": " ++ cause.message
  | returnType raw cause => "return type of " ++ raw.quoted ++ ": " ++ cause.message
  | field name cause => "field " ++ name ++ ": " ++ cause.message

end Malformed

variable {m : Type → Type} [Monad m] [MonadExceptOf Malformed m]

/-- Reads the name of a class, its parts divided by dots or slashes. -/
def ClassName.parse (name : Text) : Except Malformed ClassName :=
  if name.isEmpty then .error .emptyClassName
  else if name.endsWith ";" then .error (.terminatedClassName name)
  else .ok ⟨name.replace Ascii.slash Ascii.dot⟩

/-- Runs a reader and puts what it says about a failure into a wider context. -/
def Malformed.within {α : Type} (context : Malformed → Malformed) (read : m α) : m α :=
  tryCatchThe Malformed read fun cause => throwThe Malformed (context cause)

/-- Reads an element type, the whole descriptor being known for messages. -/
def ElementType.parseWith (className : Text → m ClassName) (s whole : Text) : m ElementType :=
  match s with
  | [b] =>
    match Primitive.ofCode? b with
    | some p => pure (.primitive p)
    | none => throwThe Malformed (.unknownPrimitive whole)
  | _ =>
    if s.length < 3 || s.head? ≠ some Ascii.capitalL || s.getLast? ≠ some Ascii.semicolon then
      throwThe Malformed (.badType whole)
    else
      let name := s.tail.dropLast
      if name.any fun b => b = Ascii.semicolon || b = Ascii.openBracket then
        throwThe Malformed (.badClassName whole)
      else ElementType.reference <$> className name

/-- Reads a field type: brackets for the dimensions, then the element. -/
def FieldType.parseWith (className : Text → m ClassName) (raw : Text) : m FieldType :=
  if raw.isEmpty then throwThe Malformed .emptyType
  else
    let brackets := raw.takeWhile (· = Ascii.openBracket)
    let body := raw.dropWhile (· = Ascii.openBracket)
    let type := fun e =>
      if brackets.isEmpty then FieldType.plain e else .array e brackets.length
    type <$> ElementType.parseWith className body raw

/-- Splits the first field type off a list of parameters, without looking inside it. -/
def Method.splitParameter (whole s : Text) : Except Malformed (Text × Text) :=
  let brackets := s.takeWhile (· = Ascii.openBracket)
  match s.dropWhile (· = Ascii.openBracket) with
  | [] => .error (.truncatedType whole)
  | b :: rest =>
    if b = Ascii.capitalL then
      match Text.cut? Ascii.semicolon rest with
      | some (name, after) => .ok (brackets ++ b :: name ++ [Ascii.semicolon], after)
      | none => .error (.unterminatedClass whole)
    else .ok (brackets ++ [b], rest)

theorem Text.length_lt_of_cut? {b : UInt8} {t l r : Text} (h : t.cut? b = some (l, r)) :
    r.length < t.length := by
  induction t generalizing l with
  | nil => simp [cut?] at h
  | cons c t ih =>
    simp only [cut?] at h
    split at h
    · simp_all
    · simp only [Option.map_eq_some_iff, Prod.mk.injEq, Prod.exists] at h
      obtain ⟨l', r', h', -, rfl⟩ := h
      exact Nat.lt_succ_of_lt (ih h')

theorem Method.length_lt_of_splitParameter {whole s token rest : Text}
    (h : splitParameter whole s = .ok (token, rest)) : rest.length < s.length := by
  have hs : (s.dropWhile (· = Ascii.openBracket)).length ≤ s.length :=
    (List.dropWhile_suffix _).length_le
  unfold splitParameter at h
  revert h
  generalize s.dropWhile (· = Ascii.openBracket) = body at hs
  intro h
  match body with
  | [] => simp at h
  | b :: after =>
    have hafter : after.length < s.length := hs
    simp only at h
    split at h
    · split at h
      · next hcut =>
        obtain ⟨-, rfl⟩ := Prod.mk.inj (Except.ok.inj h)
        exact Nat.lt_trans (Text.length_lt_of_cut? hcut) hafter
      · simp at h
    · obtain ⟨-, rfl⟩ := Prod.mk.inj (Except.ok.inj h)
      exact hafter

/-- Reads parameters up to the closing parenthesis; the rest is the encoded result. -/
def Method.parseParams (type : Text → m FieldType) (whole : Text) (index : Nat) (s : Text) :
    m (List FieldType × Text) :=
  match s with
  | [] => throwThe Malformed (.unterminatedParameters whole)
  | b :: rest =>
    if b = Ascii.closeParen then pure ([], rest)
    else
      match h : splitParameter whole (b :: rest) with
      | .error e => throwThe Malformed e
      | .ok (token, rest') => do
        have := length_lt_of_splitParameter h
        let param ← Malformed.within (.parameter index whole) (type token)
        let (params, result) ← parseParams type whole (index + 1) rest'
        return (param :: params, result)
termination_by s.length
decreasing_by assumption

/-- Reads the encoded form of a method. -/
def Method.parseWith (type : Text → m FieldType) (raw name : Text) (static : Bool) : m Method := do
  if raw.length < 3 || raw.head? ≠ some Ascii.openParen then
    throwThe Malformed (.noParameterList raw)
  else
    let (params, resultRaw) ← parseParams type raw 0 raw.tail
    if resultRaw = [ReturnType.voidCode] then return ⟨name, params, .void, static⟩
    let result ← Malformed.within (.returnType raw) (type resultRaw)
    return ⟨name, params, .value result, static⟩

/-- Reads a field from its name and encoded type. -/
def Field.parseWith (type : Text → m FieldType) (name rawType : Text) : m Field := do
  let t ← Malformed.within (.field name) (type rawType)
  return ⟨name, t⟩

/-- Reads a field type. -/
def FieldType.parse (raw : Text) : Except Malformed FieldType :=
  FieldType.parseWith ClassName.parse raw

/-- Reads a method from its encoded form, its name and its static flag. -/
def Method.parse (raw name : Text) (static : Bool) : Except Malformed Method :=
  Method.parseWith FieldType.parse raw name static

/-- Reads a field from its name and encoded type. -/
def Field.parse (name rawType : Text) : Except Malformed Field :=
  Field.parseWith FieldType.parse name rawType

end JvmLinkage
