import JvmLinkage.Text.Quoted

/-!
# Types, methods and fields

The types that a class file names, the signatures of its methods and fields, the encoded form of
each, and the form in which messages show it.
-/

namespace JvmLinkage

/-- A primitive type of a field, a parameter or an array element. -/
inductive Primitive where
  | byte | short | int | long | float | double | boolean | char
  deriving DecidableEq, Repr, Inhabited

namespace Primitive

/-- The primitives in the order in which they are listed. -/
def all : List Primitive := [byte, short, int, long, float, double, boolean, char]

/-- The octet that encodes the type. -/
def code : Primitive → UInt8
  | byte => 0x42
  | short => 0x53
  | int => 0x49
  | long => 0x4A
  | float => 0x46
  | double => 0x44
  | boolean => 0x5A
  | char => 0x43

/-- The keyword of the type. -/
def keyword : Primitive → Text
  | byte => "byte"
  | short => "short"
  | int => "int"
  | long => "long"
  | float => "float"
  | double => "double"
  | boolean => "boolean"
  | char => "char"

/-- The primitive that an octet encodes. -/
def ofCode? (b : UInt8) : Option Primitive := all.find? fun p => p.code = b

end Primitive

/-- The name of a class, its parts divided by dots. -/
structure ClassName where
  dotted : Text
  deriving DecidableEq, Repr, Inhabited

namespace ClassName

/-- The name with its parts divided by slashes, as class files hold it. -/
def slashed (c : ClassName) : Text := c.dotted.replace Ascii.dot Ascii.slash

/-- The encoded form of the class type. -/
def raw (c : ClassName) : Text := Ascii.capitalL :: c.slashed ++ [Ascii.semicolon]

/-- The part before the last dot, empty for the default package. -/
def package (c : ClassName) : Text :=
  match c.dotted.cutLast? Ascii.dot with
  | some (package, _) => package
  | none => []

/-- The part after the last dot. -/
def simple (c : ClassName) : Text :=
  match c.dotted.cutLast? Ascii.dot with
  | some (_, simple) => simple
  | none => c.dotted

/-- Whether `a` stands before or at the place of `b` in the order of names. -/
def le (a b : ClassName) : Bool := a.dotted.le b.dotted

instance : Ord ClassName := ⟨fun a b => compare a.dotted b.dotted⟩

instance : Std.TransOrd ClassName := inferInstanceAs (Std.TransCmp (compareOn dotted))

instance : Std.LawfulEqOrd ClassName where
  compare_self {a} := Std.ReflOrd.compare_self (a := a.dotted)
  eq_of_compare {a b} h := by
    have hd : a.dotted = b.dotted := Std.LawfulEqOrd.eq_of_compare h
    cases a
    cases b
    simpa using hd

end ClassName

/-- The type of an array element that is itself no array. -/
inductive ElementType where
  | primitive (p : Primitive)
  | reference (c : ClassName)
  deriving DecidableEq, Repr, Inhabited

namespace ElementType

/-- The encoded form. -/
def raw : ElementType → Text
  | primitive p => [p.code]
  | reference c => c.raw

/-- The form shown to a reader. -/
def shown : ElementType → Text
  | primitive p => p.keyword
  | reference c => c.dotted

/-- Whether two types are described alike: primitives by their codes, classes by their names. -/
def equal : ElementType → ElementType → Bool
  | primitive p, primitive q => p.code = q.code
  | reference c, reference d => c.dotted = d.dotted
  | _, _ => false

end ElementType

/-- The type of a field or parameter. -/
inductive FieldType where
  | plain (element : ElementType)
  | array (element : ElementType) (dimensions : Nat)
  deriving DecidableEq, Repr, Inhabited

namespace FieldType

/-- The encoded form: a bracket for each dimension, then the element. -/
def raw : FieldType → Text
  | plain e => e.raw
  | array e n => List.replicate n Ascii.openBracket ++ e.raw

/-- The form shown to a reader. -/
def shown : FieldType → Text
  | plain e => e.shown
  | array e n => e.shown ++ Text.times n "[]"

/-- Whether values of the type are references. -/
def isReference : FieldType → Bool
  | plain (.primitive _) => false
  | _ => true

/-- Whether two types are described alike: arrays by their dimensions and elements. -/
def equal : FieldType → FieldType → Bool
  | plain e, plain f => e.equal f
  | array e m, array f n => m = n && e.equal f
  | _, _ => false

/-- Whether two types that may be absent are described alike; the absence of both is. -/
def alike : Option FieldType → Option FieldType → Bool
  | some t, some u => t.equal u
  | none, none => true
  | _, _ => false

/-- The array type with `dimensions` more dimensions; nested arrays are flattened. There is none
when a negative number of dimensions would be left. -/
def wrap? (t : FieldType) (dimensions : Int) : Option FieldType :=
  let (element, total) : ElementType × Int :=
    match t with
    | plain e => (e, dimensions)
    | array e n => (e, n + dimensions)
  if total < 0 then none else some (array element total.toNat)

end FieldType

/-- What a method gives back. -/
inductive ReturnType where
  | void
  | value (type : FieldType)
  deriving DecidableEq, Repr, Inhabited

namespace ReturnType

/-- The octet that encodes the absence of a value. -/
def voidCode : UInt8 := 0x56

/-- The encoded form. -/
def raw : ReturnType → Text
  | void => [voidCode]
  | value t => t.raw

/-- The form shown to a reader. -/
def shown : ReturnType → Text
  | void => "void"
  | value t => t.shown

end ReturnType

/-- The signature of a method, with the flag that tells class methods from instance methods. -/
structure Method where
  name : Text
  params : List FieldType
  result : ReturnType
  static : Bool
  deriving DecidableEq, Repr, Inhabited

namespace Method

/-- The encoded form of parameters and result. -/
def raw (m : Method) : Text :=
  Ascii.openParen :: (m.params.flatMap FieldType.raw) ++ Ascii.closeParen :: m.result.raw

/-- The identity of a method in its class: the name followed by the encoded form. -/
def key (m : Method) : Text := m.name ++ m.raw

/-- The initialiser that runs when a class is first used. -/
def classInit : Method := ⟨"<clinit>", [], .void, true⟩

/-- The same signature with another static flag. -/
def withStatic (m : Method) (static : Bool) : Method := { m with static }

/-- The name with the parameter types. -/
def shownCall (m : Method) : Text :=
  m.name ++ "(" ++ Text.join ", " (m.params.map FieldType.shown) ++ ")"

/-- The whole signature as shown to a reader. -/
def shown (m : Method) : Text :=
  let signature := m.result.shown ++ " " ++ m.shownCall
  if m.static then "static " ++ signature else signature

/-- The order of methods in a class: by name, then by encoded form. -/
def cmp (a b : Method) : Ordering := (compare a.name b.name).then (compare a.raw b.raw)

instance : Std.TransCmp cmp :=
  inferInstanceAs (Std.TransCmp (compareLex (compareOn name) (compareOn raw)))

end Method

/-- A field by name and type. -/
structure Field where
  name : Text
  type : FieldType
  deriving DecidableEq, Repr, Inhabited

namespace Field

/-- The field as shown to a reader. -/
def shown (f : Field) : Text := f.type.shown ++ " " ++ f.name

/-- The order of fields in a class: by name, then by encoded type. -/
def cmp (a b : Field) : Ordering := (compare a.name b.name).then (compare a.type.raw b.type.raw)

instance : Std.TransCmp cmp :=
  inferInstanceAs (Std.TransCmp (compareLex (compareOn name) (compareOn (·.type.raw))))

end Field

end JvmLinkage
