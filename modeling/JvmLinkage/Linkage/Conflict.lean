import JvmLinkage.Descriptor.Parser

/-!
# Conflicts

A conflict is a reference that would fail to link, with its category, the two ends of the reference
and the artifacts that supply them.
-/

namespace JvmLinkage

/-- What kind of linkage error is predicted. Codes that stand for none are kept as they are. -/
inductive Category where
  | classNotFound
  | methodNotFound
  | fieldNotFound
  | other (code : Int)
  deriving DecidableEq, Repr, Inhabited

namespace Category

/-- The categories in the order of reports. -/
def all : List Category := [classNotFound, methodNotFound, fieldNotFound]

/-- The category with a code. -/
def ofCode : Int → Category
  | 0 => classNotFound
  | 1 => methodNotFound
  | 2 => fieldNotFound
  | code => other code

/-- The code of a category. -/
def code : Category → Int
  | classNotFound => 0
  | methodNotFound => 1
  | fieldNotFound => 2
  | other code => code

/-- The name of a category. -/
def shown : Category → Text
  | classNotFound => "class-not-found"
  | methodNotFound => "method-not-found"
  | fieldNotFound => "field-not-found"
  | other code => "Category(" ++ Text.ofInt code ++ ")"

/-- The heading of a category. -/
def title : Category → Text
  | classNotFound => "Class not found"
  | methodNotFound => "Method not found"
  | fieldNotFound => "Field not found"
  | c => c.shown

/-- The category with a name. -/
def ofText? (t : Text) : Option Category := all.find? fun c => c.shown = t

/-- The message for a name that no category has. -/
def unknownMessage (t : Text) : Text := "unknown conflict category " ++ t.quoted

end Category

/-- The two ends of a reference. -/
structure Dependency where
  fromClass : ClassName
  fromMethod : Method
  line : Int
  targetClass : ClassName
  targetMethod : Option Method
  targetField : Option Field
  deriving DecidableEq, Repr, Inhabited

namespace Dependency

/-- Whether the target is a field. -/
def isField (d : Dependency) : Bool := d.targetField.isSome

/-- The referring end as shown to a reader. -/
def source (d : Dependency) : Text :=
  let place := d.fromClass.dotted ++ "." ++ d.fromMethod.shownCall
  if d.line > 0 then place ++ ":" ++ Text.ofInt d.line else place

/-- The end referred to as shown to a reader. -/
def target (d : Dependency) : Text :=
  match d.targetMethod, d.targetField with
  | some m, _ => d.targetClass.dotted ++ "." ++ m.shownCall
  | none, some f => d.targetClass.dotted ++ "." ++ f.name
  | none, none => d.targetClass.dotted

end Dependency

/-- A predicted linkage error. -/
structure Conflict where
  category : Category
  dependency : Dependency
  usedBy : Text
  existsIn : Text
  reason : Text
  deriving DecidableEq, Repr, Inhabited

/-- The conflict on one line. -/
def Conflict.shown (c : Conflict) : Text :=
  c.category.title ++ ": " ++ c.dependency.target ++ " (used by " ++ c.usedBy ++ ", from "
    ++ c.dependency.source ++ ")"

end JvmLinkage
