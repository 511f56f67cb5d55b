import JvmLinkage.Declared.Decoder

/-!
# Snapshots of declared classes

A snapshot is a declared class in plain texts: names as shown, types and signatures in encoded form.
Restoring reads the texts back and builds the class anew.
-/

namespace JvmLinkage

/-- A field in texts. -/
structure FieldSnapshot where
  name : Text
  type : Text
  deriving DecidableEq, Repr, Inhabited

/-- A call in texts. -/
structure CallSnapshot where
  owner : Text
  name : Text
  descriptor : Text
  static : Bool
  line : Int
  caught : List Text
  deriving DecidableEq, Repr, Inhabited

/-- An access in texts. -/
structure AccessSnapshot where
  owner : Text
  name : Text
  type : Text
  static : Bool
  line : Int
  caught : List Text
  deriving DecidableEq, Repr, Inhabited

/-- A method in texts. -/
structure MethodSnapshot where
  name : Text
  descriptor : Text
  static : Bool
  line : Int
  calls : List CallSnapshot
  accesses : List AccessSnapshot
  deriving DecidableEq, Repr, Inhabited

/-- A class in texts. -/
structure ClassSnapshot where
  name : Text
  parents : List Text
  loads : List Text
  fields : List FieldSnapshot
  methods : List MethodSnapshot
  deriving DecidableEq, Repr, Inhabited

/-! ## Taking snapshots -/

/-- The snapshot of a call. -/
def CallSnapshot.ofCall (c : Call) : CallSnapshot :=
  ⟨c.owner.dotted, c.method.name, c.method.raw, c.method.static, c.line,
    c.caught.map ClassName.dotted⟩

/-- The snapshot of an access. -/
def AccessSnapshot.ofAccess (a : Access) : AccessSnapshot :=
  ⟨a.owner.dotted, a.field.name, a.field.type.raw, a.static, a.line, a.caught.map ClassName.dotted⟩

/-- The snapshot of a method. -/
def MethodSnapshot.ofMethod (m : DeclaredMethod) : MethodSnapshot :=
  ⟨m.method.name, m.method.raw, m.method.static, m.line, m.calls.map CallSnapshot.ofCall,
    m.accesses.map AccessSnapshot.ofAccess⟩

/-- The snapshot of a class. -/
def ClassSnapshot.ofClass (c : DeclaredClass) : ClassSnapshot :=
  ⟨c.name.dotted, c.parents.map ClassName.dotted, c.loads.map ClassName.dotted,
    c.fields.map fun f => ⟨f.name, f.type.raw⟩, c.methods.map MethodSnapshot.ofMethod⟩

/-! ## Restoring -/

variable {m : Type → Type} [Monad m] [DescriptorSource m]

/-- Reads class names. -/
def restoreNames (names : List Text) : ExceptT Fault m (List ClassName) :=
  names.mapM fun name => Decoder.descriptor [] (DescriptorSource.className name)

/-- The call of a snapshot. -/
def CallSnapshot.restore (c : CallSnapshot) : ExceptT Fault m Call := do
  let owner ← Decoder.descriptor [] (DescriptorSource.className c.owner)
  let method ← Decoder.descriptor [] (DescriptorSource.method c.descriptor c.name c.static)
  let caught ← restoreNames c.caught
  return ⟨owner, method, c.line, caught⟩

/-- The access of a snapshot. -/
def AccessSnapshot.restore (a : AccessSnapshot) : ExceptT Fault m Access := do
  let owner ← Decoder.descriptor [] (DescriptorSource.className a.owner)
  let field ← Decoder.descriptor [] (DescriptorSource.field a.name a.type)
  let caught ← restoreNames a.caught
  return ⟨owner, field, a.static, a.line, caught⟩

/-- The method of a snapshot. -/
def MethodSnapshot.restore (s : MethodSnapshot) : ExceptT Fault m DeclaredMethod := do
  let method ← Decoder.descriptor [] (DescriptorSource.method s.descriptor s.name s.static)
  let calls ← s.calls.mapM CallSnapshot.restore
  let accesses ← s.accesses.mapM AccessSnapshot.restore
  return ⟨method, s.line, calls, accesses⟩

/-- Restores a method and adds it to the class. -/
def MethodSnapshot.addTo (b : ClassBuilder) (s : MethodSnapshot) : ExceptT Fault m ClassBuilder := do
  let method ← s.restore
  match b.addMethod? method with
  | some b => return b
  | none => throw (.ofCause (.duplicateMethod method.method b.name))

/-- The class of a snapshot. -/
def ClassSnapshot.restore (s : ClassSnapshot) : ExceptT Fault m DeclaredClass := do
  let name ← Decoder.descriptor [] (DescriptorSource.className s.name)
  let parents ← restoreNames s.parents
  let loads ← restoreNames s.loads
  let fields ← s.fields.mapM fun f =>
    Decoder.descriptor [] (DescriptorSource.field f.name f.type)
  let b := (((ClassBuilder.start name).addParents parents).addLoads loads).addFields fields
  let b ← s.methods.foldlM MethodSnapshot.addTo b
  return b.build

/-- The class of a snapshot, read without tables of descriptors. -/
def ClassSnapshot.toClass (s : ClassSnapshot) : Except Fault DeclaredClass :=
  Id.run (s.restore (m := Id)).run

end JvmLinkage
