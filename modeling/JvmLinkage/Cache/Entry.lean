import JvmLinkage.Cache.MessagePack
import JvmLinkage.Declared.Snapshot

/-!
# Cache entries

A cache entry holds the snapshots of the classes of an archive and the number of the layout in
which they are written. Every snapshot is a map from member names to values; members that are
empty are left out. A value that is read onto an earlier one of the same member keeps what it does
not mention.
-/

namespace JvmLinkage

/-- The content of a cache entry. -/
structure CacheEntry where
  layout : Int
  classes : List ClassSnapshot
  deriving DecidableEq, Repr, Inhabited

namespace CacheEntry

/-- The layout that is written and read. -/
def currentLayout : Int := 1

/-! ## Writing -/

/-- A member that is always written. -/
def always (name : String) (value : Packed) : List (Packed × Packed) := [(.text name, value)]

/-- A member that is written if it is a list with items. -/
def unlessEmpty {α : Type} (name : String) (pack : α → Packed) (items : List α) :
    List (Packed × Packed) :=
  if items.isEmpty then [] else always name (.array (items.map pack))

/-- A member that is written if it is true. -/
def ifTrue (name : String) (b : Bool) : List (Packed × Packed) :=
  if b then always name (.bool true) else []

/-- A member that is written if it is not zero. -/
def unlessZero (name : String) (n : Int) : List (Packed × Packed) :=
  if n = 0 then [] else always name (.int n)

/-- A field as a packed value. -/
def packField (f : FieldSnapshot) : Packed :=
  .map (always "name" (.text f.name) ++ always "type" (.text f.type))

/-- A call as a packed value. -/
def packCall (c : CallSnapshot) : Packed :=
  .map (always "owner" (.text c.owner) ++ always "name" (.text c.name)
    ++ always "desc" (.text c.descriptor) ++ ifTrue "static" c.static ++ unlessZero "line" c.line
    ++ unlessEmpty "caught" .text c.caught)

/-- An access as a packed value. -/
def packAccess (a : AccessSnapshot) : Packed :=
  .map (always "owner" (.text a.owner) ++ always "name" (.text a.name)
    ++ always "type" (.text a.type) ++ ifTrue "static" a.static ++ unlessZero "line" a.line
    ++ unlessEmpty "caught" .text a.caught)

/-- A method as a packed value. -/
def packMethod (m : MethodSnapshot) : Packed :=
  .map (always "name" (.text m.name) ++ always "desc" (.text m.descriptor)
    ++ ifTrue "static" m.static ++ unlessZero "line" m.line
    ++ unlessEmpty "calls" packCall m.calls ++ unlessEmpty "fields" packAccess m.accesses)

/-- A class as a packed value. -/
def packClass (c : ClassSnapshot) : Packed :=
  .map (always "name" (.text c.name) ++ unlessEmpty "parents" .text c.parents
    ++ unlessEmpty "loads" .text c.loads ++ unlessEmpty "fields" packField c.fields
    ++ unlessEmpty "methods" packMethod c.methods)

/-- The entry as a packed value. -/
def toPacked (e : CacheEntry) : Packed :=
  .map (always "schema" (.int e.layout) ++ always "classes" (.array (e.classes.map packClass)))

/-- The octets of the entry. -/
def encode (e : CacheEntry) : Bytes := e.toPacked.encode

/-! ## Reading -/

/-- A value that stands for a text; nothing stands for the empty one. -/
def asText? : Packed → Option Text
  | .text t | .binary t => some t
  | .nil => some []
  | _ => none

/-- A value that stands for a truth value; nothing stands for falsehood. -/
def asBool? : Packed → Option Bool
  | .bool b => some b
  | .nil => some false
  | _ => none

/-- A value that stands for an integer; nothing stands for zero. -/
def asInt? : Packed → Option Int
  | .int n => some n
  | .nil => some 0
  | _ => none

/-- A value that stands for texts; nothing leaves the earlier texts as they are. -/
def asTexts? (old : List Text) : Packed → Option (List Text)
  | .array items => items.mapM asText?
  | .nil => some old
  | _ => none

/-- Reads items onto earlier items, and onto blank ones when those are used up. -/
def itemsOnto? {α : Type} (blank : α) (onto : α → Packed → Option α) :
    (old : List α) → List Packed → Option (List α)
  | _, [] => some []
  | [], item :: items => do
    let value ← onto blank item
    return value :: (← itemsOnto? blank onto [] items)
  | first :: old, item :: items => do
    let value ← onto first item
    return value :: (← itemsOnto? blank onto old items)

/-- A value that stands for a list; nothing stands for the empty one. -/
def listOnto? {α : Type} (blank : α) (onto : α → Packed → Option α) (old : List α) :
    Packed → Option (List α)
  | .array items => itemsOnto? blank onto old items
  | .nil => some []
  | _ => none

/-- Reads a record with the given members onto an earlier one. It is written as a map, in which
unknown names are passed over, or as an array with all of its members in order; nothing and the
empty array stand for the blank record. -/
def recordOnto? {α : Type} (blank : α) (members : List (Text × (α → Packed → Option α)))
    (old : α) : Packed → Option α
  | .map entries => entries.foldlM (fun record (key, value) => do
      match members.lookup (← asText? key) with
      | some onto => onto record value
      | none => return record) old
  | .array [] => some blank
  | .array items =>
    if items.length = members.length then
      (members.zip items).foldlM (fun record (m, value) => m.2 record value) old
    else none
  | .nil => some blank
  | _ => none

/-- The members of a field. -/
def fieldMembers : List (Text × (FieldSnapshot → Packed → Option FieldSnapshot)) :=
  [("name", fun f v => do return { f with name := ← asText? v }),
    ("type", fun f v => do return { f with type := ← asText? v })]

/-- The members of a call. -/
def callMembers : List (Text × (CallSnapshot → Packed → Option CallSnapshot)) :=
  [("owner", fun c v => do return { c with owner := ← asText? v }),
    ("name", fun c v => do return { c with name := ← asText? v }),
    ("desc", fun c v => do return { c with descriptor := ← asText? v }),
    ("static", fun c v => do return { c with static := ← asBool? v }),
    ("line", fun c v => do return { c with line := ← asInt? v }),
    ("caught", fun c v => do return { c with caught := ← asTexts? c.caught v })]

/-- The members of an access. -/
def accessMembers : List (Text × (AccessSnapshot → Packed → Option AccessSnapshot)) :=
  [("owner", fun a v => do return { a with owner := ← asText? v }),
    ("name", fun a v => do return { a with name := ← asText? v }),
    ("type", fun a v => do return { a with type := ← asText? v }),
    ("static", fun a v => do return { a with static := ← asBool? v }),
    ("line", fun a v => do return { a with line := ← asInt? v }),
    ("caught", fun a v => do return { a with caught := ← asTexts? a.caught v })]

/-- The members of a method. -/
def methodMembers : List (Text × (MethodSnapshot → Packed → Option MethodSnapshot)) :=
  [("name", fun m v => do return { m with name := ← asText? v }),
    ("desc", fun m v => do return { m with descriptor := ← asText? v }),
    ("static", fun m v => do return { m with static := ← asBool? v }),
    ("line", fun m v => do return { m with line := ← asInt? v }),
    ("calls", fun m v => do
      return { m with calls := ← listOnto? default (recordOnto? default callMembers) m.calls v }),
    ("fields", fun m v => do
      let accesses ← listOnto? default (recordOnto? default accessMembers) m.accesses v
      return { m with accesses })]

/-- The members of a class. -/
def classMembers : List (Text × (ClassSnapshot → Packed → Option ClassSnapshot)) :=
  [("name", fun c v => do return { c with name := ← asText? v }),
    ("parents", fun c v => do return { c with parents := ← asTexts? c.parents v }),
    ("loads", fun c v => do return { c with loads := ← asTexts? c.loads v }),
    ("fields", fun c v => do
      return { c with fields := ← listOnto? default (recordOnto? default fieldMembers) c.fields v }),
    ("methods", fun c v => do
      let methods ← listOnto? default (recordOnto? default methodMembers) c.methods v
      return { c with methods })]

/-- The members of an entry. -/
def entryMembers : List (Text × (CacheEntry → Packed → Option CacheEntry)) :=
  [("schema", fun e v => do return { e with layout := ← asInt? v }),
    ("classes", fun e v => do
      let classes ← listOnto? default (recordOnto? default classMembers) e.classes v
      return { e with classes })]

/-- The entry without classes and without a layout. -/
def blank : CacheEntry := ⟨0, []⟩

/-- The entry that a packed value stands for. -/
def ofPacked? (v : Packed) : Option CacheEntry := recordOnto? blank entryMembers blank v

/-- The entry at the front of the octets. -/
def decode? (data : Bytes) : Option CacheEntry := do
  let (v, _) ← Packed.read? data
  ofPacked? v

/-- The entry of the classes of an archive. -/
def ofClasses (classes : List DeclaredClass) : CacheEntry :=
  ⟨currentLayout, classes.map ClassSnapshot.ofClass⟩

end CacheEntry

end JvmLinkage
