import JvmLinkage.Toml.Statement

/-!
# Documents of TOML

The statements of a text fill one table with others in it. A name may be given a value once. A table
that has so far only been named as part of longer keys is open: it may still be named itself. A key
that stands for an array and is open takes a new value in place of the one it has.
-/

namespace JvmLinkage.Toml

/-- A value. A list of tables is built up by headers, an array by an assignment. -/
inductive Value where
  | text (t : Text)
  | scalar (s : Scalar)
  | array (items : List Value)
  | table (entries : List (Text × Value))
  | tables (items : List (List (Text × Value)))
  deriving Repr, Inhabited

/-- Values by name. -/
abbrev Table := List (Text × Value)

namespace Table

/-- The table with a value under a name. -/
def set (t : Table) (name : Text) (v : Value) : Table :=
  if (t.lookup name).isSome then t.map fun e => if e.1 = name then (name, v) else e
  else t ++ [(name, v)]

/-- Changes the table that a key leads to; a list of tables leads to its last one. -/
def within? (f : Table → Option Table) : Key → Table → Option Table
  | [], t => f t
  | name :: names, t =>
    match t.lookup name with
    | some (.table inner) => (within? f names inner).map fun inner => t.set name (.table inner)
    | some (.tables items) =>
      match items.getLast? with
      | some last =>
        (within? f names last).map fun last => t.set name (.tables (items.dropLast ++ [last]))
      | none => none
    | _ => none

/-- The table that a key leads to. -/
def at? : Key → Table → Option Table
  | [], t => some t
  | name :: names, t =>
    match t.lookup name with
    | some (.table inner) => at? names inner
    | some (.tables items) => items.getLast?.bind (at? names)
    | _ => none

/-- Puts a value at the end of a key, making the tables on the way. -/
def insert? (v : Value) : Key → Table → Option Table
  | [], _ => none
  | [name], t => some (t.set name v)
  | name :: names, t =>
    match t.lookup name with
    | some (.table inner) => (insert? v names inner).map fun inner => t.set name (.table inner)
    | none => (insert? v names []).map fun inner => t.set name (.table inner)
    | _ => none

end Table

/-- A document under construction: its table, the keys of the tables that are open, and the keys
that were last noted as those of arrays. -/
structure Draft where
  root : Table := []
  openKeys : List Key := []
  arrayKeys : List Key := []
  deriving Repr, Inhabited

namespace Draft

/-- The draft in which a table is open. -/
def opened (d : Draft) (key : Key) : Draft :=
  { d with openKeys := key :: d.openKeys.filter (· ≠ key) }

/-- The draft in which a table is not open. -/
def closed (d : Draft) (key : Key) : Draft :=
  { d with openKeys := d.openKeys.filter (· ≠ key) }

/-- The key under which the kind of a value is noted: an empty name stands for its table. -/
def kindKey (context : Key) (name : Text) : Key :=
  if name.isEmpty && !context.isEmpty then context else context ++ [name]

/-- The draft in which a key is noted as that of an array, or as that of something else. -/
def noted (d : Draft) (key : Key) (isArray : Bool) : Draft :=
  let others := d.arrayKeys.filter (· ≠ key)
  { d with arrayKeys := if isArray then key :: others else others }

/-- Gives a name in a table a value. What is open keeps its entries, unless its key is that of an
array and the value takes its place, and is not open any more. -/
def define? (d : Draft) (context : Key) (name : Text) (v : Value) : Option Draft := do
  let t ← Table.at? context d.root
  let put (d : Draft) : Option Draft := do
    let root ← Table.within? (fun t => some (t.set name v)) context d.root
    return { d with root }
  let key := context ++ [name]
  match t.lookup name with
  | none => put d
  | some _ =>
    if !d.openKeys.contains key then none
    else if d.arrayKeys.contains key then put (d.closed key)
    else return d.closed key

/-- Gives a name the value of an expression, and notes whether that is an array. -/
def assign? (d : Draft) (context : Key) (name : Text) (e : Expression) (v : Value) : Option Draft :=
  (d.define? context name v).map fun d => d.noted (kindKey context name) e.isArray

/-- Makes the tables on the way to a key, from `context` on. They are open. -/
def reach? (d : Draft) (context : Key) : Key → Option Draft
  | [] => some d
  | name :: names => do
    let here := context ++ [name]
    let t ← Table.at? context d.root
    match t.lookup name with
    | none =>
      let root ← Table.within? (fun t => some (t.set name (.table []))) context d.root
      reach? ({ d with root }.opened here) here names
    | some (.table _) | some (.tables _) => reach? d here names
    | some _ => none

/-- Names a table. -/
def nameTable? (d : Draft) (key : Key) : Option Draft := do
  let name ← key.getLast?
  (← d.reach? [] key.dropLast).define? key.dropLast name (.table [])

/-- Adds a table to the list of tables under a key. -/
def addTable? (d : Draft) (key : Key) : Option Draft := do
  let name ← key.getLast?
  let d ← d.reach? [] key.dropLast
  let root ← Table.within? (fun t =>
    match t.lookup name with
    | none => some (t.set name (.tables [[]]))
    | some (.tables items) => some (t.set name (.tables (items ++ [[]])))
    | some _ => none) key.dropLast d.root
  return { d with root }

/-- Names the tables on the way to a dotted key in a context, as open ones. -/
def enter? (d : Draft) (context : Key) : Key → Option (Draft × Key)
  | [] => some (d, context)
  | name :: names => do
    let here := context ++ [name]
    enter? (← (d.opened here).nameTable? here) here names

mutual

/-- The value of an expression that is assigned to a name in a context. -/
def evaluate? (context : Key) (name : Text) (inArray : Bool) :
    Expression → Draft → Option (Value × Draft)
  | .text t, d => some (.text t, d)
  | .scalar s, d => some (.scalar s, d)
  | .array items, d => do
    let (vs, d) ← evaluateItems? context name items (d.noted (kindKey context name) true)
    return (.array vs, d)
  | .table entries, d => do
    let here := context ++ [name]
    let d := d.opened here
    let d ← if inArray then d.addTable? here else d.nameTable? here
    let (t, d) ← evaluateEntries? here entries [] d
    return (.table t, d)

/-- The values of the items of an array. -/
def evaluateItems? (context : Key) (name : Text) :
    List Expression → Draft → Option (List Value × Draft)
  | [], d => some ([], d)
  | item :: items, d => do
    let (v, d) ← evaluate? context name true item d
    let (vs, d) ← evaluateItems? context name items d
    return (v :: vs, d)

/-- The table of the entries between braces, which is filled here and in the draft. -/
def evaluateEntries? (here : Key) : List (Key × Expression) → Table → Draft → Option (Table × Draft)
  | [], t, d => some (t, d)
  | (key, e) :: entries, t, d => do
    let name ← key.getLast?
    let (d, context) ← d.enter? here key.dropLast
    let (v, d) ← evaluate? context name false e d
    let d ← d.assign? context name e v
    evaluateEntries? here entries (← t.insert? v key) d

end

/-- Carries out a statement in the context of the last header. -/
def step? (context : Key) (d : Draft) : Statement → Option (Draft × Key)
  | .table key => do return ((← d.nameTable? key).noted key false, key)
  | .tableItem key => do return ((← d.addTable? key).noted key false, key)
  | .assign key e => do
    let name ← key.getLast?
    let (d, inner) ← d.enter? context key.dropLast
    let (v, d) ← evaluate? inner name false e d
    return (← d.assign? inner name e v, context)

end Draft

/-- The table of a text. -/
def parse? (t : Text) : Option Table := do
  let (d, _) ← (← statements t).foldlM (fun (d, context) s => Draft.step? context d s)
    (({} : Draft), ([] : Key))
  return d.root

end JvmLinkage.Toml
