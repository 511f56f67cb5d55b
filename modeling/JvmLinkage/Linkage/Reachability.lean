import JvmLinkage.Linkage.World

/-!
# Reachability

The classes that a run could come to load: the seeds, and whatever a reached class refers to by
inheritance, class literals, calls or field accesses, in breadth-first order. Each reached class
keeps the edge over which it was first reached, so that a path back to a seed explains it.
-/

namespace JvmLinkage

/-- How one class refers to another. -/
inductive Reference where
  | parent | load | call | field
  deriving DecidableEq, Repr, Inhabited

/-- How a class came to be reached. -/
inductive Via where
  | seed
  | reference (kind : Reference)
  deriving DecidableEq, Repr, Inhabited

namespace Via

/-- The ways in the order of their codes. -/
def all : List Via :=
  [seed, reference .parent, reference .load, reference .call, reference .field]

/-- The word for a way. -/
def shown : Via → Text
  | seed => "seed"
  | reference .parent => "extends"
  | reference .load => "loads"
  | reference .call => "calls"
  | reference .field => "accesses"

/-- The word for the way with a code. -/
def shownCode (code : Int) : Text :=
  if code < 0 then "unknown" else ((all[code.toNat]?).map shown).getD "unknown"

end Via

/-- The edge over which a class was first reached. -/
inductive Edge where
  | seed
  | reference (source : ClassName) (kind : Reference)
  deriving DecidableEq, Repr, Inhabited

/-- The way of an edge. -/
def Edge.via : Edge → Via
  | seed => .seed
  | reference _ kind => .reference kind

/-- The classes that a class refers to, in the order in which they are followed. -/
def DeclaredClass.references (c : DeclaredClass) : List (ClassName × Reference) :=
  c.parents.map (·, .parent) ++ c.loads.map (·, .load)
    ++ c.methods.flatMap fun m =>
      m.calls.map (fun call => (call.owner, Reference.call))
        ++ m.accesses.map (fun access => (access.owner, Reference.field))

/-- The reached classes with their edges, and the order in which they were reached. -/
structure ReachableSet where
  edges : Std.TreeMap ClassName Edge
  order : List ClassName

namespace ReachableSet

/-- The set without classes. -/
def empty : ReachableSet := ⟨∅, []⟩

/-- Whether a class is reached. -/
def contains (s : ReachableSet) (name : ClassName) : Bool := s.edges.contains name

/-- The number of reached classes. -/
def size (s : ReachableSet) : Nat := s.order.length

/-- Adds a class as the last one reached. -/
def push (s : ReachableSet) (name : ClassName) (edge : Edge) : ReachableSet :=
  ⟨s.edges.insert name edge, s.order ++ [name]⟩

/-- What a reached class adds to the queue: the supplied classes that it refers to and that are not
reached yet. -/
def successors (s : ReachableSet) (world : World) (c : DeclaredClass) :
    List (DeclaredClass × Edge) :=
  c.references.filterMap fun (target, kind) =>
    if s.contains target then none
    else (world.find? target).map fun d => (d, .reference c.name kind)

/-- Follows the queue, reaching at most `n` more classes. -/
def explore (world : World) : (n : Nat) → List (DeclaredClass × Edge) → ReachableSet → ReachableSet
  | 0, _, s => s
  | n + 1, queue, s =>
    match queue.dropWhile fun (c, _) => s.contains c.name with
    | [] => s
    | (c, edge) :: rest =>
      let s := s.push c.name edge
      explore world n (rest ++ s.successors world c) s

/-- The classes reached from the seeds. There can be no more of them than seeds and known classes
together. -/
def ofSeeds (seeds : List DeclaredClass) (world : World) : ReachableSet :=
  explore world (seeds.length + world.size) (seeds.map (·, .seed)) empty

/-- The path back to a seed, the last class first, over at most `n` edges. -/
def pathBack (s : ReachableSet) : (n : Nat) → ClassName → List (ClassName × Via)
  | 0, _ => []
  | n + 1, name =>
    match s.edges[name]? with
    | none => []
    | some .seed => [(name, .seed)]
    | some (.reference source kind) => (name, .reference kind) :: pathBack s n source

/-- The path from a seed to a reached class. -/
def pathTo? (s : ReachableSet) (name : ClassName) : Option (List (ClassName × Via)) :=
  if s.contains name then some (s.pathBack s.size name).reverse else none

end ReachableSet

end JvmLinkage
