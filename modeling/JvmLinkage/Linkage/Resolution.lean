import JvmLinkage.Linkage.World

/-!
# Resolving members

A member is looked for in a class and then depth first in its parents. Every class is looked at
once, and parents that nothing supplies declare nothing.
-/

namespace JvmLinkage.World

/-- Looks for the first parent in which the search succeeds, keeping track of classes seen. -/
def searchParents (w : World) (search : DeclaredClass → List ClassName → Bool × List ClassName) :
    List ClassName → List ClassName → Bool × List ClassName
  | [], seen => (false, seen)
  | p :: parents, seen =>
    match w.find? p with
    | none => searchParents w search parents seen
    | some c =>
      match search c seen with
      | (true, seen) => (true, seen)
      | (false, seen) => searchParents w search parents seen

/-- Whether the search succeeds in a class or above it, over at most `n` classes. `answer` tells
whether a class decides the search on its own. -/
def search (w : World) (answer : DeclaredClass → Option Bool) :
    (n : Nat) → DeclaredClass → List ClassName → Bool × List ClassName
  | 0, _, seen => (false, seen)
  | n + 1, c, seen =>
    if c.name ∈ seen then (false, seen)
    else
      let seen := c.name :: seen
      match answer c with
      | some found => (found, seen)
      | none => searchParents w (search w answer n) c.parents seen

/-- Whether a search that starts in a class of the world succeeds. -/
def resolves (w : World) (answer : DeclaredClass → Option Bool) (c : DeclaredClass) : Bool :=
  (w.search answer (w.size + 1) c []).1

/-- What a class says about a method: nothing unless it declares the signature, and then whether
the static flags agree. -/
def methodAnswer (m : Method) (c : DeclaredClass) : Option Bool :=
  (c.findMethod? m).map fun d => d.method.static = m.static

/-- What a class says about a field: nothing unless it declares it. -/
def fieldAnswer (f : Field) (c : DeclaredClass) : Option Bool :=
  if c.hasField f then some true else none

/-- Whether no declaration of the method is found from a class on. -/
def methodMissing (w : World) (c : DeclaredClass) (m : Method) : Bool :=
  !w.resolves (methodAnswer m) c

/-- Whether no declaration of the field is found from a class on. -/
def fieldMissing (w : World) (c : DeclaredClass) (f : Field) : Bool :=
  !w.resolves (fieldAnswer f) c

end JvmLinkage.World
