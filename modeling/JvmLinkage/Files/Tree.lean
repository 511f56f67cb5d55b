import JvmLinkage.Files.Host

/-!
# File trees

A file tree holds the files and directories of a machine in memory. A path is resolved name by name:
every name but the last has to be that of a directory.
-/

namespace JvmLinkage

/-- What a name stands for. -/
inductive FileNode where
  | file (content : Bytes)
  | directory
  deriving DecidableEq, Repr, Inhabited

namespace FileNode

/-- The kind of a node. -/
def kind : FileNode → FileKind
  | file _ => .file
  | directory => .directory

end FileNode

/-- The names that lead from the root to a node. -/
abbrev Location := List Text

/-- Files and directories by the names that lead to them; the root is always there. -/
structure FileTree where
  nodes : List (Location × FileNode) := []
  workingDirectory : Location := []
  deriving Repr, Inhabited

namespace FileTree

/-- The longest name that a directory takes, in octets. -/
def longestName : Nat := 255

/-- What stands at a location. -/
def node? (t : FileTree) (l : Location) : Option FileNode :=
  if l.isEmpty then some .directory else t.nodes.lookup l

/-- Puts a node at a location. -/
def put (t : FileTree) (l : Location) (n : FileNode) : FileTree :=
  { t with nodes := (l, n) :: t.nodes.filter fun entry => entry.1 ≠ l }

/-- Takes the node away from a location. -/
def erase (t : FileTree) (l : Location) : FileTree :=
  { t with nodes := t.nodes.filter fun entry => entry.1 ≠ l }

/-- Follows one name from a location that has to be a directory. -/
def follow (t : FileTree) (l : Location) (name : Text) : Except FileReason Location :=
  match t.node? l with
  | none => .error .missing
  | some (.file _) => .error .notDirectory
  | some .directory =>
    if name.isEmpty || name = Path.here then .ok l
    else if name = Path.above then .ok l.dropLast
    else if longestName < name.length then .error .nameTooLong
    else .ok (l ++ [name])

/-- The location that a path leads to, whether something stands there or not. -/
def locate (t : FileTree) (p : Path) : Except FileReason Location :=
  if p.isEmpty then .error .missing
  else if List.contains p 0 then .error .invalidName
  else (Path.names p).foldlM t.follow (if Path.isAbsolute p then [] else t.workingDirectory)

/-- The node that a path leads to. -/
def find (t : FileTree) (p : Path) : Except FileReason FileNode := do
  match t.node? (← t.locate p) with
  | some n => .ok n
  | none => .error .missing

/-- A failure at a path. -/
def failing {α : Type} (operation : FileOperation) (p : Path) (r : Except FileReason α) :
    Except FileFailure α :=
  r.mapError fun reason => ⟨operation, p, reason⟩

/-- What stands at a path. -/
def kind (t : FileTree) (p : Path) : Except FileFailure FileKind :=
  failing .stat p (FileNode.kind <$> t.find p)

/-- The content of the file at a path. -/
def read (t : FileTree) (p : Path) : Except FileFailure Bytes := do
  match ← failing .opening p (t.find p) with
  | .file content => .ok content
  | .directory => .error ⟨.reading, p, .isDirectory⟩

/-- The order of locations, name by name. -/
def before (a b : Location × FileNode) : Bool := (compare a.1 b.1).isLE

/-- What stands below a location, in ascending order, by the names that lead there from it. -/
def below (t : FileTree) (l : Location) : List (Location × FileNode) :=
  (t.nodes.filterMap fun (place, n) =>
    if l.isPrefixOf place && l.length < place.length then some (place.drop l.length, n)
    else none).mergeSort before

/-- The location of the directory at a path. -/
def directoryAt (t : FileTree) (p : Path) : Except FileFailure Location := do
  let l ← failing .opening p (t.locate p)
  match t.node? l with
  | some .directory => .ok l
  | some (.file _) => .error ⟨.reading, p, .notDirectory⟩
  | none => .error ⟨.opening, p, .missing⟩

/-- The names in the directory at a path. -/
def list (t : FileTree) (p : Path) : Except FileFailure (List (Text × FileKind)) := do
  let l ← t.directoryAt p
  return (t.below l).filterMap fun (place, n) =>
    match place with
    | [name] => some (name, n.kind)
    | _ => none

/-- The files below the directory at a path. -/
def walk (t : FileTree) (p : Path) : Except FileFailure (List Path) := do
  let l ← t.directoryAt p
  return (t.below l).filterMap fun (place, n) =>
    match n with
    | .file _ => some (Text.join Path.root place)
    | .directory => none

/-- Makes the directory at a path, whose parent is there. -/
def makeDirectory (t : FileTree) (p : Path) : Except FileFailure FileTree := do
  let l ← failing .makingDirectory p (t.locate p)
  match t.node? l with
  | none => .ok (t.put l .directory)
  | some .directory => .ok t
  | some (.file _) => .error ⟨.makingDirectory, p, .occupied⟩

/-- The prefixes of a path that end before a slash, shortest first, and then the path itself. -/
def stages (p : Path) : List Path :=
  let parts := Path.names p
  (List.range parts.length).filterMap fun i =>
    if (parts[i]?.getD []).isEmpty then none else some (Text.join Path.root (parts.take (i + 1)))

/-- Makes one directory of several that are to stand one in the other. -/
def makeStage (t : FileTree) (p : Path) : Except FileFailure FileTree :=
  match t.find p with
  | .ok .directory => .ok t
  | .ok (.file _) => .error ⟨.makingDirectory, p, .notDirectory⟩
  | .error _ => t.makeDirectory p

/-- Makes the directory at a path and those above it. -/
def makeDirectories (t : FileTree) (p : Path) : Except FileFailure FileTree :=
  match t.find p with
  | .ok .directory => .ok t
  | _ => if p.isEmpty then t.makeDirectory p else (stages p).foldlM makeStage t

/-- Gives the file at a path a content. -/
def write (t : FileTree) (p : Path) (content : Bytes) : Except FileFailure FileTree := do
  let l ← failing .opening p (t.locate p)
  match t.node? l with
  | some .directory => .error ⟨.opening, p, .isDirectory⟩
  | _ => .ok (t.put l (.file content))

/-- The files of the tree by their absolute paths, in ascending order. -/
def files (t : FileTree) : List (Path × Bytes) :=
  (t.below []).filterMap fun (place, n) =>
    match n with
    | .file content => some (Path.root ++ Text.join Path.root place, content)
    | .directory => none

/-- Enters another directory. -/
def enter (t : FileTree) (p : Path) : FileTree :=
  match t.locate p with
  | .ok l => { t with workingDirectory := l }
  | .error _ => t

/-- Takes the file at a path away. -/
def remove (t : FileTree) (p : Path) : FileTree :=
  match t.locate p with
  | .ok l => t.erase l
  | .error _ => t

end FileTree

/-- Computations on a machine that is a file tree. -/
abbrev InTree := StateM FileTree

namespace InTree

/-- Changes the tree unless the change fails. -/
def change (f : FileTree → Except FileFailure FileTree) : InTree (Except FileFailure Unit) := do
  match f (← get) with
  | .ok t =>
    set t
    return .ok ()
  | .error failure => return .error failure

instance : Host InTree where
  kind p := return (← get).kind p
  read p := return (← get).read p
  list p := return (← get).list p
  walk p := return (← get).walk p
  makeDirectories p := change (·.makeDirectories p)
  write p content := change (·.write p content)
  workingDirectory := do
    let t ← get
    return Path.root ++ Text.join Path.root t.workingDirectory
  clock := return ⟨0⟩

end InTree

end JvmLinkage
