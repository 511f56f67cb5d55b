import JvmLinkage.Text.Basic

/-!
# Paths

A path is a text in which slashes separate names. The operations here look at the text alone: they
never ask whether something exists.
-/

namespace JvmLinkage

/-- A text that names a file or a directory. -/
abbrev Path := Text

namespace Path

/-- The name that stands for the directory itself. -/
def here : Text := "."

/-- The name that stands for the directory above. -/
def above : Text := ".."

/-- The path of the directory that holds all others. -/
def root : Path := "/"

/-- Whether a path starts at the root. -/
def isAbsolute (p : Path) : Bool := p.head? = some Ascii.slash

/-- The names between the slashes of a path, empty ones included. -/
def names (p : Path) : List Text := Text.splitOn Ascii.slash p

/-- Takes one more name into a path whose names are listed last first. -/
def step (rooted : Bool) (taken : List Text) (name : Text) : List Text :=
  if name.isEmpty || name = here then taken
  else if name = above then
    match taken with
    | [] => if rooted then [] else [above]
    | last :: rest => if last = above then above :: taken else rest
  else name :: taken

/-- The shortest path with the same meaning. -/
def clean (p : Path) : Path :=
  let rooted := isAbsolute p
  let kept := ((names p).foldl (step rooted) []).reverse
  if rooted then Ascii.slash :: Text.join root kept
  else if kept.isEmpty then here
  else Text.join root kept

/-- The parts as one path; without parts there is none. -/
def join (parts : List Text) : Path :=
  match parts.dropWhile List.isEmpty with
  | [] => []
  | parts => clean (Text.join root parts)

/-- The path up to and including its last slash, and the name after it. -/
def split (p : Path) : Path × Text :=
  match Text.cutLast? Ascii.slash p with
  | some (dir, name) => (dir ++ [Ascii.slash], name)
  | none => ([], p)

/-- The path without the slashes at its end. -/
def trimSlashes (p : Path) : Path := (p.reverse.dropWhile (· = Ascii.slash)).reverse

/-- The last name of a path. -/
def base (p : Path) : Text :=
  if p.isEmpty then here
  else
    let trimmed := trimSlashes p
    if trimmed.isEmpty then root else (split trimmed).2

/-- The path of the directory that holds the last name. -/
def directory (p : Path) : Path := clean (split p).1

/-- The part of the last name from its last dot on. -/
def extension (p : Path) : Text :=
  match Text.cutLast? Ascii.dot (split p).2 with
  | some (_, tail) => Ascii.dot :: tail
  | none => []

/-- The path seen from the root, when `directory` is where relative paths start. -/
def absolute (directory p : Path) : Path :=
  if isAbsolute p then clean p else join [directory, p]

/-- The paths between the colons of a list of paths. -/
def splitList (t : Text) : List Path := if t.isEmpty then [] else Text.splitOn Ascii.colon t

end Path

end JvmLinkage
