import JvmLinkage.Files.Path
import JvmLinkage.Text.Numeral

/-!
# Layers of classes

An artifact has a base layer and, if its manifest says so, layers of classes for later releases.
Of the files of an artifact those are selected that hold classes of an applicable layer. They are
put in order of layer and path, because of two declarations of a class the later one counts.
-/

namespace JvmLinkage

/-- A file of an artifact: its path in the artifact, and what its content is read from. -/
structure SourceFile (α : Type) where
  path : Text
  source : α
  deriving DecidableEq, Repr

namespace Layer

/-- Where an artifact has its layers for later releases. -/
def directory : Text := "META-INF/versions/"

/-- The first release that has a layer of its own. -/
def firstRelease : Int := 9

/-- The release of the layer that a path below the directory of layers belongs to. -/
def ofPath? (path : Text) : Option Int := do
  let below := (path.afterStart? directory).getD path
  let (release, _) ← Text.cut? Ascii.slash below
  let n ← (Text.toInt release).toOption
  if n < firstRelease then none else some n

/-- The files with names of this kind describe modules and packages and hold no class. -/
def descriptionNames : List Text := ["module-info.class", "package-info.class"]

/-- Whether a path is that of a class. -/
def isClassPath (path : Text) : Bool :=
  path.endsWith ".class" && !descriptionNames.contains (Path.base path)

/-- The layer under which a path is loaded, if it is: the base layer is zero. -/
def applicable? (multiRelease : Bool) (release : Int) (path : Text) : Option Int :=
  if !isClassPath path then none
  else if path.startsWith directory then
    match ofPath? path with
    | some n => if multiRelease && 0 < release && n ≤ release then some n else none
    | none => none
  else some 0

/-- The order of layers and paths. -/
def before (a b : Int × Text) : Bool :=
  ((compare a.1 b.1).then (compare a.2 b.2)).isLE

variable {α : Type}

/-- The files that hold classes of applicable layers, each with its layer, in order. -/
def selectWithLayer (multiRelease : Bool) (release : Int) (files : List (SourceFile α)) :
    List (Int × SourceFile α) :=
  (files.filterMap fun f => (applicable? multiRelease release f.path).map fun n => (n, f)).mergeSort
    fun a b => before (a.1, a.2.path) (b.1, b.2.path)

/-- The files that hold classes of applicable layers, in order. -/
def select (multiRelease : Bool) (release : Int) (files : List (SourceFile α)) :
    List (SourceFile α) :=
  (selectWithLayer multiRelease release files).map Prod.snd

end Layer

/-- The class file version of the first release is this much above it. -/
def releaseOffset : Int := 44

/-- The newest class file version that a release accepts, as a number of sixteen bits. -/
def majorVersionFor (release : Int) : UInt16 := UInt16.ofInt (release + releaseOffset)

end JvmLinkage
