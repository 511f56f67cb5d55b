import JvmLinkage.Archive.Content
import JvmLinkage.Cache.Store
import JvmLinkage.Linkage.Artifact
import JvmLinkage.Loading.Layer
import JvmLinkage.Loading.Manifest

/-!
# Loading artifacts

An artifact is loaded from an archive, a directory or a single class file. The classes of newer
class file versions than the release accepts are passed over; the classes of archives are kept in
a cache if there is one.
-/

namespace JvmLinkage

/-! ## Failures -/

/-- What was being done when loading failed. -/
inductive LoadStep where
  | statArtifact
  | readClassFile
  | openArchive
  | openForHashing
  | readManifest
  | readAt (archive : Path)
  | walk (root : Path)
  | readFile (path : Text)
  | file (path : Text)
  | load (path : Path)
  | project
  | classpath
  deriving DecidableEq, Repr

/-- The words that lead from a step to what happened there. -/
def LoadStep.message : LoadStep → Text
  | statArtifact => "failed to stat artifact: "
  | readClassFile => "failed to read classfile: "
  | openArchive => "failed to open archive: "
  | openForHashing => "failed to open archive for hashing: "
  | readManifest => "failed to read manifest: "
  | readAt archive => "readat " ++ archive ++ ": "
  | walk root => "failed to walk " ++ root ++ ": "
  | readFile path => "failed to read " ++ path ++ ": "
  | file path => path ++ ": "
  | load path => "failed to load " ++ path ++ ": "
  | project => "failed to load project: "
  | classpath => "failed to load classpath: "

/-- What is wrong with an artifact. -/
inductive LoadCause where
  | file (cause : FileFailure)
  | archive (cause : ArchiveFailure)
  | manifest (cause : Manifest.Failure)
  | version (cause : Fault)
  | decoding (cause : DecodeFailure)
  deriving DecidableEq, Repr

/-- The message of a cause. -/
def LoadCause.message : LoadCause → Text
  | file cause => cause.message
  | archive cause => cause.message
  | manifest cause => cause.message
  | version cause => cause.message
  | decoding cause => cause.message

/-- A cause with the steps during which it was met, outermost first. -/
structure LoadFailure where
  steps : List LoadStep
  cause : LoadCause
  deriving DecidableEq, Repr

namespace LoadFailure

/-- The failure seen from one step further out. -/
def during (step : LoadStep) (f : LoadFailure) : LoadFailure := { f with steps := step :: f.steps }

/-- The failure with the path of an archive, which is named where it could not be read at an offset. -/
def inArchive (archive : Path) (f : LoadFailure) : LoadFailure :=
  match f.cause with
  | .archive .negativeOffset => { f with steps := f.steps ++ [.readAt archive] }
  | _ => f

/-- The message of a failure. -/
def message (f : LoadFailure) : Text := f.steps.flatMap LoadStep.message ++ f.cause.message

end LoadFailure

/-! ## Class files -/

namespace Loading

/-- Whether a class file is too new for a release; no release accepts every version. -/
def isTooNew (release : Int) (data : Bytes) : Except Fault Bool :=
  if 0 < release then do
    let (major, _) ← ClassFile.peekVersion data
    return decide (majorVersionFor release < major)
  else .ok false

/-- The class of a file, unless it is too new for the release. -/
def classOf (release : Int) (path : Text) (data : Bytes) :
    Except LoadFailure (Option DeclaredClass) :=
  match isTooNew release data with
  | .error fault => .error ⟨[.file path], .version fault⟩
  | .ok true => .ok none
  | .ok false =>
    match DeclaredClass.decode data with
    | .ok c => .ok (some c)
    | .error failure => .error ⟨[.file path], .decoding failure⟩

variable {m : Type → Type} [Monad m] {α : Type}

/-- The classes of the files in order, each read when its turn comes. -/
def classesOf (release : Int) (read : α → ExceptT LoadCause m Bytes) (files : List (SourceFile α)) :
    ExceptT LoadFailure m (List DeclaredClass) := do
  let classes ← files.mapM fun f => do
    let data ← ExceptT.adapt (fun cause => ⟨[.readFile f.path], cause⟩) (read f.source)
    ExceptT.mk (pure (classOf release f.path data))
  return classes.filterMap id

/-- Whether the files hold a manifest that announces layers; of several the last one decides. -/
def multiReleaseOf (read : α → ExceptT LoadCause m Bytes) (files : List (SourceFile α)) :
    ExceptT LoadCause m Bool :=
  files.foldlM (fun found f => do
    if f.path = Manifest.path then
      let content ← read f.source
      ExceptT.mk (pure ((Manifest.isMultiRelease content).mapError LoadCause.manifest))
    else return found) false

/-- The classes of all files of an artifact. A failure to read the manifest is met at `step`. -/
def classesIn (release : Int) (step : LoadStep) (read : α → ExceptT LoadCause m Bytes)
    (files : List (SourceFile α)) : ExceptT LoadFailure m (List DeclaredClass) := do
  let multiRelease ← ExceptT.adapt (fun cause => ⟨[step], cause⟩) (multiReleaseOf read files)
  let others := files.filter fun f => f.path ≠ Manifest.path
  classesOf release read (Layer.select multiRelease release others)

/-! ## Archives -/

/-- The files of an archive, directories left out. A manifest is one whatever it is said to be. -/
def archiveFiles (members : List ArchiveMember) : List (SourceFile ArchiveMember) :=
  (members.filter fun a => a.path = Manifest.path || !a.isDirectory).map fun a => ⟨a.path, a⟩

/-- The content of a member of an archive. -/
def memberContent (archive : Bytes) (a : ArchiveMember) : ExceptT LoadCause Id Bytes :=
  ExceptT.mk ((a.content archive).mapError LoadCause.archive)

/-- The classes of an archive. -/
def archiveClasses (release : Int) (archive : Bytes) : Except LoadFailure (List DeclaredClass) :=
  match Archive.members archive with
  | .error cause => .error ⟨[.openArchive], .archive cause⟩
  | .ok members =>
    Id.run (classesIn release .readManifest (memberContent archive) (archiveFiles members)).run

end Loading

/-! ## Loading -/

/-- How artifacts are loaded: the release they are to run on, zero for none in particular, and the
directory of the cache if there is one. -/
structure Loader where
  release : Int := 0
  cache : Option Path := none
  deriving DecidableEq, Repr, Inhabited

namespace Loader

variable {m : Type → Type} [Monad m] [Host m]

/-- Asks the machine and attributes a failure to a step. -/
def ask {α : Type} (step : LoadStep) (x : m (Except FileFailure α)) : ExceptT LoadFailure m α :=
  ExceptT.adapt (fun cause => ⟨[step], .file cause⟩) (ExceptT.mk x)

/-- The classes of an archive, which the cache may hold; what it does not hold goes there. A cache
that cannot be read or written changes nothing. -/
def cachedClasses (l : Loader) (directory : Path) (data : Bytes) :
    ExceptT LoadFailure m (List DeclaredClass) := do
  let key := Cache.key l.release data
  match ← ExceptT.lift (Cache.get directory key) with
  | .ok (some classes) => return classes
  | _ =>
    let classes ← ExceptT.mk (pure (Loading.archiveClasses l.release data))
    let _ ← ExceptT.lift (Cache.put directory key classes)
    return classes

/-- Loads the archive at a path. -/
def loadArchive (l : Loader) (name : Text) (p : Path) : ExceptT LoadFailure m Artifact := do
  match l.cache with
  | some directory =>
    let data ← ask .openForHashing (Host.read p)
    return .ofClasses name (← ExceptT.adapt (.inArchive p) (l.cachedClasses directory data))
  | none =>
    let data ← ask .openArchive (Host.read p)
    let classes := (Loading.archiveClasses l.release data).mapError (.inArchive p)
    return .ofClasses name (← ExceptT.mk (pure classes))

/-- Loads the directory at a path. -/
def loadDirectory (l : Loader) (name : Text) (p : Path) : ExceptT LoadFailure m Artifact := do
  let paths ← ask (.walk p) (Host.walk p)
  let read (path : Path) : ExceptT LoadCause m Bytes :=
    ExceptT.adapt LoadCause.file (ExceptT.mk (Host.read path))
  let files := paths.map fun path => ⟨path, Path.join [p, path]⟩
  return .ofClasses name (← Loading.classesIn l.release (.walk p) read files)

/-- Loads the class file at a path. -/
def loadClassFile (l : Loader) (name : Text) (p : Path) : ExceptT LoadFailure m Artifact := do
  let data ← ask .readClassFile (Host.read p)
  let c ← ExceptT.mk (pure (Loading.classOf l.release p data))
  return .ofClasses name c.toList

/-- Loads the artifact at a path under a name. -/
def loadNamed (l : Loader) (name : Text) (p : Path) : ExceptT LoadFailure m Artifact := do
  match ← ask .statArtifact (Host.kind p) with
  | .directory => l.loadDirectory name p
  | .file => if p.endsWith ".class" then l.loadClassFile name p else l.loadArchive name p

/-- Loads the artifact at a path under its last name. -/
def load (l : Loader) (p : Path) : ExceptT LoadFailure m Artifact := l.loadNamed (Path.base p) p

/-- Loads the artifacts at the paths in order. -/
def loadAll (l : Loader) (paths : List Path) : ExceptT LoadFailure m (List Artifact) :=
  paths.mapM fun p => ExceptT.adapt (LoadFailure.during (.load p)) (l.load p)

end Loader

end JvmLinkage
