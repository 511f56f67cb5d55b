import JvmLinkage.Cache.Digest
import JvmLinkage.Cache.Entry
import JvmLinkage.Files.Host

/-!
# The cache of decoded archives

Decoded archives are kept in a directory under a key that depends on the content of the archive and
on the release it is read for. An entry that cannot be used is a failure, one that is absent is not.
-/

namespace JvmLinkage

/-- Why a cache entry cannot be used. -/
inductive CacheFailure where
  | unreadable (cause : FileFailure)
  | malformed
  | otherLayout (layout : Int)
  | restoring (className : Text) (fault : Fault)
  deriving DecidableEq, Repr

/-- The message of a failure. -/
def CacheFailure.message : CacheFailure → Text
  | unreadable cause => "failed to read cache entry: " ++ cause.message
  | malformed => "failed to decode cache entry"
  | otherLayout layout =>
    "cache entry has schema " ++ Text.ofInt layout ++ ", want " ++ Text.ofInt CacheEntry.currentLayout
  | restoring className fault => "failed to restore " ++ className ++ ": " ++ fault.message

/-- The classes of an entry in the current layout. -/
def CacheEntry.toClasses (e : CacheEntry) : Except CacheFailure (List DeclaredClass) :=
  if e.layout = currentLayout then
    e.classes.mapM fun c => c.toClass.mapError fun fault => .restoring c.name fault
  else .error (.otherLayout e.layout)

/-- The classes that the octets of an entry hold. -/
def CacheEntry.classesOf (data : Bytes) : Except CacheFailure (List DeclaredClass) :=
  match CacheEntry.decode? data with
  | some e => e.toClasses
  | none => .error .malformed

namespace Cache

/-- The text that keys begin from, so that a change of layout or release changes every key. -/
def keySeed (release : Int) : Text :=
  "jlinkcheck/" ++ Text.ofInt CacheEntry.currentLayout ++ "/" ++ Text.ofInt release ++ "\n"

/-- The key of an entry. Entries whose keys begin with the same two octets are kept together, so it
has two at least. -/
structure Key where
  text : Text
  two_le_length : 2 ≤ text.length := by decide
  deriving DecidableEq, Repr

/-- The key of an archive read for a release. -/
def key (release : Int) (archive : Bytes) : Key where
  text := Digest.hexOf (keySeed release ++ archive)
  two_le_length := by simp [Digest.length_hexOf]

/-- Where the entry with a key is kept. -/
def entryPath (directory : Path) (key : Key) : Path :=
  Path.join [directory, key.text.take 2, key.text ++ ".msgpack"]

variable {m : Type → Type} [Monad m] [Host m]

/-- The classes under a key, if there is an entry. -/
def get (directory : Path) (key : Key) : m (Except CacheFailure (Option (List DeclaredClass))) := do
  match ← Host.read (entryPath directory key) with
  | .ok data => return some <$> CacheEntry.classesOf data
  | .error failure =>
    if failure.reason = .missing then return .ok none else return .error (.unreadable failure)

/-- Keeps classes under a key. -/
def put (directory : Path) (key : Key) (classes : List DeclaredClass) :
    m (Except FileFailure Unit) := do
  let target := entryPath directory key
  match ← Host.makeDirectories (Path.directory target) with
  | .ok () => Host.write target (CacheEntry.ofClasses classes).encode
  | .error failure => return .error failure

end Cache

end JvmLinkage
