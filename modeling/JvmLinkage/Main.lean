import JvmLinkage.Browser.View
import JvmLinkage.Command.Run

/-!
# The program

The disk, the clock and the channels of the process as the machine that commands run on.
-/

namespace JvmLinkage.Machine

/-- Why the system refused an operation. -/
def reasonOf : IO.Error → FileReason
  | .noFileOrDirectory .. => .missing
  | .inappropriateType _ code _ => if code = 20 then .notDirectory else .isDirectory
  | .alreadyExists .. => .occupied
  | e => .other (Text.ofString (toString e))

/-- Runs an operation of the system at a path. -/
def atPath {α : Type} (operation : FileOperation) (p : Path) (x : IO α) :
    IO (Except FileFailure α) := do
  try return .ok (← x)
  catch e => return .error ⟨operation, p, reasonOf e⟩

/-- The entry of the disk at a path. -/
def entryAt (p : Path) : IO.FS.DirEntry := { root := p.display, fileName := "" }

/-- What stands at a path. -/
def kindAt (p : Path) : IO FileKind := do
  let data ← (entryAt p).root.metadata
  return if data.type == .dir then .directory else .file

/-- The names in a directory in ascending order. -/
def namesAt (p : Path) : IO (List (Text × FileKind)) := do
  let entries ← (entryAt p).root.readDir
  let names := Text.sort (entries.toList.map fun e => Text.ofString e.fileName)
  names.mapM fun name => return (name, ← kindAt (Path.join [p, name]))

/-- The files below a directory, as paths from the place where the walk began. -/
partial def filesBelow (p seen : Path) : IO (List Path) := do
  let found ← (← namesAt p).mapM fun (name, kind) => do
    let place := Path.join [seen, name]
    match kind with
    | .file => return [place]
    | .directory => filesBelow (Path.join [p, name]) place
  return found.flatten

instance : Host IO where
  kind p := atPath .stat p (kindAt p)
  read p := atPath .opening p do
    return (← IO.FS.readBinFile p.display).toList
  list p := atPath .opening p (namesAt p)
  walk p := atPath .opening p (filesBelow p [])
  makeDirectories p := atPath .makingDirectory p (IO.FS.createDirAll p.display)
  write p content := atPath .opening p (IO.FS.writeBinFile p.display ⟨content.toArray⟩)
  workingDirectory := return Text.ofString (toString (← IO.currentDir))
  clock := return ⟨← IO.monoNanosNow⟩

/-- The variables that matter to commands. -/
def variableNames : List String :=
  ["HOME", "PATH", "SHELL", "XDG_CACHE_HOME", "JLINKCHECK_JOBS", "JLINKCHECK_RELEASE",
    "JLINKCHECK_NO_CACHE", "JLINKCHECK_CACHE_DIR", "JLINKCHECK_OUTPUT"]

/-- The environment of the process. -/
def environment : IO Environment :=
  variableNames.filterMapM fun name => do
    return (← IO.getEnv name).map fun value => (Text.ofString name, Text.ofString value)

/-- Writes a text to a channel of the process. -/
def put (channel : IO.FS.Stream) (t : Text) : IO Unit := do
  channel.write ⟨t.toArray⟩
  channel.flush

/-- Shows the browser and takes the names of keys, one on a line, until the user leaves it. -/
partial def browse (b : Browser) : IO Unit := do
  let (lines, b) := b.view?.getD ([], b)
  put (← IO.getStdout) (Text.join "\n" lines ++ "\n")
  let line ← (← IO.getStdin).getLine
  if line.isEmpty then return
  let (b, quit) := b.handle (.key (Key.ofName (Text.ofString line.trimAscii.toString)))
  if !quit then browse b

end JvmLinkage.Machine

open JvmLinkage JvmLinkage.Machine in
/-- Runs the program on the words of its command line. -/
def main (args : List String) : IO UInt32 := do
  let invocation : Invocation :=
    ⟨args.map Text.ofString, ← environment, Text.ofString (toString (← IO.appPath))⟩
  let outcome : Outcome ← Command.run invocation
  put (← IO.getStdout) outcome.transcript.output
  put (← IO.getStderr) outcome.transcript.errors
  if let some input := outcome.transcript.browser then
    browse ((Browser.start input).handle (.resize 100 40)).1
  return outcome.status.toUInt32
