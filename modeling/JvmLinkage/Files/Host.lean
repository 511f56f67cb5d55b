import JvmLinkage.Files.Path
import JvmLinkage.Duration

/-!
# The machine a command runs on

Commands see files, the working directory and the clock through one interface, so that the same
command runs on a disk and on a file tree held in memory.
-/

namespace JvmLinkage

/-- What stands at a path. -/
inductive FileKind where
  | file
  | directory
  deriving DecidableEq, Repr, Inhabited

/-- What an operation on files was about to do. -/
inductive FileOperation where
  | stat | opening | reading | makingDirectory
  deriving DecidableEq, Repr, Inhabited

/-- The word for an operation. -/
def FileOperation.shown : FileOperation → Text
  | stat => "stat"
  | opening => "open"
  | reading => "read"
  | makingDirectory => "mkdir"

/-- Why an operation on files failed. -/
inductive FileReason where
  | missing | notDirectory | isDirectory | occupied | invalidName | nameTooLong
  | other (message : Text)
  deriving DecidableEq, Repr, Inhabited

/-- The words for a reason. -/
def FileReason.shown : FileReason → Text
  | missing => "no such file or directory"
  | notDirectory => "not a directory"
  | isDirectory => "is a directory"
  | occupied => "file exists"
  | invalidName => "invalid argument"
  | nameTooLong => "file name too long"
  | other message => message

/-- An operation on files that failed. -/
structure FileFailure where
  operation : FileOperation
  path : Path
  reason : FileReason
  deriving DecidableEq, Repr, Inhabited

/-- The message of a failure. -/
def FileFailure.message (f : FileFailure) : Text :=
  f.operation.shown ++ " " ++ f.path ++ ": " ++ f.reason.shown

/-- What a command asks of the machine. -/
class Host (m : Type → Type) where
  /-- What stands at a path. -/
  kind : Path → m (Except FileFailure FileKind)
  /-- The content of a file. -/
  read : Path → m (Except FileFailure Bytes)
  /-- The names in a directory in ascending order. -/
  list : Path → m (Except FileFailure (List (Text × FileKind)))
  /-- The files below a directory, as paths from it, name by name in ascending order. -/
  walk : Path → m (Except FileFailure (List Path))
  /-- Makes a directory and those above it. -/
  makeDirectories : Path → m (Except FileFailure Unit)
  /-- Gives a file a content; its directory is there. -/
  write : Path → Bytes → m (Except FileFailure Unit)
  /-- Where relative paths start. -/
  workingDirectory : m Path
  /-- The time since some fixed moment. -/
  clock : m Duration

end JvmLinkage
