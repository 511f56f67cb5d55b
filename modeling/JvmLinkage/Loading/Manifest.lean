import JvmLinkage.Text.Blank
import JvmLinkage.Text.Caseless

/-!
# Manifests

A manifest is a file of lines with a name, a colon and a value. The line of interest says whether
the artifact holds layers of classes for later releases.
-/

namespace JvmLinkage.Manifest

/-- Where an artifact has its manifest. -/
def path : Text := "META-INF/MANIFEST.MF"

/-- A line that is too long to be read. -/
inductive Failure where
  | lineTooLong
  deriving DecidableEq, Repr, Inhabited

/-- The message of a failure. -/
def Failure.message : Failure → Text
  | lineTooLong => "bufio.Scanner: token too long"

/-- The length at which a line is too long, in octets. -/
def lineLimit : Nat := 65536

/-- The line without a carriage return at its end. -/
def withoutReturn (line : Text) : Text :=
  if line.getLast? = some Ascii.carriageReturn then line.dropLast else line

/-- The answer of a line that has the name of interest. -/
def answer? (line : Text) : Option Bool :=
  match Text.cut? Ascii.colon (withoutReturn line) with
  | some (name, value) =>
    if name.trim.isCaseless "Multi-Release" then some (value.trim.isCaseless "true") else none
  | none => none

/-- The first answer among the lines; without one it is no. -/
def firstAnswer : List Text → Except Failure Bool
  | [] => .ok false
  | line :: rest =>
    if lineLimit ≤ line.length then .error .lineTooLong
    else match answer? line with
      | some b => .ok b
      | none => firstAnswer rest

/-- Whether the manifest announces layers for later releases. -/
def isMultiRelease (content : Bytes) : Except Failure Bool :=
  firstAnswer (Text.splitOn Ascii.newline content)

end JvmLinkage.Manifest
