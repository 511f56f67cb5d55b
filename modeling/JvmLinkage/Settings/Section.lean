import JvmLinkage.Settings.Basic
import JvmLinkage.Text.Caseless
import JvmLinkage.Toml.Document

/-!
# Settings in a document

A document gives settings in four tables. Names are recognised in any case; a table or entry whose
name is not recognised is passed over, and a recognised one has to hold a value of its kind.
-/

namespace JvmLinkage

namespace Settings

/-- A change of settings by a value, unless the value is of another kind. -/
abbrev Assignment := Toml.Value → Settings → Option Settings

/-- The entry among named ones that a name stands for: the one spelled so, or else the first one
that differs only in case. -/
def recognise? {α : Type} (entries : List (Text × α)) (name : Text) : Option α :=
  match entries.lookup name with
  | some found => some found
  | none => (entries.find? fun e => Text.isCaseless name e.1).map Prod.snd

/-- Carries out the entries of a table one after the other. -/
def assignAll? (entries : List (Text × Assignment)) (t : Toml.Table) (s : Settings) :
    Option Settings :=
  t.foldlM (fun s (name, v) =>
    match recognise? entries name with
    | some assign => assign v s
    | none => some s) s

/-! ## Kinds of values -/

/-- An assignment of a text. -/
def ofText (set : Text → Settings → Settings) : Assignment
  | .text t, s => some (set t s)
  | _, _ => none

/-- An assignment of a truth value. -/
def ofTruth (set : Bool → Settings → Settings) : Assignment
  | .scalar (.boolean b), s => some (set b s)
  | _, _ => none

/-- An assignment of a whole number. -/
def ofInteger (set : Int → Settings → Settings) : Assignment
  | .scalar (.integer n), s => some (set n s)
  | _, _ => none

/-- An assignment of a list of texts. -/
def ofTexts (set : List Text → Settings → Settings) : Assignment
  | .array items, s => do
    let texts ← items.mapM fun
      | .text t => some t
      | _ => none
    return set texts s
  | _, _ => none

/-- An assignment of a table with entries of its own. -/
def ofTable (entries : List (Text × Assignment)) : Assignment
  | .table t, s => assignAll? entries t s
  | _, _ => none

/-! ## Tables -/

/-- What a document says about the project. -/
def projectEntries : List (Text × Assignment) :=
  [("name", ofText fun t s => { s with name := t }),
    ("classes", ofText fun t s => { s with classes := t })]

/-- What a document says about the other artifacts. -/
def classpathEntries : List (Text × Assignment) :=
  [("runtime", ofTexts fun ts s => { s with runtime := ts }),
    ("provided", ofTexts fun ts s => { s with provided := ts }),
    ("platform", ofTexts fun ts s => { s with platform := ts })]

/-- What a document says about the conflicts that matter. -/
def checkEntries : List (Text × Assignment) :=
  [("ignore-source-packages", ofTexts fun ts s => { s with filter.ignoreSource := ts }),
    ("ignore-destination-packages", ofTexts fun ts s => { s with filter.ignoreDestination := ts }),
    ("target-source-packages", ofTexts fun ts s => { s with filter.targetSource := ts }),
    ("include-subpackages", ofTruth fun b s => { s with filter.includeSubpackages := b }),
    ("fail-on-conflicts", ofTruth fun b s => { s with failOnConflicts := b })]

/-- What a document says about the way a check is run. -/
def runtimeEntries : List (Text × Assignment) :=
  [("jobs", ofInteger fun n s => { s with jobs := some n }),
    ("release", ofInteger fun n s => { s with release := n }),
    ("cache-dir", ofText fun t s => { s with cacheDirectory := t }),
    ("no-cache", ofTruth fun b s => { s with noCache := b }),
    ("output", ofText fun t s => { s with output := t })]

/-- The tables of a document. -/
def sections : List (Text × Assignment) :=
  [("project", ofTable projectEntries), ("classpath", ofTable classpathEntries),
    ("check", ofTable checkEntries), ("runtime", ofTable runtimeEntries)]

/-- The settings changed by a document. -/
def read? (t : Text) (s : Settings) : Option Settings := do
  assignAll? sections (← Toml.parse? t) s

end Settings

end JvmLinkage
