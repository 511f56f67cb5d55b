import JvmLinkage.Text.Cluster.Width
import JvmLinkage.Text.Utf8

/-!
# Cells of a terminal

A terminal shows a text as cells, each of which takes a number of its columns. Characters past ASCII
are shown as clusters, with what stays together with them. Escape sequences, of which a terminal shows
nothing, take no columns.
-/

namespace JvmLinkage.Text

/-! ## Clusters -/

/-- What a cluster still waits for. -/
inductive ClusterEnd where
  /-- Only marks may follow. -/
  | plain
  /-- Nothing follows. -/
  | closed
  | carriageReturn
  | preceding
  | leading
  | vowel
  | trailing
  /-- A letter of a flag without its partner. -/
  | flag
  | pictograph
  /-- A pictograph and the character that joins it to the next. -/
  | joined
  deriving DecidableEq, Repr, Inhabited

namespace ClusterEnd

/-- Whether a character of a class stays together with what stands before it. -/
def joins (e : ClusterEnd) (k : BreakClass) : Bool :=
  match e, k with
  | .carriageReturn, .newline => true
  | .carriageReturn, _ | .closed, _ => false
  | _, .carriageReturn | _, .newline | _, .control => false
  | _, .mark | _, .joiner | _, .spacing => true
  | .preceding, _ => true
  | .leading, .leading | .leading, .vowel | .leading, .openSyllable | .leading, .closedSyllable => true
  | .vowel, .vowel | .vowel, .trailing => true
  | .trailing, .trailing => true
  | .flag, .regional => true
  | .joined, .pictograph => true
  | _, _ => false

/-- What a cluster waits for after a character of a class. -/
def after (e : ClusterEnd) : BreakClass → ClusterEnd
  | .other | .spacing => .plain
  | .carriageReturn => .carriageReturn
  | .newline | .control => .closed
  | .mark => if e = .pictograph then .pictograph else .plain
  | .joiner => if e = .pictograph then .joined else .plain
  | .preceding => .preceding
  | .leading => .leading
  | .vowel | .openSyllable => .vowel
  | .trailing | .closedSyllable => .trailing
  | .regional => if e = .flag then .plain else .flag
  | .pictograph => .pictograph

end ClusterEnd

/-! ## Escape sequences -/

/-- What the octets after an escape character belong to. -/
inductive EscapeMode where
  /-- To no sequence. -/
  | none
  /-- To a sequence of which only the escape character is there. -/
  | start
  | intermediate
  /-- To the parameters of a control sequence. -/
  | control
  /-- To the parameters of a device control. -/
  | device
  /-- To a text for the device. -/
  | deviceText
  /-- To a text for the system that runs the terminal. -/
  | systemText
  /-- To a text that nobody reads. -/
  | ignoredText
  deriving DecidableEq, Repr, Inhabited

namespace EscapeMode

/-- What follows the octet after an escape character. -/
def afterStart (b : UInt8) : EscapeMode :=
  if b < 0x20 || b = 0x7F then .start
  else if b < 0x30 then .intermediate
  else if b = 0x5B then .control
  else if b = 0x5D then .systemText
  else if b = 0x50 then .device
  else if b = 0x58 || b = 0x5E || b = 0x5F then .ignoredText
  else .none

/-- What follows an octet of ASCII. A line end, an escape character and the two characters that
cancel a sequence end every one. -/
def next (m : EscapeMode) (b : UInt8) : EscapeMode :=
  if b = 0x1B then .start
  else if b = Ascii.newline || b = 0x18 || b = 0x1A then .none
  else match m with
    | .none => .none
    | .start => afterStart b
    | .intermediate => if b < 0x30 || b = 0x7F then .intermediate else .none
    | .control => if 0x40 ≤ b && b ≤ 0x7E then .none else .control
    | .device => if 0x40 ≤ b && b ≤ 0x7E then .deviceText else .device
    | .deviceText => .deviceText
    | .systemText => if b = 0x07 then .none else .systemText
    | .ignoredText => .ignoredText

/-- Whether characters past ASCII belong to the sequence. -/
def takesAll (m : EscapeMode) : Bool := m = .deviceText || m = .systemText

end EscapeMode

/-! ## Cells -/

/-- Octets that a terminal shows as one, and the columns that they take. -/
structure Cell where
  content : Text
  columns : Nat
  deriving DecidableEq, Repr, Inhabited

/-- Where in a text a reader of cells is. -/
inductive CellState where
  /-- Between cells, in an escape sequence or in none. -/
  | between (m : EscapeMode)
  /-- In a cluster: the class of its first character, the columns so far and what it waits for. -/
  | within (first : BreakClass) (content : Text) (columns : Nat) (e : ClusterEnd)
  deriving Repr, Inhabited

namespace CellState

/-- The cell of a cluster that ends, if there is one. -/
def finish : CellState → List Cell
  | .between _ => []
  | .within _ content columns _ => [⟨content, columns⟩]

/-- The mode of escape sequences between cells. -/
def mode : CellState → EscapeMode
  | .between m => m
  | .within .. => .none

/-- The cells that are complete after a glyph that starts anew, and the state after it. -/
def start (m : EscapeMode) (g : Glyph) : List Cell × CellState :=
  let c := g.shown
  let n := c.toNat
  if n < 0x80 then
    let isShown := m = .none && 0x20 ≤ n && n < 0x7F
    ([⟨g.bytes, if isShown then 1 else 0⟩], .between (m.next (UInt8.ofNat n)))
  else if m.takesAll then ([⟨g.bytes, 0⟩], .between m)
  else
    let k := BreakClass.ofChar c
    ([], .within k g.bytes (Columns.ofChar c k) (ClusterEnd.plain.after k))

/-- The cells that are complete after one more glyph, and the state after it. -/
def step (s : CellState) (g : Glyph) : List Cell × CellState :=
  match s with
  | .between m => start m g
  | .within first content columns e =>
    let c := g.shown
    let k := BreakClass.ofChar c
    if e.joins k then
      ([], .within first (content ++ g.bytes) (Columns.add first columns c k) (e.after k))
    else
      let (cells, s) := start .none g
      (⟨content, columns⟩ :: cells, s)

/-- The cells of glyphs from a state on. -/
def cells (s : CellState) : List Glyph → List Cell
  | [] => s.finish
  | g :: gs =>
    let (complete, s) := s.step g
    complete ++ cells s gs

end CellState

/-- The cells of a text. -/
def cells (t : Text) : List Cell := (CellState.between .none).cells t.glyphs

/-- The number of columns that a text takes on a line. -/
def columns (t : Text) : Nat := t.cells.foldl (fun n c => n + c.columns) 0

/-- The text followed by spaces up to a number of columns. -/
def padColumns (width : Nat) (t : Text) : Text := t ++ spaces (width - t.columns)

end JvmLinkage.Text
