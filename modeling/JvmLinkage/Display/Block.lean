import JvmLinkage.Text.Cell

/-!
# Blocks of lines

A text for a terminal becomes a block: lines that take equally many columns. Words that do not fit on
a line go to the next one, and words that fit on none are broken. Blocks can stand side by side.
-/

namespace JvmLinkage

/-! ## Wrapping -/

/-- A text on its way into lines of limited width: what is settled, latest first, the columns it takes
on the last line, the spaces after it, and the word after those, latest first. -/
structure Wrapping where
  settled : List Text := []
  used : Nat := 0
  spaces : Nat := 0
  word : List Text := []
  wordColumns : Nat := 0
  deriving Repr, Inhabited

namespace Wrapping

/-- Settles the spaces. -/
def settleSpaces (w : Wrapping) : Wrapping :=
  { w with settled := Text.spaces w.spaces :: w.settled, used := w.used + w.spaces, spaces := 0 }

/-- Settles the word, if there is one, and the spaces before it. -/
def settleWord (w : Wrapping) : Wrapping :=
  if w.word.isEmpty then w
  else
    let w := w.settleSpaces
    { w with
      settled := w.word ++ w.settled, used := w.used + w.wordColumns, word := [], wordColumns := 0 }

/-- Settles what stands at the end of a line. Spaces after the last word are left out if they do not
fit. -/
def settleLine (limit : Nat) (w : Wrapping) : Wrapping :=
  if w.wordColumns = 0 && limit < w.used + w.spaces then { w with spaces := 0 }.settleWord
  else w.settleSpaces.settleWord

/-- Starts a line; the spaces before it are left out. -/
def breakLine (w : Wrapping) : Wrapping :=
  { w with settled := [Ascii.newline] :: w.settled, used := 0, spaces := 0 }

/-- Adds a cell to the word, which goes to the next line if it does not fit on this one any more. -/
def extendWord (limit : Nat) (w : Wrapping) (c : Text.Cell) : Wrapping :=
  let w := if limit < w.wordColumns + c.columns then w.settleWord else w
  let w := { w with word := c.content :: w.word, wordColumns := w.wordColumns + c.columns }
  if limit < w.used + w.wordColumns + w.spaces then w.breakLine else w

/-- Takes one more cell. A line may be broken at spaces and after hyphens. -/
def step (limit : Nat) (w : Wrapping) (c : Text.Cell) : Wrapping :=
  if c.content = [Ascii.newline] then (w.settleLine limit).breakLine
  else if c.columns = 0 then { w with word := c.content :: w.word }
  else if c.content = [Ascii.space] then
    let w := w.settleWord
    { w with spaces := w.spaces + 1 }
  else if c.content = [Ascii.hyphen] then
    let w := w.settleSpaces
    if w.used + w.wordColumns + 1 ≤ limit then
      let w := w.settleWord
      { w with settled := c.content :: w.settled, used := w.used + 1 }
    else w.extendWord limit c
  else w.extendWord limit c

/-- The text that is settled. -/
def text (w : Wrapping) : Text := w.settled.reverse.flatten

end Wrapping

/-- The text with line ends where lines of a width end. -/
def Text.wrapColumns (limit : Nat) (t : Text) : Text :=
  ((t.cells.foldl (Wrapping.step limit) {}).settleLine limit).text

/-! ## Blocks -/

/-- Lines that stand below each other. -/
abbrev Block := List Text

namespace Block

/-- The columns of the widest line. -/
def columns (b : Block) : Nat := b.foldl (fun n line => max n line.columns) 0

/-- The block with `height` lines at least, each of which takes the columns of the widest. -/
def filled (height : Nat) (b : Block) : Block :=
  (b ++ List.replicate (height - b.length) []).map (Text.padColumns b.columns)

/-- The block of a text at a width; the width zero is that of the widest line. One line alone needs
no width. -/
def ofText (width : Nat) (t : Text) : Block :=
  let t := t.widenTabs.joinLineEnds
  let lines : Block := (if width = 0 then t else t.wrapColumns width).splitOn Ascii.newline
  if width = 0 && lines.length = 1 then lines
  else lines.map (Text.padColumns (max width lines.columns))

/-- Blocks side by side, their first lines on one line. -/
def beside (blocks : List Block) : Block :=
  let height := blocks.foldl (fun n b => max n b.length) 0
  (blocks.map (filled height)).foldr (List.zipWith (· ++ ·)) (List.replicate height [])

end Block

end JvmLinkage
