import JvmLinkage.Text.Blank

/-!
# Lines of bounded width

Words are wrapped greedily into lines, and texts that are too wide are cut. Widths count octets.
-/

namespace JvmLinkage.Text

/-- Wraps words greedily, given the words of the line at hand and the sum of their widths. -/
def wrapFrom (width : Nat) (line : List Text) (used : Nat) : List Text → List Text
  | [] => [join " " line]
  | word :: words =>
    if width < used + word.length + line.length && !line.isEmpty then
      join " " line :: wrapFrom width [word] word.length words
    else wrapFrom width (line ++ [word]) (used + word.length) words

/-- The least width at which words are wrapped. -/
def leastWrap : Int := 10

/-- The lines of a text wrapped at a width; below the least width the text is left alone. -/
def wrap (width : Int) (t : Text) : List Text :=
  if width < leastWrap then [t] else wrapFrom width.toNat [] 0 t.words

/-- The text cut to a width, the cut marked by dots. A negative width holds no text. -/
def truncate? (width : Int) (t : Text) : Option Text :=
  if (t.length : Int) ≤ width then some t
  else if width < 0 then none
  else if width < 4 then some (List.replicate width.toNat Ascii.dot)
  else some (t.take (width.toNat - 3) ++ "...")

end JvmLinkage.Text
