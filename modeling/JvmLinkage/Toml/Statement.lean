import JvmLinkage.Toml.Scalar

/-!
# Statements of TOML

A TOML text is a list of statements: headers that open a table, and assignments of values to keys.
Reading fails as a whole if one statement is malformed.
-/

namespace JvmLinkage.Toml

/-- The names of a dotted key. -/
abbrev Key := List Text

/-- The written form of a value. -/
inductive Expression where
  | text (t : Text)
  | scalar (s : Scalar)
  | array (items : List Expression)
  | table (entries : List (Key × Expression))
  deriving Repr, Inhabited

/-- Whether the expression is an array. -/
def Expression.isArray : Expression → Bool
  | .array _ => true
  | _ => false

/-- A header or an assignment. -/
inductive Statement where
  | table (key : Key)
  | tableItem (key : Key)
  | assign (key : Key) (value : Expression)
  deriving Repr, Inhabited

/-- A step that takes a part of a text from its front. -/
abbrev Taker (α : Type) := Text → Option (α × Text)

/-! ## Characters -/

/-- Whether the octet is a space or a tab. -/
def isBlank (b : UInt8) : Bool := b = Ascii.space || b = Ascii.tab

/-- Whether the octet ends a line. -/
def isLineEnd (b : UInt8) : Bool := b = Ascii.newline || b = Ascii.carriageReturn

/-- Whether the octet may stand in a key without quotation marks. -/
def isBareKey (b : UInt8) : Bool :=
  Ascii.isLetter b || Ascii.isDigit b || b = Ascii.underscore || b = Ascii.hyphen

/-- Whether the octet may stand in a word that is a scalar. -/
def isWord (b : UInt8) : Bool :=
  isBareKey b || b = Ascii.plus || b = Ascii.dot || b = Ascii.colon

/-- The text after blanks. -/
def skipBlanks (t : Text) : Text := t.dropWhile isBlank

/-- The text after a comment, which goes to the end of the line. -/
def skipComment (t : Text) : Text := t.dropWhile fun b => !isLineEnd b

/-- The text after blanks, line ends and comments; `inComment` tells that a comment goes on. -/
def skipLayout : (inComment : Bool) → Text → Text
  | _, [] => []
  | true, b :: rest => if isLineEnd b then skipLayout false rest else skipLayout true rest
  | false, b :: rest =>
    if b = Ascii.hash then skipLayout true rest
    else if isBlank b || isLineEnd b then skipLayout false rest
    else b :: rest

/-- Whether every carriage return stands before a newline. -/
def returnsFit : Text → Bool
  | [] => true
  | b :: rest => (b ≠ Ascii.carriageReturn || rest.head? = some Ascii.newline) && returnsFit rest

/-- Whether the octets are UTF-8 and hold no control character but tabs and line ends; a carriage
return is part of a line end only before a newline. -/
def isPlain (t : Text) : Bool :=
  let isControl (n : Nat) : Bool := (n < 0x20 && n ≠ 0x09 && n ≠ 0x0A && n ≠ 0x0D) || n = 0x7F
  t.isUtf8 && t.all (fun b => !isControl b.toNat) && returnsFit t

/-- The text without the mark that tells the order of octets. -/
def withoutOrderMark (t : Text) : Text :=
  match t with
  | 0xFF :: 0xFE :: rest | 0xFE :: 0xFF :: rest | 0xEF :: 0xBB :: 0xBF :: rest => rest
  | _ => t

/-! ## Texts -/

/-- The octet of a short escape. -/
def shortEscape? (b : UInt8) : Option UInt8 :=
  match b with
  | 0x62 => some 0x08
  | 0x74 => some 0x09
  | 0x6E => some 0x0A
  | 0x66 => some 0x0C
  | 0x72 => some 0x0D
  | 0x65 => some 0x1B
  | 0x22 => some 0x22
  | 0x5C => some 0x5C
  | _ => none

/-- The character of hexadecimal digits. -/
def codePoint? (digits : Text) : Option Text :=
  if digits.all Scalar.isHexDigit then
    let n := digits.foldl (fun n b => n * 16 + (Numeral.digitValue? b).getD 0) 0
    if n < 0xD800 || (0xE000 ≤ n && n < 0x110000) then some (String.utf8EncodeChar (Char.ofNat n))
    else none
  else none

/-- Whether only blanks stand before the next line end, which is there. -/
def endsLine (t : Text) : Bool := (skipBlanks t).head?.any isLineEnd

/-- The text that escapes stand for. A backslash at the end of a line joins the lines: it is left
out with all blanks and line ends that follow, which `joining` tells. -/
def unescape : (joining : Bool) → Text → Option Text
  | _, [] => some []
  | joining, b :: rest =>
    if joining && (isBlank b || isLineEnd b) then unescape true rest
    else if b ≠ Ascii.backslash then (b :: ·) <$> unescape false rest
    else if endsLine rest then unescape true rest
    else match rest with
      | 0x78 :: h1 :: h2 :: more => do
        return (← codePoint? [h1, h2]) ++ (← unescape false more)
      | 0x75 :: h1 :: h2 :: h3 :: h4 :: more => do
        return (← codePoint? [h1, h2, h3, h4]) ++ (← unescape false more)
      | 0x55 :: h1 :: h2 :: h3 :: h4 :: h5 :: h6 :: h7 :: h8 :: more => do
        return (← codePoint? [h1, h2, h3, h4, h5, h6, h7, h8]) ++ (← unescape false more)
      | e :: more => do
        return (← shortEscape? e) :: (← unescape false more)
      | [] => none

/-- The octets up to the closing mark on the same line; a backslash hides the octet after it. -/
def quotedRaw (mark : UInt8) (escapes : Bool) : Taker Text
  | [] => none
  | b :: rest =>
    if b = mark then some ([], rest)
    else if isLineEnd b then none
    else if escapes && b = Ascii.backslash then
      match rest with
      | c :: more => do
        if isLineEnd c then none
        else
          let (content, rest) ← quotedRaw mark escapes more
          return (b :: c :: content, rest)
      | [] => none
    else do
      let (content, rest) ← quotedRaw mark escapes rest
      return (b :: content, rest)

/-- The marks, `limit` at most, that follow three of them and belong to the content before the last
three, and what follows them all. -/
def closingMarks (mark : UInt8) (limit : Nat) (t : Text) : Option (Text × Text) :=
  let marks := t.takeWhile (· = mark)
  if marks.length ≤ limit then some (marks, t.dropWhile (· = mark)) else none

/-- The octets up to three closing marks; a backslash hides the octet after it. Two more marks may
stand before the closing ones, and three after a hidden backslash, which `afterBackslash` tells. -/
def linesRaw (mark : UInt8) (escapes : Bool) : (afterBackslash : Bool) → Taker Text
  | _, [] => none
  | afterBackslash, b :: rest =>
    if escapes && b = Ascii.backslash then
      match rest with
      | c :: more => do
        let (content, rest) ← linesRaw mark escapes (c = Ascii.backslash) more
        return (b :: c :: content, rest)
      | [] => none
    else if b = mark && rest.take 2 = [mark, mark] then
      closingMarks mark (if afterBackslash then 3 else 2) (rest.drop 2)
    else do
      let (content, rest) ← linesRaw mark escapes false rest
      return (b :: content, rest)

/-- The text without a line end at its front. -/
def withoutFirstLineEnd (t : Text) : Text :=
  match t with
  | 0x0A :: rest | 0x0D :: 0x0A :: rest => rest
  | _ => t

/-- Takes a text on one line, of which the opening mark is taken. -/
def quotedText (mark : UInt8) : Taker Text := fun t => do
  let escapes := mark = Ascii.quote
  let (raw, rest) ← quotedRaw mark escapes t
  return (← if escapes then unescape false raw else some raw, rest)

/-- Takes a text on several lines, of which the opening marks are taken. -/
def linesText (mark : UInt8) : Taker Text := fun t => do
  let escapes := mark = Ascii.quote
  let (raw, rest) ← linesRaw mark escapes false t
  let raw := withoutFirstLineEnd raw
  return (← if escapes then unescape false raw else some raw, rest)

/-- Whether the octet is a quotation mark. -/
def isMark (b : UInt8) : Bool := b = Ascii.quote || b = Ascii.apostrophe

/-- Takes a text of one or several lines. -/
def anyText : Taker Text
  | a :: b :: c :: rest =>
    if b = a && c = a then linesText a rest else quotedText a (b :: c :: rest)
  | a :: rest => quotedText a rest
  | [] => none

/-! ## Keys -/

/-- Takes one name of a key. -/
def keyName : Taker Text
  | [] => none
  | b :: rest =>
    if isMark b then quotedText b rest
    else
      let name := (b :: rest).takeWhile isBareKey
      if name.isEmpty then none else some (name, (b :: rest).dropWhile isBareKey)

/-- Takes a dotted key with blanks around its names; `fuel` bounds their number. -/
def keyWithin : (fuel : Nat) → Taker Key
  | 0, _ => none
  | fuel + 1, t => do
    let (name, rest) ← keyName (skipBlanks t)
    match skipBlanks rest with
    | 0x2E :: more =>
      let (names, rest) ← keyWithin fuel more
      return (name :: names, rest)
    | rest => return ([name], rest)

/-- Takes a dotted key with blanks around its names. -/
def key : Taker Key := fun t => keyWithin (t.length + 1) t

/-! ## Values -/

/-- Takes a scalar. A date goes on after a blank if a time follows. -/
def scalar : Taker Scalar := fun t =>
  let word := t.takeWhile isWord
  let rest := t.dropWhile isWord
  let joined := match rest with
    | 0x20 :: b :: _ =>
      if Scalar.afterDate? word = some [] && Ascii.isDigit b then
        some (word ++ Ascii.space :: (rest.drop 1).takeWhile isWord, (rest.drop 1).dropWhile isWord)
      else none
    | _ => none
  let (word, rest) := joined.getD (word, rest)
  (Scalar.ofWord? word).map fun s => (s, rest)

mutual

/-- Takes a value nested less than `depth` deep. -/
def valueWithin : (depth : Nat) → Taker Expression
  | 0, _ => none
  | depth + 1, t =>
    match skipBlanks t with
    | [] => none
    | b :: rest =>
      if isMark b then (anyText (b :: rest)).map fun (s, rest) => (.text s, rest)
      else if b = Ascii.openBracket then do
        let (items, rest) ← itemsWithin depth (skipLayout false rest)
        return (.array items, rest)
      else if b = Ascii.openBrace then do
        let (entries, rest) ← entriesWithin depth (skipLayout false rest)
        return (.table entries, rest)
      else (scalar (b :: rest)).map fun (s, rest) => (.scalar s, rest)

/-- Takes the items of an array up to its closing bracket. -/
def itemsWithin : (depth : Nat) → Taker (List Expression)
  | 0, _ => none
  | depth + 1, t =>
    match t with
    | 0x5D :: rest => some ([], rest)
    | _ => do
      let (item, rest) ← valueWithin depth t
      match skipLayout false rest with
      | 0x2C :: rest =>
        let (items, rest) ← itemsWithin depth (skipLayout false rest)
        return (item :: items, rest)
      | 0x5D :: rest => return ([item], rest)
      | _ => none

/-- Takes the entries of a table up to its closing brace. -/
def entriesWithin : (depth : Nat) → Taker (List (Key × Expression))
  | 0, _ => none
  | depth + 1, t =>
    match t with
    | 0x7D :: rest => some ([], rest)
    | _ => do
      let (name, rest) ← key t
      let (value, rest) ← valueWithin depth (← Scalar.after? Ascii.equals rest)
      match skipLayout false rest with
      | 0x2C :: rest =>
        let (entries, rest) ← entriesWithin depth (skipLayout false rest)
        return ((name, value) :: entries, rest)
      | 0x7D :: rest => return ([(name, value)], rest)
      | _ => none

end

/-- Takes a value. Every item takes an octet at least, so that the length bounds the depth. -/
def value : Taker Expression := fun t => valueWithin (2 * t.length + 2) t

/-! ## Statements -/

/-- Takes a header, of which the first bracket is taken. -/
def header : Taker Statement
  | 0x5B :: rest => do
    let (name, rest) ← key rest
    let rest ← Scalar.after? Ascii.closeBracket rest
    return (.tableItem name, ← Scalar.after? Ascii.closeBracket rest)
  | rest => do
    let (name, rest) ← key rest
    return (.table name, ← Scalar.after? Ascii.closeBracket rest)

/-- Takes an assignment. -/
def assignment : Taker Statement := fun t => do
  let (name, rest) ← key t
  let (v, rest) ← value (← Scalar.after? Ascii.equals rest)
  return (.assign name v, rest)

/-- What follows the end of a statement: blanks, a comment and a line end, or the end of all. -/
def afterStatement? (t : Text) : Option Text :=
  match skipBlanks t with
  | [] => some []
  | b :: rest => if b = Ascii.hash || isLineEnd b then some (skipLayout false (b :: rest)) else none

/-- The statements of a text without layout at its front; `fuel` bounds their number. -/
def statementsWithin : (fuel : Nat) → Text → Option (List Statement)
  | 0, _ => none
  | fuel + 1, t =>
    match t with
    | [] => some []
    | b :: rest => do
      let (s, rest) ← if b = Ascii.openBracket then header rest else assignment t
      return s :: (← statementsWithin fuel (← afterStatement? rest))

/-- The statements of a text. -/
def statements (t : Text) : Option (List Statement) :=
  let t := withoutOrderMark t
  if isPlain t then statementsWithin (t.length + 1) (skipLayout false t) else none

end JvmLinkage.Toml
