import BuildQuery.Toml.Scalar
import BuildQuery.Toml.Text

/-!
# BuildQuery — reading a settings file

    file    := line*
    line    := (nothing | key `=` value | `[` key `]` | `[[` key `]]`) comment?
    key     := name (`.` name)*
    value   := string | bare value | `[` values `]` | `{` keys with values `}`

Keys and values between braces stand on one line; a list may have line breaks, comments and a comma
at its end. `read` gives the table of a file. Keys have fewer than 80 names and brackets nest less
than 80 deep.
-/

namespace BuildQuery.Toml

-- ---------------------------------------------------------------------------
-- Between the words
-- ---------------------------------------------------------------------------

/-- The characters without the blanks at their start. -/
def dropSpaces (cs : List Char) : List Char :=
  cs.dropWhile isSpace

/-- The characters after a comment, if they begin with one. -/
def dropComment : List Char → List Char
  | '#' :: cs => cs.dropWhile fun c => c != '\n' && !isControl c
  | cs => cs

/-- The characters after the end of a line, before which a comment may stand. -/
def afterLine? (cs : List Char) : Option (List Char) :=
  match dropComment (dropSpaces cs) with
  | [] => some []
  | cs => afterBreak? cs

/-- The characters without the blanks, line breaks and comments at their start. A comment ends with
its line. -/
def dropGaps : Nat → List Char → Option (List Char)
  | 0, cs => some cs
  | fuel + 1, cs =>
    match dropSpaces cs with
    | '#' :: cs => (afterBreak? (dropComment ('#' :: cs))).bind (dropGaps fuel)
    | cs =>
      match afterBreak? cs with
      | some cs => dropGaps fuel cs
      | none => some cs

/-- The characters after a mark, if they begin with it. -/
def afterMark? (mark : Char) : List Char → Option (List Char)
  | [] => none
  | c :: cs => if c = mark then some cs else none

-- ---------------------------------------------------------------------------
-- Keys
-- ---------------------------------------------------------------------------

/-- The levels of brackets and the names of a key. -/
def depthLimit : Nat := 79

/-- The characters of names without quotes. -/
def isNameChar (c : Char) : Bool :=
  c.isAlphanum || c == '_' || c == '-'

/-- A name of a key. -/
def name? (cs : List Char) : Found :=
  match cs with
  | '"' :: _ => lineText? cs
  | '\'' :: _ => lineText? cs
  | cs =>
    if (cs.takeWhile isNameChar).isEmpty then none
    else some (cs.takeWhile isNameChar, cs.dropWhile isNameChar)

/-- The names of a key, at most so many, and the characters after the blanks that follow them. -/
def names? : Nat → List Char → Option (List String × List Char)
  | 0, _ => none
  | limit + 1, cs => do
    let (name, cs) ← name? (dropSpaces cs)
    match dropSpaces cs with
    | '.' :: cs =>
      let (names, cs) ← names? limit cs
      return (String.ofList name :: names, cs)
    | cs => return ([String.ofList name], cs)

/-- The names of a key before the last one, the last one, and what follows. -/
def key? (cs : List Char) : Option ((List String × String) × List Char) := do
  let (names, cs) ← names? depthLimit cs
  return ((names.dropLast, ← names.getLast?), cs)

-- ---------------------------------------------------------------------------
-- Values
-- ---------------------------------------------------------------------------

mutual

/-- A value and the characters after it. Brackets may nest so many levels. -/
def value? : Nat → Nat → List Char → Option (Item × List Char)
  | 0, _, _ => none
  | fuel + 1, levels, cs =>
    match cs, levels with
    | '"' :: _, _ => (text? cs).map fun (s, cs) => (.text (String.ofList s), cs)
    | '\'' :: _, _ => (text? cs).map fun (s, cs) => (.text (String.ofList s), cs)
    | '[' :: cs, levels + 1 => (items? fuel levels cs).map fun (items, cs) => (.list items, cs)
    | '\x7b' :: cs, levels + 1 =>
      match dropSpaces cs with
      | '\x7d' :: cs => some (.closed [], cs)
      | cs => (entries? fuel levels [] cs).map fun (entries, cs) => (.closed entries, cs)
    | cs, _ =>
      let (run, cs) := bareRun cs
      (bare? run).map fun item => (item, cs)

/-- The items of a list up to its closing bracket. -/
def items? : Nat → Nat → List Char → Option (List Item × List Char)
  | 0, _, _ => none
  | fuel + 1, levels, cs => do
    match ← dropGaps fuel cs with
    | ']' :: cs => return ([], cs)
    | cs =>
      let (item, cs) ← value? fuel levels cs
      match ← dropGaps fuel cs with
      | ',' :: cs =>
        let (items, cs) ← items? fuel levels cs
        return (item :: items, cs)
      | cs => return ([item], ← afterMark? ']' cs)

/-- The keys of a table between braces up to the closing brace, after those in `t`. -/
def entries? : Nat → Nat → Table → List Char → Option (Table × List Char)
  | 0, _, _, _ => none
  | fuel + 1, levels, t, cs => do
    let ((names, key), cs) ← key? cs
    let (item, cs) ← value? fuel levels (dropSpaces (← afterMark? '=' cs))
    let t ← Table.assignDotted names key item t
    match dropSpaces cs with
    | ',' :: cs => entries? fuel levels t cs
    | cs => return (t, ← afterMark? '\x7d' cs)

end

-- ---------------------------------------------------------------------------
-- The file
-- ---------------------------------------------------------------------------

/-- What has been read of a file: its table, and the path of the table that is open. -/
structure Progress where
  root : Table
  path : List String

/-- Reads a line with a key and its value. -/
def keyLine? (fuel : Nat) (p : Progress) (cs : List Char) : Option (Progress × List Char) := do
  let ((names, key), cs) ← key? cs
  let (item, cs) ← value? fuel depthLimit (dropSpaces (← afterMark? '=' cs))
  let root ← p.root.assign p.path names key item
  return ({ p with root }, ← afterLine? cs)

/-- Reads a line with the header of a table. -/
def headerLine? (p : Progress) (cs : List Char) : Option (Progress × List Char) := do
  let ((names, key), cs) ← key? cs
  let root ← p.root.declare names key
  return (⟨root, names ++ [key]⟩, ← afterLine? (← afterMark? ']' cs))

/-- Reads a line with the header of a table in a list of tables. -/
def listHeaderLine? (p : Progress) (cs : List Char) : Option (Progress × List Char) := do
  let ((names, key), cs) ← key? cs
  let root ← p.root.extend names key
  return (⟨root, names ++ [key]⟩, ← afterLine? (← afterMark? ']' (← afterMark? ']' cs)))

/-- Reads a line. -/
def line? (fuel : Nat) (p : Progress) (cs : List Char) : Option (Progress × List Char) :=
  match cs with
  | '[' :: '[' :: cs => listHeaderLine? p cs
  | '[' :: cs => headerLine? p cs
  | cs =>
    match afterLine? cs with
    | some rest => some (p, rest)
    | none => keyLine? fuel p cs

/-- Reads lines to the end of the characters. -/
def lines? : Nat → Progress → List Char → Option Table
  | 0, _, _ => none
  | fuel + 1, p, cs =>
    match dropSpaces cs with
    | [] => some p.root
    | cs => do
      let (p, cs) ← line? fuel p cs
      lines? fuel p cs

/-- The characters without a mark of the byte order at their start. -/
def dropByteOrder : List Char → List Char
  | '\ufeff' :: cs => cs
  | cs => cs

/-- The table of a file. -/
def read (s : String) : Option Table :=
  let cs := dropByteOrder s.toList
  lines? (2 * cs.length + 2) ⟨[], []⟩ cs

end BuildQuery.Toml
