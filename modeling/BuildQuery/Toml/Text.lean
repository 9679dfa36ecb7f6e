/-!
# BuildQuery — strings of a settings file

A string has four spellings: between one or three double quotes, where a backslash begins an escape,
and between one or three single quotes, where every character stands for itself. Between three quotes
a string may have several lines, and a line break after the opening quotes does not count. `text?`
reads all four, `literal` writes the first spelling that can hold the text without an escape.
-/

namespace BuildQuery.Toml

-- ---------------------------------------------------------------------------
-- Characters
-- ---------------------------------------------------------------------------

/-- A character that has to be escaped in every spelling, a tab apart. -/
def isControl (c : Char) : Bool :=
  (c.toNat < 0x20 && c != '\t') || c.toNat == 0x7F

/-- A blank inside a line. -/
def isSpace (c : Char) : Bool :=
  c == ' ' || c == '\t'

/-- The characters after a line break, if they begin with one. -/
def afterBreak? : List Char → Option (List Char)
  | '\n' :: cs => some cs
  | '\r' :: '\n' :: cs => some cs
  | _ => none

/-- The value of a hexadecimal digit. -/
def hexValue? (c : Char) : Option Nat :=
  if '0' ≤ c ∧ c ≤ '9' then some (c.toNat - '0'.toNat)
  else if 'a' ≤ c ∧ c ≤ 'f' then some (c.toNat - 'a'.toNat + 10)
  else if 'A' ≤ c ∧ c ≤ 'F' then some (c.toNat - 'A'.toNat + 10)
  else none

/-- The character whose code point has these digits. -/
def codePoint? (ds : List Char) : Option Char := do
  let values ← ds.mapM hexValue?
  let code := values.foldl (fun n d => 16 * n + d) 0
  if code.isValidChar then some (Char.ofNat code) else none

/-- The character that an escape of one letter stands for. -/
def escaped? : Char → Option Char
  | 'b' => some '\x08'
  | 't' => some '\t'
  | 'n' => some '\n'
  | 'f' => some '\x0c'
  | 'r' => some '\r'
  | '"' => some '"'
  | '\\' => some '\\'
  | _ => none

-- ---------------------------------------------------------------------------
-- Reading
-- ---------------------------------------------------------------------------

/-- The characters of a string and what follows it. -/
abbrev Found := Option (List Char × List Char)

/-- A character in front of a string. -/
def Found.cons (c : Char) (found : Found) : Found :=
  found.map fun (cs, rest) => (c :: cs, rest)

/-- The rest of a string between double quotes. -/
def quotedRest : List Char → Found
  | [] => none
  | '"' :: cs => some ([], cs)
  | '\\' :: 'u' :: a :: b :: c :: d :: cs =>
    (codePoint? [a, b, c, d]).elim none fun x => (quotedRest cs).cons x
  | '\\' :: 'U' :: a :: b :: c :: d :: e :: f :: g :: h :: cs =>
    (codePoint? [a, b, c, d, e, f, g, h]).elim none fun x => (quotedRest cs).cons x
  | '\\' :: c :: cs => (escaped? c).elim none fun x => (quotedRest cs).cons x
  | c :: cs => if isControl c then none else (quotedRest cs).cons c

/-- The rest of a string between single quotes. -/
def plainRest : List Char → Found
  | [] => none
  | '\'' :: cs => some ([], cs)
  | c :: cs => if isControl c then none else (plainRest cs).cons c

/-- A backslash before these characters joins the line with the next ones. -/
def joinsLines (cs : List Char) : Bool :=
  (afterBreak? (cs.dropWhile isSpace)).isSome

/-- The rest of a string between three double quotes. After a backslash that joins lines, blanks and
line breaks are left out up to the next character. -/
def longQuotedRest : Bool → List Char → Found
  | _, [] => none
  | _, '"' :: '"' :: '"' :: '"' :: '"' :: cs => some (['"', '"'], cs)
  | _, '"' :: '"' :: '"' :: '"' :: cs => some (['"'], cs)
  | _, '"' :: '"' :: '"' :: cs => some ([], cs)
  | _, '"' :: cs => (longQuotedRest false cs).cons '"'
  | _, '\\' :: 'u' :: a :: b :: c :: d :: cs =>
    (codePoint? [a, b, c, d]).elim none fun x => (longQuotedRest false cs).cons x
  | _, '\\' :: 'U' :: a :: b :: c :: d :: e :: f :: g :: h :: cs =>
    (codePoint? [a, b, c, d, e, f, g, h]).elim none fun x => (longQuotedRest false cs).cons x
  | _, '\\' :: c :: cs =>
    if joinsLines (c :: cs) then longQuotedRest true cs
    else (escaped? c).elim none fun x => (longQuotedRest false cs).cons x
  | skipping, '\r' :: '\n' :: cs =>
    if skipping then longQuotedRest true cs else (longQuotedRest false cs).cons '\n'
  | skipping, '\n' :: cs =>
    if skipping then longQuotedRest true cs else (longQuotedRest false cs).cons '\n'
  | skipping, c :: cs =>
    if isSpace c then
      if skipping then longQuotedRest true cs else (longQuotedRest false cs).cons c
    else if isControl c then none
    else (longQuotedRest false cs).cons c

/-- The rest of a string between three single quotes. -/
def longPlainRest : List Char → Found
  | [] => none
  | '\'' :: '\'' :: '\'' :: '\'' :: '\'' :: cs => some (['\'', '\''], cs)
  | '\'' :: '\'' :: '\'' :: '\'' :: cs => some (['\''], cs)
  | '\'' :: '\'' :: '\'' :: cs => some ([], cs)
  | '\r' :: '\n' :: cs => (longPlainRest cs).cons '\n'
  | '\n' :: cs => (longPlainRest cs).cons '\n'
  | c :: cs => if isControl c then none else (longPlainRest cs).cons c

/-- The characters without a line break at their start. -/
def dropBreak (cs : List Char) : List Char :=
  (afterBreak? cs).getD cs

/-- A string on one line. -/
def lineText? : List Char → Found
  | '"' :: cs => quotedRest cs
  | '\'' :: cs => plainRest cs
  | _ => none

/-- A string. -/
def text? : List Char → Found
  | '"' :: '"' :: '"' :: cs => longQuotedRest false (dropBreak cs)
  | '\'' :: '\'' :: '\'' :: cs => longPlainRest (dropBreak cs)
  | cs => lineText? cs

-- ---------------------------------------------------------------------------
-- Writing
-- ---------------------------------------------------------------------------

/-- The spellings of a string. -/
inductive Spelling where
  | quoted
  | plain
  | longQuoted
  | longPlain
deriving DecidableEq

/-- A mark stands three times in a row. -/
def hasThree (mark : Char) : List Char → Bool
  | [] => false
  | c :: cs => [mark, mark, mark].isPrefixOf (c :: cs) || hasThree mark cs

/-- The text holds a control that is neither a tab nor a line break. -/
def hasOther (cs : List Char) : Bool :=
  cs.any fun c => isControl c && c != '\n'

/-- The first spelling that can hold a text without an escape; if there is none, double quotes with
escapes. -/
def spellingOf (cs : List Char) : Spelling :=
  let breaks := cs.contains '\n'
  if !breaks && !hasOther cs && !cs.contains '"' && !cs.contains '\\' then .quoted
  else if !breaks && !hasOther cs && !cs.contains '\'' then .plain
  else if !hasOther cs && !cs.contains '\\' && !hasThree '"' cs then .longQuoted
  else if !hasOther cs && !hasThree '\'' cs then .longPlain
  else if breaks then .longQuoted
  else .quoted

/-- An upper case hexadecimal digit. -/
def hexDigit (n : Nat) : Char :=
  if n < 10 then Char.ofNat ('0'.toNat + n) else Char.ofNat ('A'.toNat + (n - 10))

/-- The escape of a character that cannot stand for itself. -/
def escapeOf? (c : Char) : Option (List Char) :=
  match c with
  | '\x08' => some ['\\', 'b']
  | '\t' => some ['\\', 't']
  | '\x0c' => some ['\\', 'f']
  | '\r' => some ['\\', 'r']
  | '\\' => some ['\\', '\\']
  | c =>
    if isControl c then
      some ['\\', 'u', '0', '0', hexDigit (c.toNat / 16), hexDigit (c.toNat % 16)]
    else none

/-- The text between double quotes. -/
def quotedChars : List Char → List Char
  | [] => []
  | '"' :: cs => '\\' :: '"' :: quotedChars cs
  | '\n' :: cs => '\\' :: 'n' :: quotedChars cs
  | c :: cs => (escapeOf? c).getD [c] ++ quotedChars cs

/-- The text between three double quotes, where line breaks stand for themselves and of three double
quotes in a row the third is escaped; `quotes` counts those that stand before. -/
def longQuotedChars : Nat → List Char → List Char
  | _, [] => []
  | quotes, '"' :: cs =>
    if quotes = 2 then '\\' :: '"' :: longQuotedChars 0 cs else '"' :: longQuotedChars (quotes + 1) cs
  | _, '\n' :: cs => '\n' :: longQuotedChars 0 cs
  | _, c :: cs => (escapeOf? c).getD [c] ++ longQuotedChars 0 cs

/-- The line break after the opening quotes of a text with several lines. -/
def openingBreak (cs : List Char) : List Char :=
  if cs.contains '\n' then ['\n'] else []

/-- The characters of a string. -/
def literalChars (cs : List Char) : List Char :=
  match spellingOf cs with
  | .quoted => '"' :: quotedChars cs ++ ['"']
  | .plain => '\'' :: cs ++ ['\'']
  | .longQuoted => ['"', '"', '"'] ++ openingBreak cs ++ longQuotedChars 0 cs ++ ['"', '"', '"']
  | .longPlain => ['\'', '\'', '\''] ++ openingBreak cs ++ cs ++ ['\'', '\'', '\'']

/-- A string. -/
def literal (s : String) : String :=
  String.ofList (literalChars s.toList)

end BuildQuery.Toml
