import BuildQuery.Text.Ranges

/-!
# BuildQuery — blanks

`isBlank` is the property White_Space of Unicode. Three things are said with it: what may stand
between the tokens of a filter, which settings count as empty, and what is cut off a setting that
is typed on the command line.
-/

namespace BuildQuery.Text

/-- The code points with the property White_Space. -/
def blankRanges : CharRanges := [
  (0x9, 0xD), (0x20, 0x20), (0x85, 0x85), (0xA0, 0xA0), (0x1680, 0x1680),
  (0x2000, 0x200A), (0x2028, 0x2029), (0x202F, 0x202F), (0x205F, 0x205F), (0x3000, 0x3000)]

/-- A blank is a character with the property White_Space. -/
def isBlank (c : Char) : Bool :=
  blankRanges.has c

/-- The characters without the blanks at their start. -/
def trimStart (cs : List Char) : List Char :=
  cs.dropWhile isBlank

/-- The characters without the run of `drop` at their end. -/
def trimEndWhile (drop : Char → Bool) (cs : List Char) : List Char :=
  (cs.reverse.dropWhile drop).reverse

/-- The text without the blanks at both ends. -/
def trim (s : String) : String :=
  String.ofList (trimEndWhile isBlank (trimStart s.toList))

/-- A text is blank when it holds blanks only; the empty text is blank. -/
def isBlankText (s : String) : Bool :=
  s.toList.all isBlank

end BuildQuery.Text
