/-!
# BuildQuery — columns

A cell of a column is filled up with spaces to the width of the column. Widths count characters.
-/

namespace BuildQuery.Text

/-- So many spaces. -/
def spaces (n : Nat) : String :=
  String.ofList (List.replicate n ' ')

/-- The text with spaces after it, up to a width. -/
def padEnd (width : Nat) (s : String) : String :=
  s ++ spaces (width - s.length)

/-- The text with spaces before it, up to a width. -/
def padStart (width : Nat) (s : String) : String :=
  spaces (width - s.length) ++ s

end BuildQuery.Text
