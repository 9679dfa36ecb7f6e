import BuildQuery.Text.Search

/-!
# BuildQuery — paths

A path is written as names between slashes. It begins at the top when its text begins with a slash,
and in the working directory otherwise. The name `..` leads to the directory above; the name `.`
leads nowhere, so a path keeps only whether its last name is one.

A place is where a path leads: the names on the way from the top, without `..`. The working directory
and what stands above it are places of their own, which begin with `.`.
-/

namespace BuildQuery

open Text

-- ---------------------------------------------------------------------------
-- Paths
-- ---------------------------------------------------------------------------

/-- A path, name by name. -/
structure Path where
  fromTop : Bool
  /-- The names other than `.`, in order. -/
  names : List String
  /-- The last name of the text is `.`. -/
  endsAtDot : Bool
  /-- The bytes of the text. -/
  size : Nat
deriving DecidableEq

namespace Path

/-- The path that a text writes. -/
def ofText (s : String) : Path where
  fromTop := s.toList.head? = some '/'
  names := (segments '/' s).filter (· ≠ ".")
  endsAtDot := (segments '/' s).getLast? = some "."
  size := s.utf8ByteSize

/-- The text of a path below a directory. -/
def below (directory name : String) : String :=
  if directory.isEmpty ∨ directory.toList.getLast? = some '/' then directory ++ name
  else directory ++ "/" ++ name

/-- Two paths that begin alike and have the same names. -/
def agree (p q : Path) : Bool :=
  p.fromTop == q.fromTop && p.names == q.names

/-- The path that ends after so many names. -/
def upTo (p : Path) (count : Nat) : Path :=
  { p with names := p.names.take count, endsAtDot := false }

/-- The path and the paths of the directories that it runs through, the longest first; none when it
has no name. -/
def lineage (p : Path) : List Path :=
  match p.names with
  | [] => []
  | _ :: above => p :: (List.range above.length).reverse.map fun k => p.upTo (k + 1)

end Path

-- ---------------------------------------------------------------------------
-- Places
-- ---------------------------------------------------------------------------

/-- A place, by the names on the way to it. -/
abbrev Place := List String

namespace Place

/-- Where a path begins. -/
def start (p : Path) : Place :=
  if p.fromTop then [] else ["."]

/-- A place that is always there: the top, the working directory, and what stands above it. -/
def isGround (place : Place) : Bool :=
  place.all fun name => name == "." || name == ".."

/-- The place above a place. There is none above the top. -/
def up (place : Place) : Place :=
  if place.isEmpty then []
  else if isGround place then place ++ [".."]
  else place.dropLast

end Place

end BuildQuery
