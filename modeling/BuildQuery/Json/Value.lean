import BuildQuery.Json.Shape

/-!
# BuildQuery — values of a document

A value is what a document means when nothing in particular is asked of it. `Value.text` is its
compact text on one line. `Value.canonical` orders the members of objects by name and keeps the last
of several members of one name, so that equal values have one text.
-/

namespace BuildQuery.Json

/-- A value of a document. -/
inductive Value where
  | null
  | bool (value : Bool)
  | number (value : Number)
  | text (value : String)
  | list (items : List Value)
  | object (members : List (String × Value))
deriving Inhabited

-- ---------------------------------------------------------------------------
-- From documents
-- ---------------------------------------------------------------------------

/-- The name of a member. -/
def memberName (spelling : Spelling) : Except Fault String :=
  spelling.text?.elim (.error .malformed) .ok

/-- Any value. -/
def Shape.any : Shape Value
  | _, .null => .ok .null
  | _, .bool value => .ok (.bool value)
  | _, .number numeral => numeral.number?.elim (.error .malformed) fun n => .ok (.number n)
  | _, .text spelling => spelling.text?.elim (.error .malformed) fun s => .ok (.text s)
  | 0, .list _ _ => .error .malformed
  | 0, .object _ _ => .error .malformed
  | levels + 1, .list items stop => do
    let values ← items.mapM (Shape.any levels)
    atEnd stop
    return .list values
  | levels + 1, .object docs stop => do
    let values ← docs.mapM fun (spelling, doc) => do
      let name ← memberName spelling
      return (name, ← Shape.any levels doc)
    atEnd stop
    return .object values
  | _, .broken fault => .error fault.read

-- ---------------------------------------------------------------------------
-- The canonical form
-- ---------------------------------------------------------------------------

/-- Puts a member into members that are ordered by name, in place of one of the same name. -/
def putMember (name : String) (value : Value) : List (String × Value) → List (String × Value)
  | [] => [(name, value)]
  | (other, found) :: rest =>
    if name = other then (name, value) :: rest
    else if name < other then (name, value) :: (other, found) :: rest
    else (other, found) :: putMember name value rest

/-- The members ordered by name, of several of one name the last one. -/
def orderMembers (members : List (String × Value)) : List (String × Value) :=
  members.foldl (fun ordered (name, value) => putMember name value ordered) []

mutual

/-- The same value with the members of all its objects ordered by name, each name once. -/
def Value.canonical : Value → Value
  | .list items => .list (canonicalItems items)
  | .object members => .object (orderMembers (canonicalMembers members))
  | .null => .null
  | .bool value => .bool value
  | .number value => .number value
  | .text value => .text value

/-- Each item in its canonical form. -/
def canonicalItems : List Value → List Value
  | [] => []
  | item :: items => item.canonical :: canonicalItems items

/-- Each value in its canonical form. -/
def canonicalMembers : List (String × Value) → List (String × Value)
  | [] => []
  | (name, value) :: members => (name, value.canonical) :: canonicalMembers members

end

-- ---------------------------------------------------------------------------
-- The text
-- ---------------------------------------------------------------------------

/-- A lower case hexadecimal digit. -/
def hexChar (n : Nat) : Char :=
  if n < 10 then Char.ofNat ('0'.toNat + n) else Char.ofNat ('a'.toNat + (n - 10))

/-- One character inside a string. -/
def escapedChar (c : Char) : List Char :=
  match c with
  | '"' => ['\\', '"']
  | '\\' => ['\\', '\\']
  | '\x08' => ['\\', 'b']
  | '\x0c' => ['\\', 'f']
  | '\n' => ['\\', 'n']
  | '\r' => ['\\', 'r']
  | '\t' => ['\\', 't']
  | c =>
    if c.toNat < 0x20 then ['\\', 'u', '0', '0', hexChar (c.toNat / 16), hexChar (c.toNat % 16)]
    else [c]

/-- The characters of a string. -/
def stringChars (s : String) : List Char :=
  '"' :: s.toList.flatMap escapedChar ++ ['"']

mutual

/-- The characters of a value, without blanks. -/
def Value.chars : Value → List Char
  | .null => ['n', 'u', 'l', 'l']
  | .bool true => ['t', 'r', 'u', 'e']
  | .bool false => ['f', 'a', 'l', 's', 'e']
  | .number value => value.chars
  | .text value => stringChars value
  | .list [] => ['[', ']']
  | .list (item :: items) => '[' :: item.chars ++ moreItems items
  | .object [] => ['\x7b', '\x7d']
  | .object ((name, value) :: members) =>
    '\x7b' :: stringChars name ++ ':' :: value.chars ++ moreMembers members

/-- The items after the first one, and the end of the list. -/
def moreItems : List Value → List Char
  | [] => [']']
  | item :: items => ',' :: item.chars ++ moreItems items

/-- The members after the first one, and the end of the object. -/
def moreMembers : List (String × Value) → List Char
  | [] => ['\x7d']
  | (name, value) :: members =>
    ',' :: stringChars name ++ ':' :: value.chars ++ moreMembers members

end

/-- The text of a value. -/
def Value.render (value : Value) : String :=
  String.ofList value.chars

end BuildQuery.Json
