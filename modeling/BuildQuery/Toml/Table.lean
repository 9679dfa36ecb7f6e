/-!
# BuildQuery — tables of a settings file

A settings file is one table. Further tables come into being in three ways: a header writes a table
out, a header implies the tables before its last name, and a dotted key makes the tables before its
last name. A table may be written out once, also when a header has implied it before, and a dotted
key may add to a table that a dotted key has made.

* `declare` opens the table of a header and `extend` a table of a list of tables.
* `assign` gives a key of an open table a value.

Each of the three fails where a name is already taken in another way.
-/

namespace BuildQuery.Toml

/-- How a table has come into being. -/
inductive TableKind where
  | written
  | implied
  | dotted
deriving DecidableEq

/-- What a key stands for. Fractions and times are kept as they are written. -/
inductive Item where
  | text (value : String)
  | integer (value : Int)
  | bool (value : Bool)
  | fraction (spelling : String)
  | moment (spelling : String)
  | list (items : List Item)
  /-- A table that is written between braces; nothing can be added to it. -/
  | closed (entries : List (String × Item))
  | table (kind : TableKind) (entries : List (String × Item))
  /-- A list of tables that are written out one by one. -/
  | tables (tables : List (List (String × Item)))
deriving Inhabited

/-- The keys of a table and what they stand for. -/
abbrev Table := List (String × Item)

namespace Table

/-- The table in which a key that it has stands for another item. -/
def replace (key : String) (item : Item) : Table → Table
  | [] => []
  | (other, found) :: rest =>
    if other = key then (key, item) :: rest else (other, found) :: replace key item rest

/-- Changes the table at the end of a path. A table that is missing on the path is made as `made`;
one that is there has to be one that may be `entered`. -/
def changeAt (made : TableKind) (entered : TableKind → Bool)
    (change : TableKind → Table → Option Table) : List String → TableKind → Table → Option Table
  | [], kind, t => change kind t
  | key :: path, _, t =>
    match t.lookup key with
    | none => do
      let child ← changeAt made entered change path made []
      return t ++ [(key, .table made child)]
    | some (.table kind child) =>
      if entered kind then do
        let child ← changeAt made entered change path kind child
        return t.replace key (.table kind child)
      else none
    | some (.tables ts) => do
      let last ← changeAt made entered change path .written (← ts.getLast?)
      return t.replace key (.tables (ts.dropLast ++ [last]))
    | some _ => none

/-- Changes the table at the end of the path of a header. -/
def changeAtHeader (change : Table → Option Table) (path : List String) (root : Table) :
    Option Table :=
  changeAt .implied (fun _ => true) (fun _ t => change t) path .written root

/-- Gives a key of a table a value, with the names before the last one of a dotted key. -/
def assignDotted (names : List String) (key : String) (item : Item) (t : Table) : Option Table :=
  let put (kind : TableKind) (t : Table) : Option Table :=
    if (kind = .dotted ↔ names ≠ []) ∧ (t.lookup key).isNone then some (t ++ [(key, item)])
    else none
  changeAt .dotted (· ≠ .written) put names .written t

/-- Gives a key of the table with a header a value. -/
def assign (path names : List String) (key : String) (item : Item) (root : Table) :
    Option Table :=
  changeAtHeader (assignDotted names key item) path root

/-- Opens the table with a header. -/
def declare (path : List String) (key : String) (root : Table) : Option Table :=
  let opened (t : Table) : Option Table :=
    match t.lookup key with
    | none => some (t ++ [(key, .table .written [])])
    | some (.table .implied child) => some (t.replace key (.table .written child))
    | some _ => none
  changeAtHeader opened path root

/-- Opens a new table at the end of a list of tables. -/
def extend (path : List String) (key : String) (root : Table) : Option Table :=
  let extended (t : Table) : Option Table :=
    match t.lookup key with
    | none => some (t ++ [(key, .tables [[]])])
    | some (.tables ts) => some (t.replace key (.tables (ts ++ [[]])))
    | some _ => none
  changeAtHeader extended path root

end Table

end BuildQuery.Toml
