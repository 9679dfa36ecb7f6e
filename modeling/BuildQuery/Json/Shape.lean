import BuildQuery.Json.Doc

/-!
# BuildQuery — shapes of values

A shape takes a document apart from left to right and gives a value or the first fault. Objects and
lists may be entered down to a limit of levels; what is not asked for is skipped without one.

* `record` gives the fields of an object in the order in which they are written, or the fields of a
  list, which stand in their fixed order. Unknown members are skipped and a known name may not
  repeat.
* `decode` gives the value of the bytes.
-/

namespace BuildQuery.Json

/-- Takes a document apart, with the number of levels that may still be entered. -/
abbrev Shape (α : Type) := Nat → Doc → Except Fault α

/-- The levels that a document may have where its values are asked for. -/
def levelLimit : Nat := 127

-- ---------------------------------------------------------------------------
-- Faults of a value
-- ---------------------------------------------------------------------------

/-- The fault of a document of which another kind of value is wanted. A string or a number is read
before it is refused. -/
def Doc.refusal : Doc → Fault
  | .broken fault => fault.read
  | .text spelling => if spelling.text?.isSome then .mismatch else .malformed
  | .number numeral => if numeral.number?.isSome then .mismatch else .malformed
  | _ => .mismatch

/-- The fault of a document that is skipped. -/
def Doc.skipFault? : Doc → Option Fault
  | .broken fault => some fault.skipped
  | .list _ stop => stop.map Break.skipped
  | .object _ stop => stop.map Break.skipped
  | _ => none

/-- Skips a document. -/
def Doc.skip (doc : Doc) : Except Fault Unit :=
  match doc.skipFault? with
  | some fault => .error fault
  | none => .ok ()

/-- The end of a container that may break off. -/
def atEnd (stop : Option Break) : Except Fault Unit :=
  match stop with
  | some fault => .error fault.read
  | none => .ok ()

-- ---------------------------------------------------------------------------
-- Plain values
-- ---------------------------------------------------------------------------

namespace Shape

variable {α φ : Type}

/-- A string. -/
def text : Shape String
  | _, .text spelling => spelling.text?.elim (.error .malformed) .ok
  | _, doc => .error doc.refusal

/-- An integer literal from `low` to `high`. -/
def integer (low high : Int) : Shape Int
  | _, .number numeral =>
    match numeral.int? with
    | some value =>
      if low ≤ value ∧ value ≤ high then .ok value else .error .mismatch
    | none => .error (Doc.number numeral).refusal
  | _, doc => .error doc.refusal

/-- A signed integer of 64 bits. -/
def int64 : Shape Int64 := fun levels doc => do
  let value ← integer Int64.minValue.toInt Int64.maxValue.toInt levels doc
  return Int64.ofInt value

/-- An unsigned integer of 64 bits. -/
def uint64 : Shape UInt64 := fun levels doc => do
  let value ← integer 0 (UInt64.size - 1) levels doc
  return UInt64.ofNat value.toNat

/-- A value that may be null. -/
def optional (shape : Shape α) : Shape (Option α)
  | _, .null => .ok none
  | levels, doc => do return some (← shape levels doc)

/-- What is made of a value of a shape. -/
def map {β : Type} (f : α → β) (shape : Shape α) : Shape β :=
  fun levels doc => (shape levels doc).map f

/-- What is made of a value of a shape, if it can be made. -/
def andThen {β : Type} (shape : Shape α) (f : α → Except Fault β) : Shape β :=
  fun levels doc => shape levels doc >>= f

/-- A list of values of one shape. -/
def listOf (item : Shape α) : Shape (List α)
  | 0, .list _ _ => .error .malformed
  | levels + 1, .list items stop => do
    let values ← items.mapM (item levels)
    atEnd stop
    return values
  | _, doc => .error doc.refusal

-- ---------------------------------------------------------------------------
-- Records
-- ---------------------------------------------------------------------------

/-- The fields of a record: a name and the shape of the value for each, in their fixed order. -/
abbrev Fields (φ : Type) := List (String × Shape φ)

/-- The fields of an object, in the order in which they are written. `seen` holds the names of the
fields before. -/
def members (fields : Fields φ) (levels : Nat) (seen : List String) :
    List (Spelling × Doc) → Except Fault (List φ)
  | [] => .ok []
  | (spelling, doc) :: rest =>
    match spelling.text? with
    | none => .error .malformed
    | some name =>
      match fields.lookup name with
      | none => do
        doc.skip
        members fields levels seen rest
      | some shape =>
        if name ∈ seen then .error .mismatch
        else do
          let value ← shape levels doc
          return value :: (← members fields levels (name :: seen) rest)

/-- The fields of a list. Fields at the end may be missing. -/
def items (levels : Nat) (stop : Option Break) : Fields φ → List Doc → Except Fault (List φ)
  | [], [] => do
    atEnd stop
    return []
  | [], _ :: _ => .error .malformed
  | _ :: _, [] => do
    atEnd stop
    return []
  | (_, shape) :: fields, doc :: docs => do
    let value ← shape levels doc
    return value :: (← items levels stop fields docs)

/-- The fields of a record. -/
def record (fields : Fields φ) : Shape (List φ)
  | 0, .object _ _ => .error .malformed
  | 0, .list _ _ => .error .malformed
  | levels + 1, .object docs stop => do
    let values ← members fields levels [] docs
    atEnd stop
    return values
  | levels + 1, .list docs stop => items levels stop fields docs
  | _, doc => .error doc.refusal

end Shape

-- ---------------------------------------------------------------------------
-- Bytes
-- ---------------------------------------------------------------------------

/-- The value of the bytes. -/
def decode {α : Type} (shape : Shape α) (bytes : List UInt8) : Except Fault α := do
  let reading := read bytes
  let value ← shape levelLimit reading.doc
  if reading.followed then .error .malformed else return value

end BuildQuery.Json
