import BuildQuery.Json.Lexeme

/-!
# BuildQuery — documents

A `Doc` is a document as it is written: numbers and strings keep their spelling, members keep their
order and may repeat a name, and a document that breaks off keeps all that was read before. The
lexemes are consumed one by one (`Progress.step`) with the open containers in a list, so a document
may nest as deep as it likes.

* `read` gives the document of the bytes. What is wrong with a document is not decided here: it
  depends on the value that is wanted of it.
-/

namespace BuildQuery.Json

/-- A document as it is written. -/
inductive Doc where
  | null
  | bool (value : Bool)
  | number (value : Numeral)
  | text (value : Spelling)
  /-- The items of a list, and the place where the list breaks off if it does. -/
  | list (items : List Doc) (stop : Option Break)
  /-- The members of an object, and the place where the object breaks off if it does. -/
  | object (members : List (Spelling × Doc)) (stop : Option Break)
  /-- A value is missing here. -/
  | broken (fault : Break)
deriving Inhabited

/-- An open container: what it holds so far, the last first. An open object also has the name of the
member that is being read. -/
inductive Frame where
  | list (items : List Doc)
  | object (members : List (Spelling × Doc)) (name : Spelling)

/-- What may come next. In the two innermost containers, what they hold so far stands last first. -/
inductive Want where
  | value
  | firstItem
  | afterItem (items : List Doc)
  | firstName
  | nextName (members : List (Spelling × Doc))
  | colon (members : List (Spelling × Doc)) (name : Spelling)
  | afterMember (members : List (Spelling × Doc))

/-- How far the document has been read. -/
inductive Progress where
  /-- Inside the document, with the containers that are open, the innermost first. -/
  | inside (want : Want) (stack : List Frame)
  /-- The document is complete. -/
  | complete (doc : Doc)
  /-- The document is complete and something follows it. -/
  | followed (doc : Doc)
  /-- The document has broken off. -/
  | stopped (doc : Doc)

/-- Goes on after a value. -/
def place (doc : Doc) : List Frame → Progress
  | [] => .complete doc
  | .list items :: stack => .inside (.afterItem (doc :: items)) stack
  | .object members name :: stack => .inside (.afterMember ((name, doc) :: members)) stack

/-- Closes all open containers around a value at a place where the document breaks off. -/
def unwind (fault : Break) (doc : Doc) : List Frame → Doc
  | [] => doc
  | .list items :: stack => unwind fault (.list (doc :: items).reverse (some fault)) stack
  | .object members name :: stack =>
    unwind fault (.object ((name, doc) :: members).reverse (some fault)) stack

/-- The document that breaks off where this was wanted. -/
def breakOff (fault : Break) (stack : List Frame) : Want → Doc
  | .value => unwind fault (.broken fault) stack
  | .firstItem => unwind fault (.list [] (some fault)) stack
  | .afterItem items => unwind fault (.list items.reverse (some fault)) stack
  | .firstName => unwind fault (.object [] (some fault)) stack
  | .nextName members => unwind fault (.object members.reverse (some fault)) stack
  | .colon members name =>
    unwind fault (.object ((name, .broken fault) :: members).reverse (some fault)) stack
  | .afterMember members => unwind fault (.object members.reverse (some fault)) stack

/-- The fault of a lexeme that stands where a value is wanted. -/
def faultAtValue : Lexeme → Break
  | .brokenText fault => fault
  | .broken fault => fault
  | _ => .of .malformed

/-- The fault of a lexeme that stands where the name of a member is wanted. -/
def faultAtName : Lexeme → Break
  | .brokenText fault => fault
  | _ => .of .malformed

/-- Consumes a lexeme where a value is wanted. -/
def stepValue (stack : List Frame) (l : Lexeme) : Progress :=
  match l with
  | .null => place .null stack
  | .bool value => place (.bool value) stack
  | .number value => place (.number value) stack
  | .text value => place (.text value) stack
  | .openList => .inside .firstItem stack
  | .openObject => .inside .firstName stack
  | l => .stopped (breakOff (faultAtValue l) stack .value)

/-- Consumes a lexeme inside the document. -/
def stepInside (want : Want) (stack : List Frame) (l : Lexeme) : Progress :=
  match want, l with
  | .value, l => stepValue stack l
  | .firstItem, .closeList => place (.list [] none) stack
  | .firstItem, l => stepValue (.list [] :: stack) l
  | .afterItem items, .closeList => place (.list items.reverse none) stack
  | .afterItem items, .comma => .inside .value (.list items :: stack)
  | .firstName, .closeObject => place (.object [] none) stack
  | .firstName, .text name => .inside (.colon [] name) stack
  | .firstName, l => .stopped (breakOff (faultAtName l) stack .firstName)
  | .nextName members, .text name => .inside (.colon members name) stack
  | .nextName members, l => .stopped (breakOff (faultAtName l) stack (.nextName members))
  | .colon members name, .colon => .inside .value (.object members name :: stack)
  | .afterMember members, .closeObject => place (.object members.reverse none) stack
  | .afterMember members, .comma => .inside (.nextName members) stack
  | want, _ => .stopped (breakOff (.of .malformed) stack want)

/-- Consumes a lexeme. -/
def Progress.step : Progress → Lexeme → Progress
  | .inside want stack, l => stepInside want stack l
  | .complete doc, _ => .followed doc
  | .followed doc, _ => .followed doc
  | .stopped doc, _ => .stopped doc

/-- The document of the bytes, and whether something follows it. -/
structure Reading where
  doc : Doc
  followed : Bool

/-- What has been read when the bytes end. -/
def Progress.finish : Progress → Reading
  | .inside want stack => ⟨breakOff (.of .truncated) stack want, false⟩
  | .complete doc => ⟨doc, false⟩
  | .followed doc => ⟨doc, true⟩
  | .stopped doc => ⟨doc, false⟩

/-- Reads the bytes as a document. -/
def read (bytes : List UInt8) : Reading :=
  ((lex bytes).foldl Progress.step (.inside .value [])).finish

end BuildQuery.Json
