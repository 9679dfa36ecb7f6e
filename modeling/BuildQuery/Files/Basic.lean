import BuildQuery.Files.Path

/-!
# BuildQuery — files

The files that a run can see, by place. Directories are listed only when they may be empty: whatever
stands in front of a listed place is a directory.

A path is followed name by name, and the first name that leads nowhere decides why it cannot be
followed. `makeDirectories` makes a directory and, where they are missing, the directories that its
path runs through; those that it has made stay when a later one cannot be made.
-/

namespace BuildQuery

/-- What stands at a place. -/
inductive Node where
  | file (content : List UInt8)
  | directory
deriving DecidableEq

/-- Why a file cannot be read or written. -/
inductive FileError where
  /-- The file holds no text. -/
  | notText
  /-- There is a directory where a file is wanted. -/
  | directory
  /-- There is something where a directory is to be made. -/
  | taken
  /-- There is a file on the way to the place. -/
  | obstructed
  /-- There is nothing on the way to the place. -/
  | missing
  /-- A name or the whole path is too long. -/
  | tooLong
deriving DecidableEq

/-- The text shown for an error of files. -/
def FileError.message : FileError → String
  | .notText => "stream did not contain valid UTF-8"
  | .directory => "Is a directory (os error 21)"
  | .taken => "File exists (os error 17)"
  | .obstructed => "Not a directory (os error 20)"
  | .missing => "No such file or directory (os error 2)"
  | .tooLong => "File name too long (os error 36)"

/-- The bytes that a name can have. -/
def nameLimit : Nat := 255

/-- The bytes that the text of a path can have. -/
def pathLimit : Nat := 4095

/-- The files of a run. -/
structure Files where
  nodes : List (Place × Node)
deriving DecidableEq

/-- What is left of the files when something has been tried, and why it failed if it did. -/
structure Attempt (ε : Type) where
  files : Files
  failure : Option ε

namespace Files

-- ---------------------------------------------------------------------------
-- Places
-- ---------------------------------------------------------------------------

/-- What is listed at a place. -/
def node? (files : Files) (place : Place) : Option Node :=
  files.nodes.lookup place

/-- The content of the file at a place. -/
def content? (files : Files) (place : Place) : Option (List UInt8) :=
  match files.node? place with
  | some (.file content) => some content
  | _ => none

/-- There is a directory at a place. -/
def isDirectory (files : Files) (place : Place) : Bool :=
  Place.isGround place || files.node? place == some .directory ||
    files.nodes.any fun (other, _) => place.isPrefixOf other && place != other

/-- There is a file or a directory at a place. -/
def isTaken (files : Files) (place : Place) : Bool :=
  (files.content? place).isSome || files.isDirectory place

/-- A place is entered: it must be a directory. -/
def enter (files : Files) (place : Place) : Except FileError Place :=
  if files.isDirectory place then .ok place
  else if (files.content? place).isSome then .error .obstructed
  else .error .missing

-- ---------------------------------------------------------------------------
-- Following paths
-- ---------------------------------------------------------------------------

/-- Where a name leads from a directory. -/
def child (place : Place) (name : String) : Except FileError Place :=
  if name = ".." then .ok (Place.up place)
  else if nameLimit < name.utf8ByteSize then .error .tooLong
  else .ok (place ++ [name])

/-- Where names lead from a directory. All but the last must lead to directories. -/
def follow (files : Files) (place : Place) : List String → Except FileError Place
  | [] => .ok place
  | [name] => child place name
  | name :: rest => do follow files (← files.enter (← child place name)) rest

/-- The place to which a path leads. There need not be anything. -/
def locate (files : Files) (path : Path) : Except FileError Place :=
  if pathLimit < path.size then .error .tooLong
  else do
    let place ← files.follow (Place.start path) path.names
    if path.endsAtDot then files.enter place else .ok place

/-- There is a file or a directory where a path leads. -/
def has (files : Files) (path : Path) : Bool :=
  match files.locate path with
  | .ok place => files.isTaken place
  | .error _ => false

/-- The content of a file. -/
def read (files : Files) (path : Path) : Except FileError (List UInt8) := do
  let place ← files.locate path
  if files.isDirectory place then .error .directory
  else (files.content? place).elim (.error .missing) .ok

-- ---------------------------------------------------------------------------
-- Changing files
-- ---------------------------------------------------------------------------

/-- The listed nodes with a file at a place, instead of what is listed there. -/
def put (place : Place) (content : List UInt8) : List (Place × Node) → List (Place × Node)
  | [] => [(place, .file content)]
  | (other, node) :: rest =>
    if other = place then (place, .file content) :: rest
    else (other, node) :: put place content rest

/-- The files with a file where a path leads, instead of an older one. -/
def write (files : Files) (path : Path) (content : List UInt8) : Except FileError Files := do
  let place ← files.locate path
  if files.isDirectory place then .error .directory else .ok ⟨put place content files.nodes⟩

/-- The files with a directory where a path leads. One that is there already will do. -/
def makeDirectory (files : Files) (path : Path) : Except FileError Files := do
  let place ← files.locate path
  if files.isDirectory place then .ok files
  else if (files.content? place).isSome then .error .taken
  else .ok ⟨files.nodes ++ [(place, .directory)]⟩

/-- Makes the first of some directories, each of which stands in the next; the next is made only when
the first has nothing to stand in. -/
def makeFirst (files : Files) : List Path → Attempt FileError
  | [] => ⟨files, none⟩
  | path :: above =>
    match files.makeDirectory path with
    | .ok files => ⟨files, none⟩
    | .error .missing =>
      let made := makeFirst files above
      match made.failure with
      | some e => ⟨made.files, some e⟩
      | none =>
        match made.files.makeDirectory path with
        | .ok files => ⟨files, none⟩
        | .error e => ⟨made.files, some e⟩
    | .error e => ⟨files, some e⟩

/-- Makes a directory and those that its path runs through. -/
def makeDirectories (files : Files) (path : Path) : Attempt FileError :=
  files.makeFirst path.lineage

end Files

end BuildQuery
