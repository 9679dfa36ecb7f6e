import BuildQuery.Command.Run

/-!
# BuildQuery — the program

Reads the arguments, the environment, the settings file and the terminal, runs the command, and
writes what it leaves. A host is not asked from here: every request answers that no transport is
there. Neither is a library, so that what the libraries say is empty, nor the system for the home
directory of the user.
-/

namespace BuildQuery.Main

open Command

/-- The variables that a run looks at. -/
def variableNames : List String :=
  ["JENQ_ROOT", "XDG_CONFIG_HOME", "HOME", "USER", "USERNAME", hostVariable, jobVariable,
    userVariable, "CLICOLOR_FORCE"] ++ Remote.secretVariables

/-- The values of the variables that are set. -/
def readEnvironment : IO Environment := do
  let mut found : List (String × String) := []
  for name in variableNames do
    match ← IO.getEnv name with
    | some value => found := (name, value) :: found
    | none => pure ()
  return .ofVariables found

/-- The text of a place. -/
def placeText (place : Place) : String :=
  let names := "/".intercalate place
  if place.head? = some "." then names else "/" ++ names

/-- What stands at a place. What cannot be read is taken for a directory. -/
def readNode (place : Place) : IO (Option Node) := do
  try
    let content ← IO.FS.readBinFile (placeText place)
    return some (.file content.toList)
  catch
    | .noFileOrDirectory .. => return none
    | _ => return some .directory

/-- The places to which a path leads name by name, if there were directories everywhere. -/
def placesOf (place : Place) : List String → List Place
  | [] => []
  | name :: rest =>
    match Files.child place name with
    | .error _ => []
    | .ok next => next :: placesOf next rest

/-- The files that matter: the settings file, and the directories on the way to it. -/
def readFiles (env : Environment) : IO Files := do
  match Settings.rootOf env with
  | .error _ => return ⟨[]⟩
  | .ok root =>
    let path := Settings.filePath root
    let nodes ← (placesOf (Place.start path) path.names).filterMapM fun place => do
      return (← readNode place).map fun node => (place, node)
    return ⟨nodes⟩

/-- Makes the directories and writes the files that a run has changed. -/
def writeFiles (before after : Files) : IO Unit := do
  for (place, node) in after.nodes do
    if before.node? place ≠ some node then
      match node with
      | .directory => IO.FS.createDir (placeText place)
      | .file content => IO.FS.writeBinFile (placeText place) ⟨content.toArray⟩

/-- No host can be asked. -/
def noTransport (r : Remote.Request) : Except Error (List UInt8) :=
  .error (.unreachable r.url "no transport is available")

/-- The line at the terminal, if the run comes to ask for it. -/
def readTerminal (w : World) (args : List String) : IO Remote.Terminal := do
  let input ← IO.getStdin
  if !(← input.isTty) then return none
  let asked := (runArguments { w with terminal := some [] } args).err
  if asked = (runArguments w args).err then return some []
  return some (Text.bytes (← input.getLine))

/-- Runs a command line and gives the exit code. -/
def run (args : List String) : IO UInt32 := do
  let env ← readEnvironment
  let files ← readFiles env
  let w : World := { files, env, terminal := none, transport := noTransport, wording := default }
  let terminal ← readTerminal w args
  let done := runArguments { w with terminal } args
  writeFiles files done.files
  IO.print done.out
  IO.eprint done.err
  return UInt32.ofNat done.code

end BuildQuery.Main

/-- The program. -/
def main (args : List String) : IO UInt32 :=
  BuildQuery.Main.run args
