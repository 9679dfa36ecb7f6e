import BuildQuery.Error
import BuildQuery.Toml.Reader

/-!
# BuildQuery — stored settings

Settings are stored in the file `config.toml` of their root directory. A key that is missing there has
its initial value, and other keys and tables are ignored.

* `stored` reads the file only, `load` also applies the overrides of the environment.
* `save` writes the file anew; it fails before the file is touched, though not before the directories
  on the way are made.
-/

namespace BuildQuery.Settings

open Text

-- ---------------------------------------------------------------------------
-- Where settings are stored
-- ---------------------------------------------------------------------------

/-- The variable that names the root directory. -/
def rootVariable : String := "JENQ_ROOT"

/-- The home directory of the user: the one that a variable names, else the one that the system
knows. An empty name is none. -/
def homeOf (env : Environment) : Option String :=
  ((env "HOME").filter (· ≠ "")).or (env.home.filter (· ≠ ""))

/-- The directory for settings of a user: a variable may name it, if its path begins at the top. -/
def settingsDirectory (env : Environment) (home : String) : String :=
  ((env "XDG_CONFIG_HOME").filter fun path => path.toList.head? = some '/').getD
    (Path.below home ".config")

/-- The root directory: the one that the environment names, else one below the directory for settings
of the user. A user without a home directory has one below the directory that the variable for it
names, which is empty then. -/
def rootOf (env : Environment) : Except SettingsError String :=
  match env rootVariable with
  | some root => .ok root
  | none =>
    match homeOf env with
    | some home => .ok (Path.below (settingsDirectory env home) "jenq")
    | none =>
      match env "HOME" with
      | some home => .ok (Path.below home ".config/jenq")
      | none => .error .noHome

/-- The text of the path of the settings file. -/
def fileText (s : Settings) : String :=
  Path.below s.root "config.toml"

/-- The path of the settings file in a root directory. -/
def filePath (root : String) : Path :=
  Path.ofText (Path.below root "config.toml")

/-- Two settings are the same when they agree and their root directories have one path. -/
def same (s t : Settings) : Bool :=
  (Path.ofText s.root).agree (Path.ofText t.root) && s == { t with root := s.root }

-- ---------------------------------------------------------------------------
-- Reading
-- ---------------------------------------------------------------------------

/-- A text, if the key is there. -/
def textAt? (t : Toml.Table) (key : String) : Option (Option String) :=
  match t.lookup key with
  | none => some none
  | some (.text s) => some (some s)
  | some _ => none

/-- A number, if the key is there. -/
def numberAt? (t : Toml.Table) (key : String) : Option (Option Nat) :=
  match t.lookup key with
  | none => some none
  | some (.integer n) => if 0 ≤ n then some (some n.toNat) else none
  | some _ => none

/-- The settings that a table describes. -/
def ofTable? (env : Environment) (root : String) (t : Toml.Table) : Option Settings := do
  let first := initial env root
  return {
    root := root
    hostUrl := ← textAt? t "host_url"
    defaultJob := ← textAt? t "default_job"
    username := (← textAt? t "username").getD first.username
    workers := (← numberAt? t "workers").getD first.workers
    channelCapacity := (← numberAt? t "channel_capacity").getD first.channelCapacity
    timeoutSecs := (← numberAt? t "timeout_secs").getD first.timeoutSecs }

/-- The settings that a file describes. -/
def ofText? (env : Environment) (root text : String) : Option Settings := do
  ofTable? env root (← Toml.read text)

/-- The settings in a root directory. -/
def storedIn (files : Files) (env : Environment) (root : String) : Except Error Settings :=
  if files.has (filePath root) then do
    let content ← (files.read (filePath root)).mapError .files
    let text ← (ofBytes? content).elim (.error (.files .notText)) .ok
    (ofText? env root text).elim (.error (.settings (.notUnderstood text))) .ok
  else .ok (initial env root)

/-- The settings that are stored. -/
def stored (files : Files) (env : Environment) : Except Error Settings := do
  storedIn files env (← (rootOf env).mapError .settings)

/-- The settings that are stored, with the overrides of the environment. -/
def load (files : Files) (env : Environment) : Except Error Settings := do
  return overridden env (← stored files env)

-- ---------------------------------------------------------------------------
-- Writing
-- ---------------------------------------------------------------------------

/-- The largest number that a settings file can hold. -/
def largestNumber : Nat := Int64.maxValue.toInt.toNat

/-- A line of the settings file. -/
def fileLine (key value : String) : String :=
  key ++ " = " ++ value ++ "\n"

/-- A line for a text that may be missing. -/
def optionalLine (key : String) : Option String → String
  | some s => fileLine key (Toml.literal s)
  | none => ""

/-- The content of the settings file. -/
def content (s : Settings) : String :=
  optionalLine "host_url" s.hostUrl ++ optionalLine "default_job" s.defaultJob
    ++ fileLine "username" (Toml.literal s.username)
    ++ fileLine "workers" (Decimal.text s.workers)
    ++ fileLine "channel_capacity" (Decimal.text s.channelCapacity)
    ++ fileLine "timeout_secs" (Decimal.text s.timeoutSecs)

/-- All numbers fit in a settings file. -/
def fits (s : Settings) : Bool :=
  s.workers ≤ largestNumber && s.channelCapacity ≤ largestNumber && s.timeoutSecs ≤ largestNumber

/-- Writes the settings into their file. -/
def write (s : Settings) (files : Files) : Except Error Files :=
  if s.fits then (files.write (filePath s.root) (bytes s.content)).mapError .files
  else .error (.settings .notWritable)

/-- Stores the settings. -/
def save (s : Settings) (files : Files) : Attempt Error :=
  let made := files.makeDirectories (Path.ofText s.root)
  match made.failure with
  | some e => ⟨made.files, some (.files e)⟩
  | none =>
    match s.write made.files with
    | .ok files => ⟨files, none⟩
    | .error e => ⟨made.files, some e⟩

end BuildQuery.Settings
