import BuildQuery.Remote.Address
import BuildQuery.Remote.Credentials

/-!
# BuildQuery — settings

Settings say which host to ask, which job when none is named, for which user and with how much effort.
They are stored in a file below a root directory; three variables of the environment override what
is stored, unless they are blank.
-/

namespace BuildQuery

open Text

/-- The settings of a run. -/
structure Settings where
  /-- The directory of the settings file. -/
  root : String
  hostUrl : Option String
  defaultJob : Option String
  username : String
  /-- How many builds are fetched at the same time. -/
  workers : Nat
  /-- How many fetched builds may wait to be shown. -/
  channelCapacity : Nat
  /-- How long a request may take. -/
  timeoutSecs : Nat
deriving DecidableEq

/-- Why settings cannot be used. -/
inductive SettingsError where
  /-- The host is not set, or blank. -/
  | noHost
  /-- The job is neither named nor set, or blank. -/
  | noJob
  /-- The host that is to be set is blank. -/
  | blankHost
  /-- The job that is to be set is blank. -/
  | blankJob
  /-- The text of the settings file cannot be understood. -/
  | notUnderstood (text : String)
  /-- A number of the settings is too large for a settings file. -/
  | notWritable
  /-- No directory is known for the settings file. -/
  | noHome
deriving DecidableEq

/-- The variable that overrides the host. -/
def hostVariable : String := "JENKINS_HOST_URL"

/-- The variable that overrides the job. -/
def jobVariable : String := "JENKINS_DEFAULT_JOB"

/-- The variable that overrides the user. -/
def userVariable : String := "JENKINS_USER"

namespace Settings

/-- The user who runs the program. -/
def currentUser (env : Environment) : String :=
  ((env "USER").or (env "USERNAME")).getD "unknown"

/-- The settings when nothing is stored. -/
def initial (env : Environment) (root : String) : Settings where
  root := root
  hostUrl := none
  defaultJob := none
  username := currentUser env
  workers := 8
  channelCapacity := 32
  timeoutSecs := 30

/-- A variable that is set and not blank. -/
def override? (env : Environment) (name : String) : Option String :=
  (env name).filter fun value => !isBlankText value

/-- The settings with the overrides of the environment. -/
def overridden (env : Environment) (s : Settings) : Settings :=
  { s with
    hostUrl := (override? env hostVariable).or s.hostUrl
    defaultJob := (override? env jobVariable).or s.defaultJob
    username := (override? env userVariable).getD s.username }

/-- The address of the host. -/
def host (s : Settings) : Except SettingsError String :=
  match s.hostUrl.map trim with
  | some host => if host.isEmpty then .error .noHost else .ok (Remote.hostAddress host)
  | none => .error .noHost

/-- The job to ask for: the one that is named, else the one that is set. -/
def job (s : Settings) (named : Option String) : Except SettingsError String :=
  match (named.or s.defaultJob).filter fun job => !isBlankText job with
  | some job => .ok job
  | none => .error .noJob

/-- The settings with another host. -/
def setHost (s : Settings) (host : String) : Settings :=
  { s with hostUrl := some (Remote.hostAddress host) }

/-- The settings with another job. -/
def setJob (s : Settings) (job : String) : Settings :=
  { s with defaultJob := some job }

end Settings

end BuildQuery
