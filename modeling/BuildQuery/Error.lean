import BuildQuery.Fetch.Sequencer
import BuildQuery.Files.Basic
import BuildQuery.Filter.Token
import BuildQuery.Json.Lexeme
import BuildQuery.Settings.Basic

/-!
# BuildQuery — errors

Whatever can go wrong in a run, by cause. `Error.message` is the text that is shown. Only one kind of
error is a defect of the program itself: results that do not arrive as they should.

Some texts end with what a library says about a document or a settings file. These words are not the
program's own, so every text is made with a `Wording` that supplies them.
-/

namespace BuildQuery

/-- What a host is asked for. -/
inductive Document where
  /-- The list of the builds of a job. -/
  | listing
  /-- One build. -/
  | build
deriving DecidableEq

/-- What the libraries say. -/
structure Wording where
  /-- Why bytes are not the document that was asked for. -/
  undecoded : Document → List UInt8 → String
  /-- Why a text is not that of a settings file. -/
  unread : String → String
  /-- What is said of a number that is too large for a settings file. -/
  unwritten : String
  /-- What answers a command line that asks about the program. -/
  help : List String → String
  /-- What answers a command line that is not understood. -/
  misuse : List String → String
deriving Inhabited

/-- What can go wrong. -/
inductive Error where
  /-- A file cannot be read or written. -/
  | files (error : FileError)
  /-- The server cannot be reached. -/
  | unreachable (url message : String)
  /-- The answer of the server breaks off. -/
  | brokenOff (message : String)
  /-- The server answers with a status other than 200. -/
  | badStatus (url : String) (code : Nat)
  /-- The answer of the server is not what was asked for. -/
  | notDecoded (url : String) (wanted : Document) (body : List UInt8) (fault : Json.Fault)
  | settings (error : SettingsError)
  /-- No provider has credentials. -/
  | noCredentials (refusals : List Remote.Refusal)
  | query (error : Filter.QueryError)
  /-- The results do not arrive as they should. -/
  | disorder (violation : Fetch.Violation)
deriving DecidableEq

/-- The text shown for an error of settings. -/
def SettingsError.message (wording : Wording) : SettingsError → String
  | .noHost => hostVariable ++ " is empty"
  | .noJob => "Job not specified. Pass a job name or set " ++ jobVariable
  | .blankHost => "Host URL cannot be empty"
  | .blankJob => "Job name cannot be empty"
  | .notUnderstood text => "Failed to parse config: " ++ wording.unread text
  | .notWritable => "Failed to serialize config: " ++ wording.unwritten
  | .noHome => "Could not determine home directory"

namespace Error

/-- The text shown when no provider has credentials. -/
def refusalsMessage (refusals : List Remote.Refusal) : String :=
  if refusals.isEmpty then "no credential providers configured"
  else "; ".intercalate (refusals.map Remote.Refusal.message)

/-- The text shown for an error. -/
def message (wording : Wording) : Error → String
  | .files e => "IO error: " ++ e.message
  | .unreachable url message => "HTTP error for GET '" ++ url ++ "': " ++ message
  | .brokenOff message => "IO error: " ++ message
  | .badStatus url code =>
    "Bad status code for GET '" ++ url ++ "': wanted 200, got " ++ Decimal.text code
  | .notDecoded url wanted body _ =>
    "Failed to decode response from '" ++ url ++ "': " ++ wording.undecoded wanted body
  | .settings e => "Configuration error: " ++ e.message wording
  | .noCredentials refusals => "Credentials error: " ++ refusalsMessage refusals
  | .query e => "Query error: " ++ e.message
  | .disorder v => "Internal invariant violated: " ++ v.message

/-- An error that is a defect of the program. -/
def isDefect : Error → Bool
  | .disorder _ => true
  | _ => false

end Error

end BuildQuery
