import BuildQuery.Command.Basic
import BuildQuery.Filter.Grammar
import BuildQuery.Remote.Client
import BuildQuery.Settings.Store

/-!
# BuildQuery — running a command

A run sees a world: the files, the environment, the line at the terminal, what answers requests, and
what the libraries say. It leaves an exit code, two texts, the files and the requests that it sent.
`prepare` makes everything ready for a query in a fixed order, and the first thing that fails is the one
reported.
-/

namespace BuildQuery.Command

open Text

/-- What a run sees. -/
structure World where
  files : Files
  env : Environment
  terminal : Remote.Terminal
  transport : Remote.Transport
  wording : Wording

/-- What a run leaves. -/
structure Done where
  code : Nat
  out : String
  err : String
  files : Files
  requests : List Remote.Request

/-- Lines, each with its end. -/
def unlines (lines : List String) : String :=
  String.join (lines.map (· ++ "\n"))

/-- The line for an error. -/
def errorLine (wording : Wording) (e : Error) : String :=
  "Error: " ++ e.message wording

/-- A run that fails, after some text has been shown. -/
def World.failing (w : World) (shown : String) (e : Error) : Done where
  code := 1
  out := ""
  err := shown ++ unlines [errorLine w.wording e]
  files := w.files
  requests := []

/-- A run that shows lines. -/
def World.showing (w : World) (lines : List String) : Done where
  code := 0
  out := unlines lines
  err := ""
  files := w.files
  requests := []

-- ---------------------------------------------------------------------------
-- Filters
-- ---------------------------------------------------------------------------

/-- What is shown of a filter that is none, before the error: the place of a stray character. -/
def pointer (input : String) : Filter.QueryError → String
  | .strayCharacter offset => unlines (Filter.pointAt input offset)
  | _ => ""

/-- The name of a kind of tokens. -/
def kindName : Filter.TokenKind → String
  | .ident => "Ident"
  | .and => "And"
  | .or => "Or"
  | .notEqual => "NotEqual"
  | .equal => "Equal"

/-- The line for a token. -/
def tokenLine (t : Filter.Token) : String :=
  padStart 4 (Decimal.text t.offset) ++ "  " ++ padEnd 9 (kindName t.kind) ++ " " ++ t.text

/-- Shows a filter, and its tokens if they are asked for. -/
def runParse (w : World) (input : String) (tokens : Bool) : Done :=
  match Filter.tokenize input with
  | .error e => w.failing (pointer input e) (.query e)
  | .ok found =>
    let lines := if tokens then found.map tokenLine else []
    match Filter.ofTokens found with
    | .error e => { w.failing (pointer input e) (.query e) with out := unlines lines }
    | .ok filter => w.showing (lines ++ [filter.render])

-- ---------------------------------------------------------------------------
-- Settings
-- ---------------------------------------------------------------------------

/-- The lines for settings. -/
def settingsLines (s : Settings) : List String :=
  let notSet := "(not set)"
  [ padEnd 15 "Config:" ++ s.fileText,
    padEnd 15 "Host:" ++ s.host.toOption.getD notSet,
    padEnd 15 "Default job:" ++ s.defaultJob.getD notSet,
    padEnd 15 "User:" ++ s.username,
    padEnd 15 "Workers:" ++ Decimal.text s.workers,
    padEnd 15 "Channel:" ++ Decimal.text s.channelCapacity,
    padEnd 15 "Timeout:" ++ Decimal.text s.timeoutSecs ++ "s" ]

/-- Shows the settings. -/
def runShowSettings (w : World) : Done :=
  match Settings.load w.files w.env with
  | .error e => w.failing "" e
  | .ok s => w.showing (settingsLines s)

/-- Changes the stored settings and shows a line. -/
def runChange (w : World) (change : Settings → Settings) (line : String) : Done :=
  match Settings.stored w.files w.env with
  | .error e => w.failing "" e
  | .ok s =>
    let saved := (change s).save w.files
    match saved.failure with
    | some e => { w.failing "" e with files := saved.files }
    | none => { w.showing [line] with files := saved.files }

/-- Stores a host. -/
def runSetHost (w : World) (url : String) : Done :=
  if (trim url).isEmpty then w.failing "" (.settings .blankHost)
  else runChange w (·.setHost (trim url)) ("Host set to " ++ Remote.hostAddress (trim url))

/-- Stores a job. -/
def runSetJob (w : World) (name : String) : Done :=
  if (trim name).isEmpty then w.failing "" (.settings .blankJob)
  else runChange w (·.setJob (trim name)) ("Default job set to " ++ trim name)

-- ---------------------------------------------------------------------------
-- Builds
-- ---------------------------------------------------------------------------

/-- Colours are shown where the environment asks for them. -/
def inkOf (env : Environment) : Report.Ink :=
  if (env "CLICOLOR_FORCE").any (· ≠ "0") then .colours else .none

/-- All that is needed for a query. -/
structure Ready where
  client : Remote.Client
  job : String
  view : Remote.View

/-- Makes a query ready, or gives the first thing that fails; with the text that is shown on the way. -/
def prepare (w : World) (c : BuildsCommand) : Except Error Ready × String :=
  match Settings.load w.files w.env with
  | .error e => (.error e, "")
  | .ok s =>
    match s.job c.job with
    | .error e => (.error (.settings e), "")
    | .ok job =>
      match Filter.parse c.filter with
      | .error e => (.error (.query e), pointer c.filter e)
      | .ok filter =>
        let reply := Remote.ask w.env w.terminal (Remote.usualProviders s.username)
        match reply.result with
        | .error refusals => (.error (.noCredentials refusals), reply.shown)
        | .ok credentials =>
          match s.host with
          | .error e => (.error (.settings e), reply.shown)
          | .ok host =>
            let client := ⟨host, credentials, c.workers.getD s.workers, s.channelCapacity⟩
            (.ok ⟨client, job, ⟨filter, c.format, inkOf w.env⟩⟩, reply.shown)

/-- What the entries of a query are shown as. -/
structure Shown where
  out : List String
  err : List String

/-- What entries are shown as. A violation ends the listing. -/
def showEntries (wording : Wording) : List (Except Fetch.Violation (Nat × Remote.Entry)) → Shown
  | [] => ⟨[], []⟩
  | .error v :: _ => ⟨[], [errorLine wording (.disorder v)]⟩
  | .ok (_, .shown line) :: rest =>
    let later := showEntries wording rest
    { later with out := line :: later.out }
  | .ok (_, .skipped) :: rest => showEntries wording rest
  | .ok (_, .failed e) :: rest =>
    let later := showEntries wording rest
    { later with err := errorLine wording e :: later.err }

/-- The lines above the entries. -/
def headerLines : Report.Format → List String
  | .table => [Report.tableHeader]
  | _ => []

/-- Shows the builds of a job. The run fails when one of them cannot be had. -/
def runBuilds (w : World) (c : BuildsCommand) : Done :=
  match prepare w c with
  | (.error e, shown) => w.failing shown e
  | (.ok ready, shown) =>
    let answered := ready.client.query w.transport ready.job ready.view
    match answered.entries with
    | .error e => { w.failing shown e with requests := answered.requests }
    | .ok entries =>
      let found := showEntries w.wording entries
      { code := if found.err.isEmpty then 0 else 1
        out := unlines (headerLines c.format ++ found.out)
        err := shown ++ unlines found.err
        files := w.files
        requests := answered.requests }

-- ---------------------------------------------------------------------------
-- All commands
-- ---------------------------------------------------------------------------

/-- Runs a command. -/
def run (w : World) : Command → Done
  | .builds c => runBuilds w c
  | .parse filter tokens => runParse w filter tokens
  | .showSettings => runShowSettings w
  | .setHost url => runSetHost w url
  | .setJob name => runSetJob w name

/-- Runs a command line. -/
def runArguments (w : World) (args : List String) : Done :=
  match ofArguments args with
  | .ok command => run w command
  | .error .inform => { w.showing [] with out := w.wording.help args }
  | .error .misuse => { w.showing [] with code := 2, err := w.wording.misuse args }

end BuildQuery.Command
