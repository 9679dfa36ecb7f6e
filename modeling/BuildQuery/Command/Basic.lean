import BuildQuery.Command.Arguments
import BuildQuery.Decimal.Digits
import BuildQuery.Report.Line

/-!
# BuildQuery — commands

    builds [--filter FILTER] [--format FORMAT] [--workers COUNT] [JOB]
    parse [--tokens] FILTER
    config [show | set-host URL | set-job NAME]

`Command.ofArguments` gives the command of a command line.
-/

namespace BuildQuery

/-- What the builds of a job are asked with. -/
structure BuildsCommand where
  job : Option String
  filter : String
  format : Report.Format
  workers : Option Nat
deriving DecidableEq

/-- A command. -/
inductive Command where
  /-- Shows the builds of a job. -/
  | builds (command : BuildsCommand)
  /-- Shows how a filter is understood. -/
  | parse (filter : String) (tokens : Bool)
  /-- Shows the settings. -/
  | showSettings
  /-- Stores a host. -/
  | setHost (url : String)
  /-- Stores a job. -/
  | setJob (name : String)
deriving DecidableEq

namespace Command

-- ---------------------------------------------------------------------------
-- Values of options
-- ---------------------------------------------------------------------------

/-- A count of 64 bits in decimal digits, before which a plus may stand. -/
def count? (s : String) : Option Nat :=
  let cs := match s.toList with
    | '+' :: cs => cs
    | cs => cs
  if cs.isEmpty ∨ !cs.all Char.isDigit then none
  else
    let n := Decimal.ofDigits (cs.map fun c => c.toNat - '0'.toNat)
    if n < UInt64.size then some n else none

/-- The format with a name. -/
def format? (s : String) : Option Report.Format :=
  match s with
  | "compact" => some .compact
  | "table" => some .table
  | "json" => some .json
  | _ => none

-- ---------------------------------------------------------------------------
-- Levels
-- ---------------------------------------------------------------------------

/-- Every level has a switch for more output and one for help. -/
def commonSwitches : List Switch :=
  [⟨⟨'v', "verbose"⟩, false⟩, ⟨⟨'h', "help"⟩, true⟩]

/-- The program itself. -/
def programLevel : Level where
  switches := commonSwitches ++ [⟨⟨'V', "version"⟩, true⟩]
  choices := []
  words := 0
  commands := ["builds", "b", "parse", "config", "help"]

/-- The command that shows builds. -/
def buildsLevel : Level where
  switches := commonSwitches
  choices := [
    ⟨⟨'f', "filter"⟩, fun _ => true⟩,
    ⟨⟨'F', "format"⟩, fun s => (format? s).isSome⟩,
    ⟨⟨'w', "workers"⟩, fun s => (count? s).isSome⟩]
  words := 1
  commands := []

/-- The command that shows a filter. -/
def parseLevel : Level where
  switches := commonSwitches ++ [⟨⟨'t', "tokens"⟩, false⟩]
  choices := []
  words := 1
  commands := []

/-- The command for settings. -/
def configLevel : Level where
  switches := commonSwitches
  choices := []
  words := 0
  commands := ["show", "set-host", "set-job", "help"]

/-- A command with so many words and no options of its own. -/
def plainLevel (words : Nat) : Level where
  switches := commonSwitches
  choices := []
  words := words
  commands := []

/-- What is given on a level, when nothing has been given on it before. -/
def readLevel (level : Level) (args : List String) : Except Halt (Given × Level.Rest) :=
  level.read ⟨.nothing, none⟩ args

-- ---------------------------------------------------------------------------
-- Commands
-- ---------------------------------------------------------------------------

/-- The one word that has to be given. -/
def onlyWord (g : Given) : Except Halt String :=
  g.words.head?.elim (.error .misuse) .ok

/-- The command that shows builds. -/
def readBuilds (args : List String) : Except Halt Command := do
  let (g, _) ← readLevel buildsLevel args
  return .builds {
    job := g.words.head?
    filter := (g.value? "filter").getD ""
    format := ((g.value? "format").bind format?).getD .compact
    workers := (g.value? "workers").bind count? }

/-- The command that shows a filter. -/
def readParse (args : List String) : Except Halt Command := do
  let (g, _) ← readLevel parseLevel args
  return .parse (← onlyWord g) (g.has "tokens")

/-- A command with one word. -/
def readWord (command : String → Command) (args : List String) : Except Halt Command := do
  let (g, _) ← readLevel (plainLevel 1) args
  return command (← onlyWord g)

/-- Help is there for a command and the commands below it. -/
def readHelp (known : List String) (below : List (String × List String)) : List String → Halt
  | [] => .inform
  | [name] => if name ∈ known then .inform else .misuse
  | [name, inner] => if ((below.lookup name).getD []).contains inner then .inform else .misuse
  | _ => .misuse

/-- The command for settings. -/
def readConfig (args : List String) : Except Halt Command := do
  match ← readLevel configLevel args with
  | (_, none) => return .showSettings
  | (_, some ("show", args)) => do
    let _ ← readLevel (plainLevel 0) args
    return .showSettings
  | (_, some ("set-host", args)) => readWord .setHost args
  | (_, some ("set-job", args)) => readWord .setJob args
  | (_, some (_, args)) => .error (readHelp configLevel.commands [] args)

/-- The command of a command line. -/
def ofArguments (args : List String) : Except Halt Command := do
  match ← readLevel programLevel args with
  | (_, some ("builds", args)) => readBuilds args
  | (_, some ("b", args)) => readBuilds args
  | (_, some ("parse", args)) => readParse args
  | (_, some ("config", args)) => readConfig args
  | (_, some (_, args)) =>
    .error (readHelp programLevel.commands [("config", configLevel.commands)] args)
  | (_, none) => .error .misuse

end Command

end BuildQuery
