import BuildQuery.Remote.Base64
import BuildQuery.Text.Bytes
import BuildQuery.Text.Quoted
import BuildQuery.Text.Blank

/-!
# BuildQuery — credentials

A request names a user and carries a secret, a password or a token. Credentials come from providers
that are asked in turn: the first that has some wins, and if none has, the reasons of all of them are
kept.

* The environment provider takes the first of two variables that is not empty.
* The prompt provider asks at a terminal for a line.

What the system tells a run is its `Environment`, and what is read at the terminal its `Terminal`.
-/

namespace BuildQuery

/-- What the system tells a run. -/
structure Environment where
  /-- The values of the variables that are set. -/
  value : String → Option String
  /-- The home directory that the system knows for the user. -/
  home : Option String

/-- The environment in which some variables are set, and no home directory is known. -/
def Environment.ofVariables (known : List (String × String)) : Environment :=
  ⟨fun name => known.lookup name, none⟩

/-- An environment is asked for its variables. -/
instance : CoeFun Environment fun _ => String → Option String :=
  ⟨Environment.value⟩

namespace Remote

open Text

/-- A user and a secret. -/
structure Credentials where
  username : String
  password : String
deriving DecidableEq

namespace Credentials

/-- What a request carries. -/
def authorization (c : Credentials) : String :=
  "Basic " ++ String.ofList (Base64.encode (bytes (c.username ++ ":" ++ c.password)))

/-- What a log shows of credentials: not the secret. -/
def shown (c : Credentials) : String :=
  "Credentials \x7b username: " ++ quoted c.username ++ ", password: " ++ quoted "<redacted>"
    ++ " \x7d"

end Credentials

-- ---------------------------------------------------------------------------
-- Providers
-- ---------------------------------------------------------------------------

/-- The variables that may hold a secret, in the order in which they are looked at. -/
def secretVariables : List String :=
  ["JENKINS_API_TOKEN", "JENKINS_PASSWORD"]

/-- Why a provider has no credentials. -/
inductive Refusal where
  /-- Neither variable holds a secret. -/
  | noSecret
  /-- There is no terminal to ask at. -/
  | noTerminal
  /-- The line that was read is no text. -/
  | notText
  /-- The line that was read is empty. -/
  | emptyPassword
  /-- The provider gives a reason of its own. -/
  | other (reason : String)
deriving DecidableEq

/-- The text shown for a refusal. -/
def Refusal.message : Refusal → String
  | .noSecret => "Credentials error: neither " ++ " nor ".intercalate secretVariables ++ " is set"
  | .noTerminal => "Credentials error: cannot prompt for a password: stdin is not a terminal"
  | .notText => "IO error: stream did not contain valid UTF-8"
  | .emptyPassword => "Credentials error: empty password"
  | .other reason => "Credentials error: " ++ reason

/-- A source of credentials. -/
inductive Provider where
  | fixed (credentials : Credentials)
  | environment (username : String)
  | prompt (username : String)
  | refusing (reason : String)
deriving DecidableEq

/-- What is read at the terminal, if there is one: the bytes of a line, its end included. -/
abbrev Terminal := Option (List UInt8)

/-- The password in a line: the text before the returns and newlines at its end. -/
def passwordIn (line : List UInt8) : Except Refusal String :=
  match ofBytes? line with
  | none => .error .notText
  | some text =>
    let password := String.ofList (trimEndWhile (fun c => c == '\r' || c == '\n') text.toList)
    if password.isEmpty then .error .emptyPassword else .ok password

/-- The secret in the environment. -/
def secret? (env : Environment) : Option String :=
  secretVariables.findSome? fun name => (env name).filter (· ≠ "")

/-- What a provider answers, and what it shows at the terminal. -/
structure Reply (ε : Type) where
  result : Except ε Credentials
  shown : String

/-- Asks a provider. -/
def Provider.ask (env : Environment) (terminal : Terminal) : Provider → Reply Refusal
  | .fixed credentials => ⟨.ok credentials, ""⟩
  | .environment username =>
    match secret? env with
    | some secret => ⟨.ok ⟨username, secret⟩, ""⟩
    | none => ⟨.error .noSecret, ""⟩
  | .prompt username =>
    match terminal with
    | none => ⟨.error .noTerminal, ""⟩
    | some line => ⟨(passwordIn line).map fun password => ⟨username, password⟩, "Password: \n"⟩
  | .refusing reason => ⟨.error (.other reason), ""⟩

/-- Asks providers in turn, after those that have refused. -/
def askInTurn (env : Environment) (terminal : Terminal) (refusals : List Refusal) :
    List Provider → Reply (List Refusal)
  | [] => ⟨.error refusals, ""⟩
  | p :: ps =>
    let reply := p.ask env terminal
    match reply.result with
    | .ok credentials => ⟨.ok credentials, reply.shown⟩
    | .error refusal =>
      let later := askInTurn env terminal (refusals ++ [refusal]) ps
      { later with shown := reply.shown ++ later.shown }

/-- The credentials of the first provider that has some. -/
def ask (env : Environment) (terminal : Terminal) (providers : List Provider) :
    Reply (List Refusal) :=
  askInTurn env terminal [] providers

/-- The providers for a user: the environment, then a prompt. -/
def usualProviders (username : String) : List Provider :=
  [.environment username, .prompt username]

end Remote

end BuildQuery
