/-!
# BuildQuery — builds

A build of a job has a number, an outcome, the worker it ran on, and a list of actions: what the
server has recorded about it. Two kinds of actions are looked into, the parameters of the build and
the causes that started it.
-/

namespace BuildQuery

/-- The outcome of a build. -/
inductive Outcome where
  /-- The build has not ended. -/
  | running
  | success
  | failure
  | aborted
  | unstable
  | notBuilt
  /-- Any other outcome, by its name. -/
  | other (name : String)
deriving DecidableEq

/-- The name of an outcome; a running build has none. -/
def Outcome.name : Outcome → String
  | .running => ""
  | .success => "SUCCESS"
  | .failure => "FAILURE"
  | .aborted => "ABORTED"
  | .unstable => "UNSTABLE"
  | .notBuilt => "NOT_BUILT"
  | .other name => name

/-- The outcome with a name. -/
def Outcome.ofName (name : String) : Outcome :=
  match name with
  | "" => .running
  | "SUCCESS" => .success
  | "FAILURE" => .failure
  | "ABORTED" => .aborted
  | "UNSTABLE" => .unstable
  | "NOT_BUILT" => .notBuilt
  | name => .other name

/-- The outcome of a build that has not ended. -/
def Outcome.isRunning : Outcome → Bool
  | .running => true
  | _ => false

/-- A parameter of a build. -/
structure Parameter where
  name : String
  value : String
deriving DecidableEq

/-- Why a build was started. -/
structure Cause where
  kind : String
  summary : String
  triggerBuild : Option UInt64
  triggerProject : Option String
  triggerUrl : Option String
deriving DecidableEq

/-- Something that is recorded about a build. -/
inductive Action where
  /-- The parameters that the build was given. -/
  | parameters (parameters : List Parameter)
  /-- The causes that started the build. -/
  | causes (causes : List Cause)
  /-- An action of another kind. -/
  | other (kind : Option String)
deriving DecidableEq

/-- A build. -/
structure Build where
  number : String
  description : Option String
  outcome : Outcome
  worker : String
  actions : List Action
  /-- When the build started, in milliseconds since 1970. -/
  started : Int64
deriving DecidableEq

/-- The kind of the actions that hold parameters. -/
def parametersKind : String := "hudson.model.ParametersAction"

/-- The kind of the actions that hold causes. -/
def causesKind : String := "hudson.model.CauseAction"

/-- The kind of a cause that is another build. -/
def triggerKind : String := "hudson.model.Cause$UpstreamCause"

/-- The kind of an action. -/
def Action.kind? : Action → Option String
  | .parameters _ => some parametersKind
  | .causes _ => some causesKind
  | .other kind => kind

/-- The parameters of an action that holds parameters. -/
def Action.parameters? : Action → Option (List Parameter)
  | .parameters ps => some ps
  | _ => none

/-- The causes of an action that holds causes. -/
def Action.causes? : Action → Option (List Cause)
  | .causes cs => some cs
  | _ => none

/-- The build that triggered another one. -/
structure Trigger where
  project : String
  build : UInt64
  url : Option String
deriving DecidableEq

/-- The build behind a cause, if the cause names a project and a build. -/
def Cause.trigger? (cause : Cause) : Option Trigger :=
  if cause.kind = triggerKind then do
    return ⟨← cause.triggerProject, ← cause.triggerBuild, cause.triggerUrl⟩
  else none

namespace Build

/-- All causes of a build, in order. -/
def causes (build : Build) : List Cause :=
  (build.actions.filterMap Action.causes?).flatten

/-- All parameters of a build, in order. -/
def parameters (build : Build) : List Parameter :=
  (build.actions.filterMap Action.parameters?).flatten

/-- The value of the first of some parameters that has the name. -/
def firstValue? (name : String) (parameters : List Parameter) : Option String :=
  (parameters.find? fun p => p.name == name).map Parameter.value

/-- The value of the parameter with a name: the first action that has such a parameter decides. -/
def parameter? (build : Build) (name : String) : Option String :=
  (build.actions.filterMap Action.parameters?).findSome? (firstValue? name)

end Build

end BuildQuery
