import BuildQuery.Build.Basic
import BuildQuery.Json.Value

/-!
# BuildQuery — reading builds

`Build.ofBytes` gives the build that a document describes, `Listing.ofBytes` the addresses of the builds
of a job. Each record lists its fields once, in the order of its list form.
-/

namespace BuildQuery

open Json

-- ---------------------------------------------------------------------------
-- Parameters
-- ---------------------------------------------------------------------------

/-- The text that is kept of the value of a parameter: a string is its own text, null is empty, and
any other value is kept as the text of its canonical form. -/
def keptText : Value → String
  | .null => ""
  | .text s => s
  | value => value.canonical.render

namespace Parameter

/-- A field of a parameter. -/
inductive Field where
  | name (name : String)
  | value (text : String)

/-- The name of the parameter, if the field holds it. -/
def Field.name? : Field → Option String
  | .name found => some found
  | _ => none

/-- The text of the value, if the field holds it. -/
def Field.value? : Field → Option String
  | .value found => some found
  | _ => none

/-- The fields of a parameter. -/
def fields : Shape.Fields Field :=
  [("name", Shape.text.map .name), ("value", Shape.any.map fun v => .value (keptText v))]

/-- A parameter needs a name. -/
def ofFields (found : List Field) : Except Fault Parameter :=
  match found.findSome? Field.name? with
  | some name => .ok ⟨name, (found.findSome? Field.value?).getD ""⟩
  | none => .error .mismatch

/-- A parameter. -/
def shape : Shape Parameter := (Shape.record fields).andThen ofFields

end Parameter

-- ---------------------------------------------------------------------------
-- Causes
-- ---------------------------------------------------------------------------

namespace Cause

/-- A field of a cause. -/
inductive Field where
  | kind (kind : String)
  | summary (summary : String)
  | triggerBuild (number : Option UInt64)
  | triggerProject (project : Option String)
  | triggerUrl (url : Option String)

/-- The kind of the cause, if the field holds it. -/
def Field.kind? : Field → Option String
  | .kind found => some found
  | _ => none

/-- The summary, if the field holds it. -/
def Field.summary? : Field → Option String
  | .summary found => some found
  | _ => none

/-- The number of the build behind the cause, or its null, if the field holds it. -/
def Field.triggerBuild? : Field → Option (Option UInt64)
  | .triggerBuild found => some found
  | _ => none

/-- The project behind the cause, or its null, if the field holds it. -/
def Field.triggerProject? : Field → Option (Option String)
  | .triggerProject found => some found
  | _ => none

/-- The address of the build behind the cause, or its null, if the field holds it. -/
def Field.triggerUrl? : Field → Option (Option String)
  | .triggerUrl found => some found
  | _ => none

/-- The fields of a cause. -/
def fields : Shape.Fields Field := [
  ("_class", Shape.text.map .kind),
  ("shortDescription", Shape.text.map .summary),
  ("upstreamBuild", (Shape.optional Shape.uint64).map .triggerBuild),
  ("upstreamProject", (Shape.optional Shape.text).map .triggerProject),
  ("upstreamUrl", (Shape.optional Shape.text).map .triggerUrl)]

/-- Every field of a cause may be missing. -/
def ofFields (found : List Field) : Cause where
  kind := (found.findSome? Field.kind?).getD ""
  summary := (found.findSome? Field.summary?).getD ""
  triggerBuild := (found.findSome? Field.triggerBuild?).join
  triggerProject := (found.findSome? Field.triggerProject?).join
  triggerUrl := (found.findSome? Field.triggerUrl?).join

/-- A cause. -/
def shape : Shape Cause := (Shape.record fields).map ofFields

end Cause

-- ---------------------------------------------------------------------------
-- Actions
-- ---------------------------------------------------------------------------

namespace Action

/-- A field of an action. -/
inductive Field where
  | kind (kind : Option String)
  | parameters (parameters : Option (List Parameter))
  | causes (causes : Option (List Cause))

/-- The kind of the action, or its null, if the field holds it. -/
def Field.kind? : Field → Option (Option String)
  | .kind found => some found
  | _ => none

/-- The parameters, or their null, if the field holds them. -/
def Field.parameters? : Field → Option (Option (List Parameter))
  | .parameters found => some found
  | _ => none

/-- The causes, or their null, if the field holds them. -/
def Field.causes? : Field → Option (Option (List Cause))
  | .causes found => some found
  | _ => none

/-- The fields of an action. -/
def fields : Shape.Fields Field := [
  ("_class", (Shape.optional Shape.text).map .kind),
  ("parameters", (Shape.optional (Shape.listOf Parameter.shape)).map .parameters),
  ("causes", (Shape.optional (Shape.listOf Cause.shape)).map .causes)]

/-- The kind of an action decides which of its fields count. -/
def ofFields (found : List Field) : Action :=
  let kind := (found.findSome? Field.kind?).join
  if kind = some parametersKind then .parameters ((found.findSome? Field.parameters?).join.getD [])
  else if kind = some causesKind then .causes ((found.findSome? Field.causes?).join.getD [])
  else .other kind

/-- An action. -/
def shape : Shape Action := (Shape.record fields).map ofFields

end Action

-- ---------------------------------------------------------------------------
-- Builds
-- ---------------------------------------------------------------------------

/-- The outcome of a build is its name, or null while the build runs. -/
def Outcome.shape : Shape Outcome :=
  (Shape.optional Shape.text).map fun name => .ofName (name.getD "")

namespace Build

/-- A field of a build. -/
inductive Field where
  | number (number : String)
  | description (description : Option String)
  | outcome (outcome : Outcome)
  | worker (worker : String)
  | actions (actions : List Action)
  | started (millis : Int64)

/-- The number of the build, if the field holds it. -/
def Field.number? : Field → Option String
  | .number found => some found
  | _ => none

/-- The description, or its null, if the field holds it. -/
def Field.description? : Field → Option (Option String)
  | .description found => some found
  | _ => none

/-- The outcome, if the field holds it. -/
def Field.outcome? : Field → Option Outcome
  | .outcome found => some found
  | _ => none

/-- The worker, if the field holds it. -/
def Field.worker? : Field → Option String
  | .worker found => some found
  | _ => none

/-- The actions, if the field holds them. -/
def Field.actions? : Field → Option (List Action)
  | .actions found => some found
  | _ => none

/-- The start of the build, if the field holds it. -/
def Field.started? : Field → Option Int64
  | .started found => some found
  | _ => none

/-- The fields of a build. -/
def fields : Shape.Fields Field := [
  ("id", Shape.text.map .number),
  ("description", (Shape.optional Shape.text).map .description),
  ("result", Outcome.shape.map .outcome),
  ("builtOn", Shape.text.map .worker),
  ("actions", (Shape.listOf Action.shape).map .actions),
  ("timestamp", Shape.int64.map .started)]

/-- Every field of a build may be missing. -/
def ofFields (found : List Field) : Build where
  number := (found.findSome? Field.number?).getD ""
  description := (found.findSome? Field.description?).join
  outcome := (found.findSome? Field.outcome?).getD .running
  worker := (found.findSome? Field.worker?).getD ""
  actions := (found.findSome? Field.actions?).getD []
  started := (found.findSome? Field.started?).getD 0

/-- A build. -/
def shape : Shape Build := (Shape.record fields).map ofFields

/-- The build that the bytes describe. -/
def ofBytes (bytes : List UInt8) : Except Fault Build := decode shape bytes

end Build

-- ---------------------------------------------------------------------------
-- Builds of a job
-- ---------------------------------------------------------------------------

namespace Listing

/-- A field of an entry in the list of builds. -/
inductive Field where
  | number (number : Option UInt64)
  | url (url : String)

/-- The address of the build, if the field holds it. -/
def Field.url? : Field → Option String
  | .url found => some found
  | _ => none

/-- The fields of an entry. -/
def entryFields : Shape.Fields Field :=
  [("number", (Shape.optional Shape.uint64).map .number), ("url", Shape.text.map .url)]

/-- An entry needs an address. -/
def ofEntryFields (found : List Field) : Except Fault String :=
  match found.findSome? Field.url? with
  | some url => .ok url
  | none => .error .mismatch

/-- The address of a build. -/
def entryShape : Shape String := (Shape.record entryFields).andThen ofEntryFields

/-- The one field of a job that counts. -/
def jobFields : Shape.Fields (List String) := [("builds", Shape.listOf entryShape)]

/-- The addresses of the builds of a job, in the order of the server. -/
def shape : Shape (List String) := (Shape.record jobFields).map fun found => found.head?.getD []

/-- The addresses of the builds that the bytes list. -/
def ofBytes (bytes : List UInt8) : Except Fault (List String) := decode shape bytes

end Listing

end BuildQuery
