import BuildQuery.Build.Reader

/-!
# BuildQuery — writing builds

A build is written as a document on one line. What reading a build does not keep is not written, so
that the document of a build is read as the same build.
-/

namespace BuildQuery

open Json

/-- The members that are there. -/
def presentMembers (members : List (Option (String × Value))) : Value :=
  .object (members.filterMap id)

/-- A member that may be left out. -/
def optionalMember {α : Type} (name : String) (value : α → Value) (found : Option α) :
    Option (String × Value) :=
  found.map fun a => (name, value a)

/-- A text, or null. -/
def textOrNull : Option String → Value
  | some s => .text s
  | none => .null

/-- The value of a parameter. -/
def Parameter.toValue (p : Parameter) : Value :=
  .object [("name", .text p.name), ("value", .text p.value)]

/-- The value of a cause. -/
def Cause.toValue (c : Cause) : Value :=
  presentMembers [
    some ("_class", .text c.kind),
    some ("shortDescription", .text c.summary),
    optionalMember "upstreamBuild" (fun n => .number (.int n.toNat)) c.triggerBuild,
    optionalMember "upstreamProject" .text c.triggerProject,
    optionalMember "upstreamUrl" .text c.triggerUrl]

/-- The value of an action. -/
def Action.toValue (a : Action) : Value :=
  presentMembers [
    optionalMember "_class" .text a.kind?,
    optionalMember "parameters" (fun ps => .list (ps.map Parameter.toValue)) a.parameters?,
    optionalMember "causes" (fun cs => .list (cs.map Cause.toValue)) a.causes?]

/-- The value of an outcome. -/
def Outcome.toValue (o : Outcome) : Value :=
  if o.isRunning then .null else .text o.name

/-- The value of a build. -/
def Build.toValue (b : Build) : Value :=
  .object [
    ("id", .text b.number),
    ("description", textOrNull b.description),
    ("result", b.outcome.toValue),
    ("builtOn", .text b.worker),
    ("actions", .list (b.actions.map Action.toValue)),
    ("timestamp", .number (.int b.started.toInt))]

/-- A build as a document on one line. -/
def Build.json (b : Build) : String := b.toValue.render

end BuildQuery
