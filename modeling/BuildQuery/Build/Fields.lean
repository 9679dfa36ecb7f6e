import BuildQuery.Build.Basic

/-!
# BuildQuery — fields of a build

A filter sees a build as texts with names: its attributes under their fixed names, and its
parameters under all other names. What a build does not have is the empty text.
-/

namespace BuildQuery.Build

/-- The names of the attributes. -/
def attributeNames : List String :=
  ["number", "id", "worker", "status", "result", "description"]

/-- The text of a field. -/
def field (build : Build) (name : String) : String :=
  match name with
  | "number" | "id" => build.number
  | "worker" => build.worker
  | "status" | "result" => build.outcome.name
  | "description" => build.description.getD ""
  | name => (build.parameter? name).getD ""

end BuildQuery.Build
