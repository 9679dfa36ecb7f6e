import BuildQuery.Build.Reader
import BuildQuery.Proofs.RecordSlots

/-!
# BuildQuery — the records of a build

A build is written as records: the build itself, its actions, their parameters and their causes. All of
them are read in one way. Fields are found under their names, and what is made of them depends only on what
is found under each name, so the four kinds of records are described together (`RecordKind`): by their
fields, by what is looked for in these, and by what is made of it.

Main results:

* `RecordKind.gives_label`, `RecordKind.find_eq_none` — every field has one name, and nothing is found in
  it under any other.
* `RecordKind.ofFields_congr` — a record depends on what is found in its fields, and on nothing else.
* `RecordKind.shape_slot` — a record with one document exchanged.
-/

namespace BuildQuery

open Json

-- ---------------------------------------------------------------------------
-- The records of a build
-- ---------------------------------------------------------------------------

/-- What a record may stand for. -/
inductive RecordKind where
  | build
  | action
  | parameter
  | cause

namespace RecordKind

/-- A field of the record. -/
abbrev Field : RecordKind → Type
  | .build => Build.Field
  | .action => Action.Field
  | .parameter => Parameter.Field
  | .cause => Cause.Field

/-- What the record stands for. -/
abbrev Value : RecordKind → Type
  | .build => Build
  | .action => Action
  | .parameter => Parameter
  | .cause => Cause

/-- The fields of the record. -/
def fields : (kind : RecordKind) → Shape.Fields kind.Field
  | .build => Build.fields
  | .action => Action.fields
  | .parameter => Parameter.fields
  | .cause => Cause.fields

/-- What is made of the fields that are found. -/
def ofFields : (kind : RecordKind) → List kind.Field → Except Fault kind.Value
  | .build, found => .ok (Build.ofFields found)
  | .action, found => .ok (Action.ofFields found)
  | .parameter, found => Parameter.ofFields found
  | .cause, found => .ok (Cause.ofFields found)

/-- The shape of the record. -/
def shape : (kind : RecordKind) → Shape kind.Value
  | .build => Build.shape
  | .action => Action.shape
  | .parameter => Parameter.shape
  | .cause => Cause.shape

/-- A way to look for a field: its name, and what is found in a field of this name. -/
structure Finder (φ : Type) where
  name : String
  Found : Type
  find : φ → Option Found

/-- What is looked for in the fields of the record. -/
def finders : (kind : RecordKind) → List (Finder kind.Field)
  | .build => [⟨"id", _, Build.Field.number?⟩, ⟨"description", _, Build.Field.description?⟩,
      ⟨"result", _, Build.Field.outcome?⟩, ⟨"builtOn", _, Build.Field.worker?⟩,
      ⟨"actions", _, Build.Field.actions?⟩, ⟨"timestamp", _, Build.Field.started?⟩]
  | .action => [⟨"_class", _, Action.Field.kind?⟩, ⟨"parameters", _, Action.Field.parameters?⟩,
      ⟨"causes", _, Action.Field.causes?⟩]
  | .parameter => [⟨"name", _, Parameter.Field.name?⟩, ⟨"value", _, Parameter.Field.value?⟩]
  | .cause => [⟨"_class", _, Cause.Field.kind?⟩, ⟨"shortDescription", _, Cause.Field.summary?⟩,
      ⟨"upstreamBuild", _, Cause.Field.triggerBuild?⟩,
      ⟨"upstreamProject", _, Cause.Field.triggerProject?⟩, ⟨"upstreamUrl", _, Cause.Field.triggerUrl?⟩]

/-- The name of a field: the one under which something is found in it. -/
def label (kind : RecordKind) (a : kind.Field) : String :=
  ((kind.finders.find? fun finder => (finder.find a).isSome).map Finder.name).getD ""

/-- All records are read in one way: fields are found, and something is made of them. -/
theorem shape_eq (kind : RecordKind) :
    kind.shape = (Shape.record kind.fields).andThen kind.ofFields := by
  have hMap {α β : Type} (f : α → β) (shape : Shape α) :
      shape.map f = shape.andThen fun a => .ok (f a) := by
    funext levels doc
    rw [Shape.map, Shape.andThen]
    cases shape levels doc <;> rfl
  cases kind with
  | build => exact hMap Build.ofFields _
  | action => exact hMap Action.ofFields _
  | parameter => rfl
  | cause => exact hMap Cause.ofFields _

/-- No record has two fields of one name. -/
theorem nodup_names (kind : RecordKind) : (kind.fields.map Prod.fst).Nodup := by
  cases kind <;> decide

/-- Every value that is read has the name of its field. -/
theorem gives_label (kind : RecordKind) : ∀ f ∈ kind.fields, f.2.Gives fun a => kind.label a = f.1 := by
  cases kind
  -- the shape of each field puts a constructor around what it reads, and the constructor has the name
  all_goals
    repeat refine List.forall_mem_cons.mpr ⟨.of_map _ fun _ => rfl, ?_⟩
    exact List.forall_mem_nil _

/-- Nothing is found in a field of another name. -/
theorem find_eq_none (kind : RecordKind) : ∀ finder ∈ kind.finders, ∀ a, kind.label a ≠ finder.name →
    finder.find a = none := by
  cases kind
  all_goals
    simp only [finders, List.forall_mem_cons, List.not_mem_nil, false_implies, implies_true, and_true]
    and_intros
  all_goals
    -- of the fields only the one with the name can be found
    intro a hOther
    cases a <;> first | rfl | exact absurd rfl hOther

/-- What is made of the fields depends on what is found in them, and on nothing else. -/
theorem ofFields_congr (kind : RecordKind) {found found' : List kind.Field}
    (h : ∀ finder ∈ kind.finders, found.findSome? finder.find = found'.findSome? finder.find) :
    kind.ofFields found = kind.ofFields found' := by
  cases kind
  all_goals
    simp only [finders, List.forall_mem_cons, List.not_mem_nil, false_implies, implies_true, and_true] at h
    simp only [ofFields, Build.ofFields, Action.ofFields, Parameter.ofFields, Cause.ofFields, h]

/-- Nothing is found in what the other fields give. -/
theorem others_none {kind : RecordKind} {finder : Finder kind.Field} (hFinder : finder ∈ kind.finders) :
    ∀ f ∈ kind.fields, f.1 ≠ finder.name → f.2.Gives fun a => finder.find a = none := by
  intro f hf hDiffer levels doc a ha
  refine kind.find_eq_none finder hFinder a ?_
  rw [kind.gives_label f hf ha]
  exact hDiffer

/-- **A record with one document exchanged.** The record is made anew of what the document gives and of
the other fields. What is looked for in the field is found in none before it. -/
theorem shape_slot {kind : RecordKind} {finder : Finder kind.Field} (hFinder : finder ∈ kind.finders)
    {shape : Shape kind.Field} (hField : kind.fields.lookup finder.name = some shape) {put : Doc → Doc}
    (hSlot : Slot kind.fields finder.name put) {levels : Nat} {doc : Doc} {record : kind.Value}
    (h : kind.shape (levels + 1) (put doc) = .ok record) :
    ∃ before a after, (∀ b ∈ before, finder.find b = none) ∧ shape levels doc = .ok a ∧
      kind.ofFields (before ++ a :: after) = .ok record ∧
      ∀ doc', kind.shape (levels + 1) (put doc') =
        shape levels doc' >>= fun a' => kind.ofFields (before ++ a' :: after) := by
  rw [shape_eq] at h
  obtain ⟨found, hFound, hRecord⟩ := bind_eq_ok.mp h
  obtain ⟨before, a, after, rfl, ha, hBefore, hAgain⟩ :=
    record_slot hSlot kind.nodup_names hField hFound
  refine ⟨before, a, after, hBefore _ (others_none hFinder), ha, hRecord, ?_⟩
  intro doc'
  rw [shape_eq, Shape.andThen, hAgain]
  cases shape levels doc' <;> rfl

end RecordKind

end BuildQuery
