import BuildQuery.Proofs.WrittenRecords

/-!
# BuildQuery — the text of a build

A build is written as one line that is read as the same build. Not every build is: an action of
another kind that carries the kind of parameters would be read as parameters, and an outcome that
carries the name of a known one would be read as that one. No document describes such a build
(`Build.Readable`), so the text is faithful for all builds that were read.

Main results:

* `Build.readable_of_shape` — a build that was read is a readable one.
* `Build.Readable.shape_doc` — a readable build is read from its document.
* `Build.ofBytes_json` — the text of a build that was read is one line and is read as that build.
-/

namespace BuildQuery

open Json

-- ---------------------------------------------------------------------------
-- Written values have no fractions
-- ---------------------------------------------------------------------------

/-- An object has no fractions if the members that are present have none. -/
theorem integral_presentMembers {members : List (Option (String × Value))}
    (h : ∀ m ∈ members, ∀ p ∈ m, p.2.Integral) : (presentMembers members).Integral := by
  refine .object ?_
  intro p hp
  obtain ⟨m, hm, hp⟩ := List.mem_filterMap.mp hp
  exact h m hm p hp

/-- A member that is always present has no fractions if its value has none. -/
theorem integral_member {name : String} {value : Value} (h : value.Integral) :
    ∀ p ∈ some (name, value), p.2.Integral := by
  rintro p ⟨⟩
  exact h

/-- A member that may be missing has no fractions if no value of it has any. -/
theorem integral_optionalMember {α : Type} {name : String} {toValue : α → Value} {found : Option α}
    (h : ∀ a, (toValue a).Integral) : ∀ p ∈ optionalMember name toValue found, p.2.Integral := by
  intro p hp
  obtain ⟨a, -, rfl⟩ := Option.map_eq_some_iff.mp hp
  exact h a

/-- The document of a parameter has no fractions. -/
theorem Parameter.integral (p : Parameter) : p.toValue.Integral := by
  refine .object ?_
  simp only [List.forall_mem_cons, List.not_mem_nil, false_implies, implies_true, and_true]
  exact ⟨.text _, .text _⟩

/-- The document of a cause has no fractions: the only number in it is that of a build. -/
theorem Cause.integral (c : Cause) : c.toValue.Integral := by
  refine integral_presentMembers ?_
  simp only [List.forall_mem_cons, List.not_mem_nil, false_implies, implies_true, and_true]
  exact ⟨integral_member (.text _), integral_member (.text _),
    integral_optionalMember fun _ => .int _, integral_optionalMember .text,
    integral_optionalMember .text⟩

/-- The document of an action has no fractions. -/
theorem Action.integral (a : Action) : a.toValue.Integral := by
  have hParameters (ps : List Parameter) : (Value.list (ps.map Parameter.toValue)).Integral :=
    .list (List.forall_mem_map.mpr fun p _ => p.integral)
  have hCauses (cs : List Cause) : (Value.list (cs.map Cause.toValue)).Integral :=
    .list (List.forall_mem_map.mpr fun c _ => c.integral)
  refine integral_presentMembers ?_
  simp only [List.forall_mem_cons, List.not_mem_nil, false_implies, implies_true, and_true]
  exact ⟨integral_optionalMember .text, integral_optionalMember hParameters,
    integral_optionalMember hCauses⟩

/-- The document of a build has no fractions: the only number of its own is its time. -/
theorem Build.integral (b : Build) : b.toValue.Integral := by
  have hDescription : (textOrNull b.description).Integral := by
    cases b.description with
    | none => exact .null
    | some s => exact .text s
  have hOutcome : b.outcome.toValue.Integral := by
    unfold Outcome.toValue
    split
    · exact .null
    · exact .text _
  have hActions : (Value.list (b.actions.map Action.toValue)).Integral :=
    .list (List.forall_mem_map.mpr fun a _ => a.integral)
  refine .object ?_
  simp only [List.forall_mem_cons, List.not_mem_nil, false_implies, implies_true, and_true]
  exact ⟨.text _, hDescription, hOutcome, .text _, hActions, .int _⟩

-- ---------------------------------------------------------------------------
-- Readable builds
-- ---------------------------------------------------------------------------

/-- The outcome is the one with its name. -/
def Outcome.Readable (o : Outcome) : Prop := .ofName o.name = o

/-- An action of another kind does not have the kind of parameters or causes. -/
def Action.Readable (a : Action) : Prop :=
  ∀ kind, a = .other (some kind) → kind ≠ parametersKind ∧ kind ≠ causesKind

/-- The outcome and the actions of the build can be told by what is written of them. -/
structure Build.Readable (b : Build) : Prop where
  outcome : b.outcome.Readable
  actions : ∀ a ∈ b.actions, a.Readable

/-- An outcome that was read can be told by its name. -/
theorem Outcome.readable_ofName (name : String) : (Outcome.ofName name).Readable := by
  have hName : (Outcome.ofName name).name = name := by
    unfold Outcome.ofName
    split <;> rfl
  rw [Outcome.Readable, hName]

/-- An action that was read as one of another kind does not have the kinds of parameters and causes. -/
theorem Action.readable_ofFields (found : List Action.Field) : (Action.ofFields found).Readable := by
  intro kind hKind
  rw [Action.ofFields] at hKind
  split at hKind
  · cases hKind
  · next hParameters =>
    split at hKind
    · cases hKind
    · next hCauses =>
      -- both kinds were ruled out before the action was taken for another one
      have hOther := Action.other.inj hKind
      refine ⟨?_, ?_⟩
      · rintro rfl
        exact hParameters hOther
      · rintro rfl
        exact hCauses hOther

/-- What is found for a field is readable. -/
def Build.Field.Readable : Build.Field → Prop
  | .outcome o => o.Readable
  | .actions as => ∀ a ∈ as, a.Readable
  | _ => True

/-- A build is readable if what was found for its fields is. -/
theorem Build.readable_ofFields {found : List Build.Field} (h : ∀ f ∈ found, f.Readable) :
    (Build.ofFields found).Readable := by
  constructor
  · show ((found.findSome? Field.outcome?).getD .running).Readable
    -- an outcome that is missing is that of a running build
    cases hOutcome : found.findSome? Field.outcome? with
    | none => exact Outcome.readable_ofName ""
    | some o =>
      obtain ⟨f, hf, hField⟩ := List.exists_of_findSome?_eq_some hOutcome
      cases f <;> cases hField
      exact h _ hf
  · show ∀ a ∈ (found.findSome? Field.actions?).getD [], a.Readable
    cases hActions : found.findSome? Field.actions? with
    | none => exact List.forall_mem_nil _
    | some as =>
      obtain ⟨f, hf, hField⟩ := List.exists_of_findSome?_eq_some hActions
      cases f <;> cases hField
      exact h _ hf

/-- **A build that was read is readable.** -/
theorem Build.readable_of_shape : Build.shape.Gives Build.Readable := by
  have hOutcome : Outcome.shape.Gives Outcome.Readable :=
    .of_map _ fun name => Outcome.readable_ofName (name.getD "")
  have hAction : Action.shape.Gives Action.Readable := .of_map _ Action.readable_ofFields
  refine Shape.Gives.map (Shape.Gives.record ?_) fun found => Build.readable_ofFields
  simp only [Build.fields, List.forall_mem_cons, List.not_mem_nil, false_implies, implies_true,
    and_true]
  -- one field after the other; only the outcome and the actions have to be readable
  refine ⟨?_, ?_, ?_, ?_, ?_, ?_⟩
  · exact .of_map _ fun _ => trivial
  · exact .of_map _ fun _ => trivial
  · exact hOutcome.map fun _ h => h
  · exact .of_map _ fun _ => trivial
  · exact hAction.listOf.map fun _ h => h
  · exact .of_map _ fun _ => trivial

-- ---------------------------------------------------------------------------
-- Reading what was written
-- ---------------------------------------------------------------------------

variable {levels : Nat}

/-- A parameter is read from its document. -/
theorem Parameter.shape_doc (p : Parameter) : Parameter.shape (levels + 1) p.toValue.doc = .ok p := by
  have hFollows : Follows levels Parameter.fields
      [some ("name", .text p.name), some ("value", .text p.value)]
      [some (.name p.name), some (.value p.value)] := by
    refine .put (map_ok _ (text_doc levels p.name)) (.put ?_ .nil)
    exact map_ok (fun v => Parameter.Field.value (keptText v)) (any_doc levels p.value)
  have hRecord : Shape.record Parameter.fields (levels + 1) p.toValue.doc =
      .ok [.name p.name, .value p.value] := record_of_follows (by decide) hFollows
  rw [Parameter.shape, Shape.andThen, hRecord]
  rfl

/-- A cause is read from its document, whichever of its fields are there. -/
theorem Cause.shape_doc (c : Cause) : Cause.shape (levels + 1) c.toValue.doc = .ok c := by
  have hFollows : Follows levels Cause.fields
      [some ("_class", .text c.kind), some ("shortDescription", .text c.summary),
        optionalMember "upstreamBuild" (fun n => .number (.int n.toNat)) c.triggerBuild,
        optionalMember "upstreamProject" .text c.triggerProject,
        optionalMember "upstreamUrl" .text c.triggerUrl]
      [some (.kind c.kind), some (.summary c.summary),
        c.triggerBuild.map fun n => .triggerBuild (some n),
        c.triggerProject.map fun s => .triggerProject (some s),
        c.triggerUrl.map fun s => .triggerUrl (some s)] := by
    refine .put (map_ok _ (text_doc levels c.kind)) (.put (map_ok _ (text_doc levels c.summary)) ?_)
    refine .optional (fun n => map_ok _ (optional_ok nofun (uint64_doc levels n))) ?_
    refine .optional (fun s => map_ok _ (optional_ok nofun (text_doc levels s))) ?_
    exact .optional (fun s => map_ok _ (optional_ok nofun (text_doc levels s))) .nil
  have hCause := map_ok Cause.ofFields (record_of_follows (by decide) hFollows)
  refine hCause.trans ?_
  -- what was found is put together again, with or without the three fields that may be missing
  obtain ⟨kind, summary, triggerBuild, triggerProject, triggerUrl⟩ := c
  cases triggerBuild <;> cases triggerProject <;> cases triggerUrl <;> rfl

/-- A readable action is read from its document. -/
theorem Action.shape_doc {a : Action} (h : a.Readable) :
    Action.shape (levels + 3) a.toValue.doc = .ok a := by
  have hParameters (ps : List Parameter) :
      Shape.listOf Parameter.shape (levels + 2) (Value.list (ps.map Parameter.toValue)).doc = .ok ps :=
    listOf_doc fun p _ => p.shape_doc
  have hCauses (cs : List Cause) :
      Shape.listOf Cause.shape (levels + 2) (Value.list (cs.map Cause.toValue)).doc = .ok cs :=
    listOf_doc fun c _ => c.shape_doc
  have hFollows : Follows (levels + 2) Action.fields
      [optionalMember "_class" .text a.kind?,
        optionalMember "parameters" (fun ps => .list (ps.map Parameter.toValue)) a.parameters?,
        optionalMember "causes" (fun cs => .list (cs.map Cause.toValue)) a.causes?]
      [a.kind?.map fun s => .kind (some s), a.parameters?.map fun ps => .parameters (some ps),
        a.causes?.map fun cs => .causes (some cs)] := by
    refine .optional (fun s => map_ok _ (optional_ok nofun (text_doc _ s))) ?_
    refine .optional (fun ps => map_ok _ (optional_ok nofun (hParameters ps))) ?_
    exact .optional (fun cs => map_ok _ (optional_ok nofun (hCauses cs))) .nil
  have hAction := map_ok Action.ofFields (record_of_follows (by decide) hFollows)
  refine hAction.trans (congrArg Except.ok ?_)
  -- parameters and causes carry their own kind, so only an action of another kind has to be readable
  cases a with
  | parameters ps => rfl
  | causes cs => rfl
  | other kind =>
    cases kind with
    | none => rfl
    | some kind =>
      obtain ⟨hNoParameters, hNoCauses⟩ := h kind rfl
      show Action.ofFields [.kind (some kind)] = _
      rw [Action.ofFields]
      show (if some kind = some parametersKind then _ else _) = _
      rw [if_neg (hNoParameters ∘ Option.some.inj)]
      exact if_neg (hNoCauses ∘ Option.some.inj)

/-- A readable outcome is read from its document, which is its name, or null while the build is running. -/
theorem Outcome.shape_doc {o : Outcome} (h : o.Readable) : Outcome.shape levels o.toValue.doc = .ok o := by
  by_cases hRunning : o.isRunning
  · cases o <;> first | rfl | cases hRunning
  · have hText : o.toValue = .text o.name := if_neg hRunning
    have hName : Shape.optional Shape.text levels (Value.text o.name).doc = .ok (some o.name) :=
      optional_ok nofun (text_doc levels o.name)
    rw [hText]
    refine (map_ok _ hName).trans ?_
    exact congrArg Except.ok h

/-- **A readable build is read from its document.** -/
theorem Build.Readable.shape_doc {b : Build} (h : b.Readable) :
    Build.shape (levels + 5) b.toValue.doc = .ok b := by
  have hDescription : Shape.optional Shape.text (levels + 4) (textOrNull b.description).doc =
      .ok b.description := by
    cases b.description with
    | none => rfl
    | some s => exact optional_ok nofun (text_doc _ s)
  have hActions : Shape.listOf Action.shape (levels + 4)
      (Value.list (b.actions.map Action.toValue)).doc = .ok b.actions :=
    listOf_doc fun a ha => Action.shape_doc (h.actions a ha)
  have hFollows : Follows (levels + 4) Build.fields
      [some ("id", .text b.number), some ("description", textOrNull b.description),
        some ("result", b.outcome.toValue), some ("builtOn", .text b.worker),
        some ("actions", .list (b.actions.map Action.toValue)),
        some ("timestamp", .number (.int b.started.toInt))]
      [some (.number b.number), some (.description b.description), some (.outcome b.outcome),
        some (.worker b.worker), some (.actions b.actions), some (.started b.started)] := by
    -- all six fields are always written, in their order
    refine .put (map_ok _ (text_doc _ b.number)) ?_
    refine .put (map_ok _ hDescription) ?_
    refine .put (map_ok _ (Outcome.shape_doc h.outcome)) ?_
    refine .put (map_ok _ (text_doc _ b.worker)) ?_
    refine .put (map_ok _ hActions) ?_
    exact .put (map_ok _ (int64_doc _ b.started)) .nil
  exact map_ok Build.ofFields (record_of_follows (by decide) hFollows)

-- ---------------------------------------------------------------------------
-- The text of a build
-- ---------------------------------------------------------------------------

/-- A readable build is read from its text. -/
theorem Build.Readable.ofBytes_text {b : Build} (h : b.Readable) :
    Build.ofBytes (Text.bytes b.json) = .ok b := by
  -- a build has five levels: the parameters are in the lists of the actions
  have hShape : Build.shape (122 + 5) b.toValue.doc = .ok b := h.shape_doc
  rw [Build.ofBytes, Build.json, decode_render b.integral]
  exact hShape

/-- The readable builds are the ones that some document describes. -/
theorem Build.readable_iff {b : Build} : b.Readable ↔ ∃ bytes, Build.ofBytes bytes = .ok b := by
  constructor
  · exact fun h => ⟨_, h.ofBytes_text⟩
  · rintro ⟨bytes, h⟩
    exact Build.readable_of_shape (decode_ok h)

/-- **The text of a build that was read is read as that build**, whose text is the same again, and it
is a single line. -/
theorem Build.ofBytes_json {bytes : List UInt8} {b : Build} (h : Build.ofBytes bytes = .ok b) :
    Build.ofBytes (Text.bytes b.json) = .ok b ∧
      (Build.ofBytes (Text.bytes b.json)).map Build.json = .ok b.json ∧
      ∀ c ∈ b.json.toList, 0x20 ≤ c.toNat := by
  have hReadable : b.Readable := Build.readable_iff.mpr ⟨bytes, h⟩
  refine ⟨hReadable.ofBytes_text, ?_, ?_⟩
  · rw [hReadable.ofBytes_text]
    rfl
  · rw [Build.json, Value.render, String.toList_ofList]
    exact b.integral.printed

/-- An outcome of the server's own, a description of two lines, and a parameter that is no text. -/
theorem Build.ofBytes_json_flaky :
    let body := Text.bytes ("\x7b\"id\":\"7\",\"queue\":[1.5],\"description\":\"a\\u000a\\\"b\"," ++
      "\"result\":\"FLAKY\",\"actions\":[\x7b\x7d,\x7b\"_class\":\"hudson.model.ParametersAction\"," ++
      "\"parameters\":[\x7b\"name\":\"deep\",\"value\":[1, true]\x7d]\x7d],\"timestamp\":-1\x7d")
    let b : Build := ⟨"7", some "a\n\"b", .other "FLAKY", "",
      [.other none, .parameters [⟨"deep", "[1,true]"⟩]], -1⟩
    Build.ofBytes body = .ok b ∧ Build.ofBytes (Text.bytes b.json) = .ok b ∧
      (Build.ofBytes (Text.bytes b.json)).map Build.json = .ok b.json ∧
      ∀ c ∈ b.json.toList, 0x20 ≤ c.toNat := by
  intro body b
  have hRead : Build.ofBytes body = .ok b := by decide +kernel
  exact ⟨hRead, Build.ofBytes_json hRead⟩

end BuildQuery
