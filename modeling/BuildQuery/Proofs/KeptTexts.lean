import BuildQuery.Proofs.CanonicalValues
import BuildQuery.Proofs.ForeignActions
import BuildQuery.Proofs.SpacedLexemes

/-!
# BuildQuery — the texts of the values of parameters

A parameter keeps a text of its value. Whatever value stands in the document of a build in the place of
this value (`ValuePlace`), the build is read with the text of that value. The text of a value that is
neither null nor a string is the text of its canonical form, so it is the same for all values that mean
the same, and for no others. It is itself a document, the one of the canonical form.

Main results:

* `Parameter.shape_slot`, `Action.shape_value`, `ValuePlace.exists_build` — a parameter, an action and a
  build with another value in the place.
* `Build.keptTexts_faithful` — the texts of two values, and the text in the place of its value.
-/

namespace BuildQuery

open Json

-- ---------------------------------------------------------------------------
-- The value of a parameter
-- ---------------------------------------------------------------------------

/-- The levels that may be entered in the value of a parameter. The parameter, its action, their lists and
the build are open around it. -/
def Parameter.valueLevels : Nat := levelLimit - 5

/-- A parameter with the document of its value exchanged. -/
theorem Parameter.shape_slot {put : Doc → Doc} {levels : Nat} {doc : Doc} {p : Parameter}
    (hSlot : Slot fields "value" put) (h : shape (levels + 1) (put doc) = .ok p) :
    ∀ {doc' v}, Shape.any levels doc' = .ok v →
      shape (levels + 1) (put doc') = .ok { p with value := keptText v } := by
  intro doc' v hAny
  -- the value is one of the fields that are found, and no other field is a value
  have hFinder : ⟨"value", _, Field.value?⟩ ∈ RecordKind.finders .parameter := by
    simp [RecordKind.finders]
  obtain ⟨before, a, after, hNone, ha, hRecord, hAgain⟩ := RecordKind.shape_slot hFinder rfl hSlot h
  obtain ⟨old, -, rfl⟩ := exists_of_map_ok ha
  have hFields (text : String) : ofFields (before ++ .value text :: after) =
      ((before ++ after).findSome? Field.name?).elim (.error .mismatch) fun name => .ok ⟨name, text⟩ := by
    rw [ofFields, findSome?_slot hNone rfl, findSome?_others rfl]
    cases (before ++ after).findSome? Field.name? <;> rfl
  have hOld := (hFields _).symm.trans hRecord
  refine (hAgain doc').trans ?_
  rw [map_ok _ hAny]
  refine (hFields (keptText v)).trans ?_
  cases hName : (before ++ after).findSome? Field.name? with
  | none =>
    rw [hName] at hOld
    cases hOld
  | some name =>
    rw [hName] at hOld
    cases hOld
    rfl

/-- An action with the document of its parameters exchanged. -/
theorem Action.shape_slot {put : Doc → Doc} {levels : Nat} {doc : Doc} {ps : List Parameter}
    (hSlot : Slot fields "parameters" put) (h : shape (levels + 1) (put doc) = .ok (.parameters ps)) :
    (∃ found, Shape.optional (Shape.listOf Parameter.shape) levels doc = .ok found) ∧
      ∀ {doc' ps'}, Shape.optional (Shape.listOf Parameter.shape) levels doc' = .ok (some ps') →
        shape (levels + 1) (put doc') = .ok (.parameters ps') := by
  have hFinder : ⟨"parameters", _, Field.parameters?⟩ ∈ RecordKind.finders .action := by
    simp [RecordKind.finders]
  obtain ⟨before, a, after, hNone, ha, hRecord, hAgain⟩ := RecordKind.shape_slot hFinder rfl hSlot h
  obtain ⟨old, hOld, rfl⟩ := exists_of_map_ok ha
  have hFields (found : Option (List Parameter)) : ofFields (before ++ .parameters found :: after) =
      let kind := ((before ++ after).findSome? Field.kind?).join
      if kind = some parametersKind then .parameters (found.getD [])
      else if kind = some causesKind then
        .causes (((before ++ after).findSome? Field.causes?).join.getD [])
      else .other kind := by
    rw [ofFields, findSome?_slot hNone rfl, findSome?_others rfl, findSome?_others rfl]
    rfl
  have hOldKind := (hFields old).symm.trans (Except.ok.inj hRecord)
  -- the action was read as one of parameters, so its kind says so, and the kind is not exchanged
  have hKind : ((before ++ after).findSome? Field.kind?).join = some parametersKind := by
    refine Decidable.byContradiction fun hOther => ?_
    dsimp only at hOldKind
    rw [if_neg hOther] at hOldKind
    split at hOldKind <;> cases hOldKind
  refine ⟨⟨old, hOld⟩, ?_⟩
  intro doc' ps' hParameters
  refine (hAgain doc').trans ?_
  rw [map_ok _ hParameters]
  exact congrArg Except.ok ((hFields (some ps')).trans (if_pos hKind))

/-- An action with the document of the value of one of its parameters exchanged. -/
theorem Action.shape_value {parameters value : Doc → Doc} {levels : Nat} {before after : List Doc}
    {doc : Doc} {ps : List Parameter} (hParameters : Slot fields "parameters" parameters)
    (hValue : Slot Parameter.fields "value" value)
    (h : shape (levels + 3) (parameters (.list (before ++ value doc :: after) none)) =
      .ok (.parameters ps)) :
    ∃ qs name qs', qs.length = before.length ∧
      ∀ {doc v}, Shape.any levels doc = .ok v →
        shape (levels + 3) (parameters (.list (before ++ value doc :: after) none)) =
          .ok (.parameters (qs ++ ⟨name, keptText v⟩ :: qs')) := by
  obtain ⟨⟨found, hFound⟩, hAgain⟩ := Action.shape_slot hParameters h
  have hSome : ((Shape.listOf Parameter.shape).map some) (levels + 2)
      (.list (before ++ value doc :: after) none) = .ok found := hFound
  obtain ⟨qs, hList, -⟩ := exists_of_map_ok hSome
  obtain ⟨qs, q, qs', -, hLength, hq, hAgain'⟩ := listOf_slot hList
  refine ⟨qs, q.name, qs', hLength, ?_⟩
  intro doc v hAny
  refine hAgain (optional_ok nofun ?_)
  rw [hAgain', Parameter.shape_slot hValue hq hAny]
  rfl

-- ---------------------------------------------------------------------------
-- The place of a value
-- ---------------------------------------------------------------------------

/-- A parameter of an action, by their places. -/
def Build.parameterAt? (b : Build) (i j : Nat) : Option Parameter :=
  (b.actions[i]?).bind fun a => a.parameters?.bind fun ps => ps[j]?

/-- The place of the value of a parameter in the document of a build, in the parameter with this place
among the parameters of the action with this place. -/
inductive ValueSlot : Nat → Nat → (Doc → Doc) → Prop
  | intro {actions parameters value : Doc → Doc} (before after before' after' : List Doc)
      (hActions : Slot Build.fields "actions" actions)
      (hParameters : Slot Action.fields "parameters" parameters)
      (hValue : Slot Parameter.fields "value" value) :
      ValueSlot before.length before'.length fun doc =>
        actions (.list (before ++
          parameters (.list (before' ++ value doc :: after') none) :: after) none)

/-- The place of the value of a parameter in the documents of builds: with some value there, the document
is read as a build that has this parameter. -/
structure ValuePlace (i j : Nat) (put : Doc → Doc) : Prop where
  slot : ValueSlot i j put
  read : ∃ doc body b p, (put doc).Written body ∧ Build.ofBytes body = .ok b ∧
    b.parameterAt? i j = some p

/-- **Any value may stand at the place.** The build is then read with the text of this value in the
parameter, and everything else is the same. -/
theorem ValuePlace.exists_build {i j : Nat} {put : Doc → Doc} (h : ValuePlace i j put) :
    ∃ build : String → Build,
      (∀ text, ∃ name, (build text).parameterAt? i j = some ⟨name, text⟩) ∧
      ∀ {doc v}, Shape.any Parameter.valueLevels doc = .ok v → ∀ {body}, (put doc).Written body →
        Build.ofBytes body = .ok (build (keptText v)) := by
  obtain ⟨⟨before, after, before', after', hActions, hParameters, hValue⟩, doc, body, b, p, hWritten, hBody,
    hPlace⟩ := h
  rw [Build.ofBytes, decode_of_read (written_iff.mp hWritten).1] at hBody
  obtain ⟨hList, hBuild⟩ := Build.shape_slot hActions hBody
  obtain ⟨as, a, as', hSplit, hLength, ha, hAction⟩ := listOf_slot hList
  -- only an action of parameters has a parameter in the build, although others may have some written
  obtain ⟨ps, rfl⟩ : ∃ ps, a = .parameters ps := by
    rw [Build.parameterAt?, hSplit, ← hLength, List.getElem?_append_right (Nat.le_refl _),
      Nat.sub_self] at hPlace
    cases a with
    | parameters ps => exact ⟨ps, rfl⟩
    | _ => cases hPlace
  obtain ⟨qs, name, qs', hLength', hAgain⟩ := Action.shape_value hParameters hValue ha
  refine ⟨fun text => { b with actions := as ++ .parameters (qs ++ ⟨name, text⟩ :: qs') :: as' }, ?_, ?_⟩
  · intro text
    refine ⟨name, ?_⟩
    rw [← hLength, ← hLength', Build.parameterAt?]
    simp [Action.parameters?]
  · intro doc' v hAny body' hWritten'
    rw [Build.ofBytes, decode_of_read (written_iff.mp hWritten').1]
    have hNew : Action.shape (Action.memberLevels + 1) _ = .ok (.parameters _) := hAgain hAny
    refine (hBuild _).trans ?_
    rw [hAction, hNew]
    rfl

-- ---------------------------------------------------------------------------
-- The text of a value
-- ---------------------------------------------------------------------------

/-- The document of a value that is kept as a text of its canonical form. Its numbers are integers. -/
structure KeptValue (doc : Doc) (v : Value) : Prop where
  read : Shape.any Parameter.valueLevels doc = .ok v
  integral : v.Integral
  notNull : v ≠ .null
  notText : ∀ s, v ≠ .text s

namespace KeptValue

variable {doc : Doc} {v : Value}

/-- What was read fits the levels that are left for a value. -/
theorem fits (h : KeptValue doc v) : v.Fits Parameter.valueLevels :=
  h.integral.fits h.read

/-- A value that is no text is kept as the text of its canonical form. -/
theorem keptText_eq (h : KeptValue doc v) : keptText v = v.canonical.render := by
  cases v with
  | null => exact absurd rfl h.notNull
  | text s => exact absurd rfl (h.notText s)
  | _ => rfl

/-- The document of the canonical form is the one that the kept text is read as. -/
theorem canonical (h : KeptValue doc v) : KeptValue v.canonical.doc v.canonical where
  read := h.fits.canonical.any_doc
  integral := h.fits.canonical.integral
  notNull := by
    intro hNull
    cases v <;> cases hNull
    exact h.notNull rfl
  notText := by
    intro s hText
    cases v <;> cases hText
    exact h.notText s rfl

/-- The canonical form is kept as the same text, because it is its own canonical form. -/
theorem keptText_canonical (h : KeptValue doc v) : keptText v.canonical = keptText v := by
  rw [h.canonical.keptText_eq, h.fits.canonical_canonical, h.keptText_eq]

/-- The kept text is a document. -/
theorem written_keptText (h : KeptValue doc v) : v.canonical.doc.Written (Text.bytes (keptText v)) := by
  rw [h.keptText_eq]
  have hIntegral : v.canonical.Integral := h.fits.canonical.integral
  exact written_iff.mpr ⟨read_render hIntegral, hIntegral.whole.skipFault?⟩

end KeptValue

/-- **The texts of values.** Two values that are neither null nor strings, wherever they stand, are kept as
equal texts exactly when they mean the same. The text is a document, and with this document in its place
the same build is read. -/
theorem Build.keptTexts_faithful {i₁ j₁ i₂ j₂ : Nat} {put₁ put₂ : Doc → Doc} {doc₁ doc₂ : Doc}
    {v₁ v₂ : Value} {body₁ body₂ : List UInt8} (hPlace₁ : ValuePlace i₁ j₁ put₁)
    (hPlace₂ : ValuePlace i₂ j₂ put₂) (hValue₁ : KeptValue doc₁ v₁) (hValue₂ : KeptValue doc₂ v₂)
    (hBody₁ : (put₁ doc₁).Written body₁) (hBody₂ : (put₂ doc₂).Written body₂) :
    ∃ b₁ p₁ b₂ p₂, ofBytes body₁ = .ok b₁ ∧ b₁.parameterAt? i₁ j₁ = some p₁ ∧
      ofBytes body₂ = .ok b₂ ∧ b₂.parameterAt? i₂ j₂ = some p₂ ∧
      (p₁.value = p₂.value ↔ v₁.meaning = v₂.meaning) ∧
      ∃ doc, doc.Written (Text.bytes p₁.value) ∧
        ∀ body, (put₁ doc).Written body → ofBytes body = .ok b₁ := by
  obtain ⟨build₁, hAt₁, hRead₁⟩ := hPlace₁.exists_build
  obtain ⟨build₂, hAt₂, hRead₂⟩ := hPlace₂.exists_build
  obtain ⟨name₁, hAt₁⟩ := hAt₁ (keptText v₁)
  obtain ⟨name₂, hAt₂⟩ := hAt₂ (keptText v₂)
  refine ⟨_, _, _, _, hRead₁ hValue₁.read hBody₁, hAt₁, hRead₂ hValue₂.read hBody₂, hAt₂, ?_, ?_⟩
  · show keptText v₁ = keptText v₂ ↔ _
    rw [hValue₁.keptText_eq, hValue₂.keptText_eq]
    exact hValue₁.fits.render_canonical_iff hValue₂.fits
  · refine ⟨v₁.canonical.doc, hValue₁.written_keptText, ?_⟩
    intro body hBody
    rw [hRead₁ hValue₁.canonical.read hBody, hValue₁.keptText_canonical]

/-- An object that names a member twice, and one with blanks, with its members in another order and with a
name that is escaped. -/
theorem Build.keptTexts_faithful_objects :
    let body (value : String) := Text.bytes ("\x7b\"actions\":[\x7b" ++
      "\"_class\":\"hudson.model.ParametersAction\"," ++
      "\"parameters\":[\x7b\"name\":\"p\",\"value\":" ++ value ++ "\x7d]\x7d]\x7d")
    let body₁ := body "\x7b\"b\":1,\"a\":[true],\"b\":2\x7d"
    let body₂ := body "\x7b \"a\": [ true ],\n\"\\u0062\": 2 \x7d"
    ∃ b₁ p₁ b₂ p₂, ofBytes body₁ = .ok b₁ ∧ b₁.parameterAt? 0 0 = some p₁ ∧
      ofBytes body₂ = .ok b₂ ∧ b₂.parameterAt? 0 0 = some p₂ ∧ p₁.value = p₂.value := by
  intro body body₁ body₂
  let put (doc : Doc) := Doc.object [(written "actions", .list [.object [
    (written "_class", .text (written parametersKind)),
    (written "parameters", .list [.object [
      (written "name", .text (written "p")), (written "value", doc)] none] none)] none] none)] none
  let a := (written "a", Doc.list [.bool true] none)
  let doc₁ := Doc.object [(written "b", .number ⟨false, [1], [], none⟩), a,
    (written "b", .number ⟨false, [2], [], none⟩)] none
  let doc₂ := Doc.object [a, ([.unit 0x62], .number ⟨false, [2], [], none⟩)] none
  let v₁ := Value.object [("b", .number (.int 1)), ("a", .list [.bool true]), ("b", .number (.int 2))]
  let v₂ := Value.object [("a", .list [.bool true]), ("b", .number (.int 2))]
  have hBody₁ : (put doc₁).Written body₁ := by
    have hLexemes : lex body₁ = (put doc₁).lexemes := by decide +kernel
    exact written_iff.mpr ⟨read_of_complete hLexemes rfl, rfl⟩
  have hBody₂ : (put doc₂).Written body₂ := by
    have hLexemes : lex body₂ = (put doc₂).lexemes := by decide +kernel
    exact written_iff.mpr ⟨read_of_complete hLexemes rfl, rfl⟩
  have hPlace : ValuePlace 0 0 put := by
    have hSlot : ValueSlot 0 0 put := .intro [] [] [] [] (.member [] [] (text?_written _))
      (.member [(written "_class", .text (written parametersKind))] [] (text?_written _))
      (.member [(written "name", .text (written "p"))] [] (text?_written _))
    let b : Build := ⟨"", none, .running, "", [.parameters [⟨"p", "\x7b\"a\":[true],\"b\":2\x7d"⟩]], 0⟩
    have hRead : ofBytes body₁ = .ok b := by decide +kernel
    exact ⟨hSlot, doc₁, body₁, b, _, hBody₁, hRead, rfl⟩
  have hList : (Value.list [.bool true]).Integral := .list (List.forall_mem_singleton.mpr (.bool true))
  have hValue₁ : KeptValue doc₁ v₁ := by
    refine ⟨rfl, .object ?_, nofun, nofun⟩
    simp only [List.forall_mem_cons, List.not_mem_nil, false_implies, implies_true, and_true]
    exact ⟨.int 1, hList, .int 2⟩
  have hValue₂ : KeptValue doc₂ v₂ := by
    refine ⟨rfl, .object ?_, nofun, nofun⟩
    simp only [List.forall_mem_cons, List.not_mem_nil, false_implies, implies_true, and_true]
    exact ⟨hList, .int 2⟩
  have hSame : v₁.meaning = v₂.meaning := by
    refine congrArg Meaning.object (funext fun name => ?_)
    simp only [memberMeaning?]
    by_cases hName : name = "b"
    · rw [if_pos hName]
      rfl
    · rw [if_neg hName, if_neg hName, Option.or_none]
  obtain ⟨b₁, p₁, b₂, p₂, hb₁, hp₁, hb₂, hp₂, hTexts, -⟩ :=
    keptTexts_faithful hPlace hPlace hValue₁ hValue₂ hBody₁ hBody₂
  exact ⟨b₁, p₁, b₂, p₂, hb₁, hp₁, hb₂, hp₂, hTexts.mpr hSame⟩

end BuildQuery
