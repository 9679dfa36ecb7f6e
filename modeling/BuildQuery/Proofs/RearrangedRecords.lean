import BuildQuery.Proofs.BuildRecords
import BuildQuery.Proofs.ReorderedMembers
import BuildQuery.Proofs.SpacedLexemes
import Mathlib.Logic.Relation

/-!
# BuildQuery — records with other members

A build is written as records in lists of records. Each of these records may have its members in any
order, and members of other names between them (`RecordKind.Rearranged`). Neither changes what is read.

Main results:

* `RecordKind.keeps_of_rearranged` — a record is read as before when it is changed in this way.
* `Build.ofBytes_rearranged` — so is a build, after any number of changes and with any blanks.
-/

namespace BuildQuery

open Json

namespace RecordKind

/-- The order in which fields are found does not matter. -/
theorem ofFields_perm (kind : RecordKind) {found found' : List kind.Field}
    (hPerm : found.Perm found') (hNodup : (found.map kind.label).Nodup) :
    kind.ofFields found = kind.ofFields found' := by
  refine kind.ofFields_congr fun finder hFinder => ?_
  exact findSome?_perm hPerm hNodup finder.name (kind.find_eq_none finder hFinder)

/-- The lists of records in a record. -/
inductive Part : RecordKind → String → RecordKind → Prop
  | action : Part .build "actions" .action
  | parameter : Part .action "parameters" .parameter
  | cause : Part .action "causes" .cause

/-- One record of a list is exchanged. -/
theorem Part.keeps {kind part : RecordKind} {name : String} {doc doc' : Doc} (h : Part kind name part)
    (hItem : part.shape.Keeps doc doc') :
    ∃ shape, kind.fields.lookup name = some shape ∧
      ∀ before after, shape.Keeps (.list (before ++ doc :: after) none)
        (.list (before ++ doc' :: after) none) := by
  cases h with
  | action => exact ⟨_, rfl, fun _ _ => .map (.listOf hItem)⟩
  | parameter => exact ⟨_, rfl, fun _ _ => .map (.optional (.listOf hItem))⟩
  | cause => exact ⟨_, rfl, fun _ _ => .map (.optional (.listOf hItem))⟩

-- ---------------------------------------------------------------------------
-- Records with other members
-- ---------------------------------------------------------------------------

/-- One change of the members of a record, or of a record in it. -/
inductive Rearranged : RecordKind → Doc → Doc → Prop
  /-- The members stand in another order. -/
  | permuted {kind : RecordKind} {members members' : List (Spelling × Doc)}
      (hPerm : members.Perm members') :
      Rearranged kind (.object members none) (.object members' none)
  /-- There is one more member, under a name that no field has. -/
  | added {kind : RecordKind} (before after : List (Spelling × Doc)) {spelling : Spelling}
      {name : String} {value : Doc} (hName : spelling.text? = some name)
      (hNew : name ∉ kind.fields.map Prod.fst) (hValue : value.Whole) :
      Rearranged kind (.object (before ++ after) none)
        (.object (before ++ (spelling, value) :: after) none)
  /-- A record in one of the lists is changed. -/
  | inside {kind part : RecordKind} {name : String} {put : Doc → Doc} (before after : List Doc)
      {doc doc' : Doc} (hPart : Part kind name part) (hSlot : Slot kind.fields name put)
      (hItem : Rearranged part doc doc') :
      Rearranged kind (put (.list (before ++ doc :: after) none))
        (put (.list (before ++ doc' :: after) none))

/-- A record may have its members in any order. -/
theorem keeps_of_perm (kind : RecordKind) {members members' : List (Spelling × Doc)}
    (hPerm : members.Perm members') :
    kind.shape.Keeps (.object members none) (.object members' none) := by
  rw [shape_eq]
  exact keeps_perm kind.gives_label kind.ofFields_perm hPerm

/-- **A record with other members** is read as before. -/
theorem keeps_of_rearranged {kind : RecordKind} {doc doc' : Doc} (h : Rearranged kind doc doc') :
    kind.shape.Keeps doc doc' := by
  -- on the change; one inside of a record goes down to the record that is changed
  induction h with
  | permuted hPerm => exact keeps_of_perm _ hPerm
  | @added kind before after spelling name value hName hNew hValue =>
    have hField : kind.fields.lookup name = none := by
      rw [List.lookup_eq_none_iff]
      intro f hf
      exact bne_iff_ne.mpr fun hSame => hNew (hSame ▸ List.mem_map_of_mem hf)
    -- the member is put before all others and then moved to its place
    have hFirst : kind.shape.Keeps (.object (before ++ after) none)
        (.object ((spelling, value) :: (before ++ after)) none) := by
      rw [shape_eq]
      exact .andThen (keeps_unknown hName hField hValue)
    exact fun _ _ ha => keeps_of_perm kind List.perm_middle.symm (hFirst ha)
  | @inside kind part name put before after doc doc' hPart hSlot _ ih =>
    obtain ⟨shape, hField, hList⟩ := hPart.keeps ih
    rw [shape_eq]
    exact .andThen (.slot hSlot kind.nodup_names hField (hList before after))

/-- Any number of changes. -/
theorem keeps_of_changes {kind : RecordKind} {doc doc' : Doc}
    (h : Relation.ReflTransGen (Rearranged kind) doc doc') : kind.shape.Keeps doc doc' := by
  induction h with
  | refl => exact fun _ _ ha => ha
  | tail _ hChange ih => exact fun _ _ ha => keeps_of_rearranged hChange (ih ha)

end RecordKind

namespace Build

/-- **A build does not depend on the order of members, on blanks and on unknown members.** What was read
as a build is a document, and in whatever bytes it is written after any changes of its records, it is read
as the same build. -/
theorem ofBytes_rearranged {body : List UInt8} {b : Build} (hBody : ofBytes body = .ok b) :
    ∃ doc, doc.Written body ∧ ∀ doc' body',
      Relation.ReflTransGen (RecordKind.Rearranged .build) doc doc' → doc'.Written body' →
      ofBytes body' = .ok b := by
  obtain ⟨doc, hRead, hShape⟩ := exists_read_of_decode hBody
  have hSound : doc.skipFault? = none := by
    obtain ⟨found, hFound, -⟩ := exists_of_map_ok hShape
    exact skipFault?_of_record hFound
  refine ⟨doc, written_iff.mpr ⟨hRead, hSound⟩, ?_⟩
  intro doc' body' hChanges hWritten
  have hShape' : shape levelLimit doc' = .ok b := RecordKind.keeps_of_changes hChanges hShape
  rw [ofBytes, decode_of_read (written_iff.mp hWritten).1]
  exact hShape'

/-- The members of a build, an action and a parameter in another order, with blanks and with two unknown
members of one name, one of them a number that no value could be. -/
theorem ofBytes_rearranged_parameter :
    let body := Text.bytes ("\x7b\"id\":\"7\",\"actions\":[\x7b" ++
      "\"_class\":\"hudson.model.ParametersAction\"," ++
      "\"parameters\":[\x7b\"name\":\"p\",\"value\":true\x7d]\x7d]\x7d")
    let body' := Text.bytes ("\x7b \"actions\":[\x7b\"x\":1e999," ++
      "\"parameters\":[\x7b\"value\":true,\n\"name\":\"p\"\x7d],\"x\":[[]]," ++
      "\"_class\":\"hudson.model.ParametersAction\"\x7d], \"id\":\"7\"\x7d ")
    let b : Build := ⟨"7", none, .running, "", [.parameters [⟨"p", "true"⟩]], 0⟩
    ofBytes body = .ok b ∧ ofBytes body' = .ok b := by
  intro body body' b
  let id := (written "id", Doc.text (written "7"))
  let kind := (written "_class", Doc.text (written parametersKind))
  let name := (written "name", Doc.text (written "p"))
  let value := (written "value", Doc.bool true)
  let huge := (written "x", Doc.number ⟨false, [1], [], some 999⟩)
  let deep := (written "x", Doc.list [.list [] none] none)
  let parameters (members : List (Spelling × Doc)) :=
    (written "parameters", Doc.list [.object members none] none)
  let inActions (action : Doc) := Doc.object [id, (written "actions", .list [action] none)] none
  let doc := inActions (.object [kind, parameters [name, value]] none)
  let members' := [huge, parameters [value, name], deep, kind]
  let doc' := Doc.object [(written "actions", .list [.object members' none] none), id] none
  have hBody : ofBytes body = .ok b := by decide +kernel
  have hRead : read body = ⟨doc, false⟩ := by
    have hLexemes : lex body = doc.lexemes := by decide +kernel
    exact read_of_complete hLexemes rfl
  have hRead' : read body' = ⟨doc', false⟩ := by
    have hLexemes : lex body' = doc'.lexemes := by decide +kernel
    exact read_of_complete hLexemes rfl
  let moved := parameters [value, name]
  have hParameter : RecordKind.Rearranged .action (.object [kind, parameters [name, value]] none)
      (.object [kind, moved] none) := by
    have hSlot : Slot (RecordKind.fields .action) "parameters"
        fun doc => .object [kind, (written "parameters", doc)] none :=
      .member [kind] [] (by decide +kernel)
    exact .inside [] [] .parameter hSlot (.permuted (.swap _ _ _))
  have hKind : RecordKind.Rearranged .action (.object [kind, moved] none) (.object [moved, kind] none) :=
    .permuted (.swap _ _ _)
  have hHuge : RecordKind.Rearranged .action (.object [moved, kind] none)
      (.object [huge, moved, kind] none) :=
    .added [] [moved, kind] (text?_written "x") (by decide) (.number _)
  have hDeep : RecordKind.Rearranged .action (.object [huge, moved, kind] none)
      (.object members' none) := by
    refine .added [huge, moved] [kind] (text?_written "x") (by decide) ?_
    exact .list (List.forall_mem_singleton.mpr (.list (List.forall_mem_nil _)))
  have hAction : Relation.ReflTransGen (RecordKind.Rearranged .action)
      (.object [kind, parameters [name, value]] none) (.object members' none) :=
    .head hParameter (.head hKind (.head hHuge (.single hDeep)))
  have hSlot : Slot (RecordKind.fields .build) "actions"
      fun doc => .object [id, (written "actions", doc)] none := .member [id] [] (by decide +kernel)
  have hChanges : Relation.ReflTransGen (RecordKind.Rearranged .build) doc doc' := by
    refine .tail (hAction.lift inActions ?_) (.permuted (.swap _ _ _))
    exact fun _ _ hChange => .inside [] [] .action hSlot hChange
  obtain ⟨found, hFound, hAll⟩ := ofBytes_rearranged hBody
  obtain rfl : found = doc := congrArg Reading.doc ((written_iff.mp hFound).1.symm.trans hRead)
  exact ⟨hBody, hAll doc' body' hChanges (written_iff.mpr ⟨hRead', rfl⟩)⟩

end Build

end BuildQuery
