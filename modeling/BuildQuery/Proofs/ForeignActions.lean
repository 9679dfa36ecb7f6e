import BuildQuery.Proofs.BuildRecords
import BuildQuery.Proofs.BuildText
import BuildQuery.Proofs.SplicedItems
import Mathlib.Data.List.Nodup

/-!
# BuildQuery — actions of unknown kinds

An action is read together with its members for parameters and causes, whatever its kind is. So an action
of an unknown kind is kept as such only when these members are absent or have the shapes that they have in
the known kinds. Where one of them has another shape, the build cannot be read at all.

Main results:

* `Build.ofBytes_spliced` — a build with one more action is read like this action.
* `Action.shape_foreign` — which actions of unknown kinds are read.
* `Build.ofBytes_foreign_action` — both together.
-/

namespace BuildQuery

open Json

-- ---------------------------------------------------------------------------
-- One more action
-- ---------------------------------------------------------------------------

/-- The levels that may be entered in a member of an action. The action, its list and the build are open
around it. -/
def Action.memberLevels : Nat := levelLimit - 3

/-- No number is read as an action. -/
theorem Action.isNumber_of_shape {levels : Nat} {doc : Doc} {a : Action}
    (h : Action.shape levels doc = .ok a) : doc.isNumber = false := by
  cases doc with
  | number n => cases levels <;> cases h
  | _ => rfl

namespace Build

/-- The name of the field with the actions. -/
def actionsName : String := "actions"

/-- A build with the document of its actions exchanged. -/
theorem shape_slot {put : Doc → Doc} {doc : Doc} {b : Build} (hSlot : Slot fields actionsName put)
    (h : shape (Action.memberLevels + 3) (put doc) = .ok b) :
    Shape.listOf Action.shape (Action.memberLevels + 2) doc = .ok b.actions ∧
      ∀ doc', shape (Action.memberLevels + 3) (put doc') =
        (Shape.listOf Action.shape (Action.memberLevels + 2) doc').map
          fun actions => { b with actions } := by
  -- the actions are one of the fields that are found, and no other field has actions
  have hFinder : ⟨actionsName, _, Field.actions?⟩ ∈ RecordKind.finders .build := by
    simp [RecordKind.finders, actionsName]
  obtain ⟨before, a, after, hNone, ha, hRecord, hAgain⟩ := RecordKind.shape_slot hFinder rfl hSlot h
  obtain ⟨actions, hActions, rfl⟩ := exists_of_map_ok ha
  obtain rfl : ofFields (before ++ .actions actions :: after) = b := Except.ok.inj hRecord
  have hFirst (actions : List Action) :
      (before ++ .actions actions :: after).findSome? Field.actions? = some actions :=
    findSome?_slot hNone rfl
  have hBuild (actions' : List Action) : ofFields (before ++ .actions actions' :: after) =
      { ofFields (before ++ .actions actions :: after) with actions := actions' } := by
    rw [ofFields, ofFields, hFirst]
    simp only [List.findSome?_append]
    rfl
  refine ⟨?_, ?_⟩
  · rw [ofFields, hFirst]
    exact hActions
  · intro doc'
    refine (hAgain doc').trans ?_
    rw [Shape.map]
    cases Shape.listOf Action.shape (Action.memberLevels + 2) doc' with
    | error e => rfl
    | ok actions' => exact congrArg Except.ok (hBuild actions')

/-- **A build with one more action** is read like this action: it is in the list of the actions, or its
fault is the fault of the build. -/
theorem ofBytes_spliced {bytes body body' : List UInt8} {k : Nat} {doc : Doc} {b : Build}
    (hBody : ofBytes body = .ok b) (hSpliced : Spliced fields actionsName bytes k body body')
    (hAction : read bytes = ⟨doc, false⟩) (hSound : doc.skipFault? = none)
    (hEnd : doc.isNumber = false) :
    ∃ before after, b.actions = before ++ after ∧ before.length = k ∧
      ofBytes body' = (Action.shape (Action.memberLevels + 1) doc).map
        fun a => { b with actions := before ++ a :: after } := by
  obtain ⟨all, hRead, hBuild⟩ := exists_read_of_decode hBody
  have hAllSound : all.skipFault? = none := by
    obtain ⟨found, hFound, -⟩ := exists_of_map_ok hBuild
    exact skipFault?_of_record hFound
  have hItems : ∀ put items, Slot fields actionsName put → all = put (.list items none) →
      ∀ item ∈ items, item.isNumber = false := by
    rintro put items hSlot rfl item hItem
    obtain ⟨actions, hActions, -⟩ := bind_eq_ok.mp (shape_slot hSlot hBuild).1
    obtain ⟨a, ha⟩ := exists_ok_of_mapM hActions item hItem
    exact Action.isNumber_of_shape ha
  obtain ⟨put, before, after, hSlot, rfl, hLength, hNew⟩ :=
    hSpliced.read hAction hSound hEnd hRead hAllSound hItems
  obtain ⟨hActions, hAgain⟩ := shape_slot hSlot hBuild
  have hList : (before ++ after).mapM (Action.shape (Action.memberLevels + 1)) = .ok b.actions := by
    obtain ⟨actions, hActions, hStop⟩ := bind_eq_ok.mp hActions
    cases hStop
    exact hActions
  -- the list is read item by item, so the new item is read where it stands and the others as before
  obtain ⟨first, later, hSplit, hFirst, hInsert⟩ := mapM_insert hList
  refine ⟨first, later, hSplit, hFirst.trans hLength, ?_⟩
  rw [ofBytes, decode_of_read hNew]
  refine (hAgain _).trans ?_
  show ((before ++ doc :: after).mapM (Action.shape (Action.memberLevels + 1)) >>= _).map _ = _
  rw [hInsert]
  cases Action.shape (Action.memberLevels + 1) doc <;> rfl

end Build

-- ---------------------------------------------------------------------------
-- Actions of unknown kinds
-- ---------------------------------------------------------------------------

namespace Action

/-- Members of an action whose kind is not known: they name none, or one that is neither the kind of
parameters nor the kind of causes. -/
inductive ForeignKind (members : List (Spelling × Doc)) : Option String → Prop
  | missing (hNone : ∀ m ∈ members, m.1.text? ≠ some "_class") : ForeignKind members none
  | named {name value : Spelling} {kind : String} (hMember : (name, .text value) ∈ members)
      (hName : name.text? = some "_class") (hKind : value.text? = some kind)
      (hParameters : kind ≠ parametersKind) (hCauses : kind ≠ causesKind) :
      ForeignKind members (some kind)

/-- Members of an action of an unknown kind, which have different names. -/
structure Foreign (members : List (Spelling × Doc)) (kind : Option String) : Prop where
  texts : ∀ m ∈ members, m.1.text? ≠ none
  distinct : (members.map fun m => m.1.text?).Nodup
  kind : ForeignKind members kind

/-- What stands under the names of parameters and of causes is null or a list of such. -/
structure Harmless (members : List (Spelling × Doc)) : Prop where
  parameters : ∀ m ∈ members, m.1.text? = some "parameters" →
    ∃ found, Shape.optional (Shape.listOf Parameter.shape) memberLevels m.2 = .ok found
  causes : ∀ m ∈ members, m.1.text? = some "causes" →
    ∃ found, Shape.optional (Shape.listOf Cause.shape) memberLevels m.2 = .ok found

variable {members : List (Spelling × Doc)} {kind : Option String} {found : List Field}

/-- The field of an unknown kind is read. -/
theorem ForeignKind.read (h : ForeignKind members kind)
    (hDistinct : (members.map fun m => m.1.text?).Nodup) :
    ∀ m ∈ members, m.1.text? = some "_class" →
      Shape.optional Shape.text memberLevels m.2 = .ok kind := by
  intro m hm hClass
  cases h with
  | missing hNone => exact absurd hClass (hNone m hm)
  | @named name value kind hMember hName hKind _ _ =>
    have hSame : m = (name, .text value) :=
      List.inj_on_of_nodup_map hDistinct hm hMember (hClass.trans hName.symm)
    rw [hSame]
    show (Shape.text memberLevels (.text value) >>= fun a => pure (some a)) = _
    rw [Shape.text, hKind]
    rfl

/-- Only the members for parameters and causes can be in the way. -/
theorem Foreign.members_ok_iff (h : Foreign members kind) (hSound : ∀ m ∈ members, m.2.skip = .ok ()) :
    (∃ found, Shape.members fields memberLevels [] members = .ok found) ↔ Harmless members := by
  rw [Json.members_ok_iff h.texts h.distinct hSound fun _ _ _ _ => List.not_mem_nil]
  constructor
  · intro hRead
    refine ⟨?_, ?_⟩
    · intro m hm hName
      obtain ⟨a, ha⟩ := hRead m hm _ hName _ rfl
      obtain ⟨ps, hps, -⟩ := exists_of_map_ok ha
      exact ⟨ps, hps⟩
    · intro m hm hName
      obtain ⟨a, ha⟩ := hRead m hm _ hName _ rfl
      obtain ⟨cs, hcs, -⟩ := exists_of_map_ok ha
      exact ⟨cs, hcs⟩
  · intro hHarmless m hm name hName shape hField
    obtain ⟨front, back, hFields, -⟩ := List.lookup_eq_some_iff.mp hField
    have hMem : (name, shape) ∈ fields := by
      rw [hFields]
      exact List.mem_append_right _ List.mem_cons_self
    simp only [fields, List.mem_cons, Prod.mk.injEq, List.not_mem_nil, or_false] at hMem
    -- the class is a text because the kind is foreign; the other two fields are what is asked for
    rcases hMem with ⟨rfl, rfl⟩ | ⟨rfl, rfl⟩ | ⟨rfl, rfl⟩
    · exact ⟨_, map_ok _ (h.kind.read h.distinct m hm hName)⟩
    · obtain ⟨ps, hps⟩ := hHarmless.parameters m hm hName
      exact ⟨_, map_ok _ hps⟩
    · obtain ⟨cs, hcs⟩ := hHarmless.causes m hm hName
      exact ⟨_, map_ok _ hcs⟩

/-- The kind of an action is found where it is named. -/
theorem Foreign.kind_found (h : Foreign members kind)
    (hFound : Shape.members fields memberLevels [] members = .ok found) :
    (found.findSome? Field.kind?).join = kind := by
  have hFinder : ⟨"_class", _, Field.kind?⟩ ∈ RecordKind.finders .action := by
    simp [RecordKind.finders]
  have hOthers := RecordKind.others_none hFinder
  have hRead := h.kind.read h.distinct
  -- without a class no kind is found; with one it is found where the class stands, as no other field is a
  -- kind
  cases h.kind with
  | missing hNone =>
    have hNoKind := members_others hOthers hNone hFound
    rw [List.findSome?_eq_none_iff.mpr hNoKind]
    rfl
  | @named name value kind hMember hName _ _ _ =>
    have hKind := map_ok Field.kind (hRead _ hMember hName)
    obtain ⟨early, late, rfl⟩ := List.append_of_mem hMember
    obtain ⟨-, hNone, before, a, after, rfl, ha, hBefore, -⟩ := members_slot hName rfl hFound
    obtain rfl := Except.ok.inj (hKind.symm.trans ha)
    rw [findSome?_slot (members_others hOthers hNone hBefore) rfl]
    rfl

/-- A kind that is not known is neither of the two known ones. -/
theorem ForeignKind.unknown (h : ForeignKind members kind) :
    kind ≠ some parametersKind ∧ kind ≠ some causesKind := by
  cases h with
  | missing _ => exact ⟨nofun, nofun⟩
  | named _ _ _ hParameters hCauses =>
    exact ⟨hParameters ∘ Option.some.inj, hCauses ∘ Option.some.inj⟩

/-- **An action of an unknown kind** is read as such when its members are harmless, and is not read
otherwise. -/
theorem shape_foreign (h : Foreign members kind) (hSound : ∀ m ∈ members, m.2.skip = .ok ()) :
    (Harmless members → Action.shape (memberLevels + 1) (.object members none) = .ok (.other kind)) ∧
      (¬ Harmless members →
        ∃ fault, Action.shape (memberLevels + 1) (.object members none) = .error fault) := by
  have hShape : Action.shape (memberLevels + 1) (.object members none) =
      (Shape.members fields memberLevels [] members).map ofFields := by
    show (Shape.members fields memberLevels [] members >>= _).map _ = _
    cases Shape.members fields memberLevels [] members <;> rfl
  rw [← h.members_ok_iff hSound, hShape]
  -- the members are read first, all of them, and only then is the kind looked at
  cases hFound : Shape.members fields memberLevels [] members with
  | error fault => exact ⟨nofun, fun _ => ⟨fault, rfl⟩⟩
  | ok found =>
    refine ⟨fun _ => ?_, fun hNot => absurd ⟨found, rfl⟩ hNot⟩
    obtain ⟨hParameters, hCauses⟩ := h.kind.unknown
    show Except.ok (ofFields found) = _
    rw [ofFields, h.kind_found hFound]
    simp only [if_neg hParameters, if_neg hCauses]

end Action

namespace Build

/-- **A build with an action of an unknown kind.** It is read with this action at its place when what
stands in the action under the names of parameters and of causes is null or a list of such; otherwise
the build is not read. -/
theorem ofBytes_foreign_action {bytes body body' : List UInt8} {k : Nat}
    {members : List (Spelling × Doc)} {kind : Option String} {b : Build}
    (hBody : ofBytes body = .ok b) (hSpliced : Spliced fields actionsName bytes k body body')
    (hAction : read bytes = ⟨.object members none, false⟩) (hForeign : Action.Foreign members kind) :
    (Action.Harmless members → ∃ before after, b.actions = before ++ after ∧ before.length = k ∧
        ofBytes body' = .ok { b with actions := before ++ .other kind :: after }) ∧
      (¬ Action.Harmless members → ∃ fault, ofBytes body' = .error fault) := by
  have hSound : ∀ m ∈ members, m.2.skip = .ok () := by
    cases (read_whole_iff.mp ⟨hAction, rfl⟩).1 with
    | object hWhole =>
      intro m hm
      rw [Doc.skip, (hWhole m hm).skipFault?]
  obtain ⟨hRead, hNotRead⟩ := Action.shape_foreign hForeign hSound
  obtain ⟨before, after, hActions, hLength, hNew⟩ := ofBytes_spliced hBody hSpliced hAction rfl rfl
  refine ⟨?_, ?_⟩
  · intro hHarmless
    refine ⟨before, after, hActions, hLength, ?_⟩
    rw [hNew, hRead hHarmless]
    rfl
  · intro hNot
    obtain ⟨fault, hFault⟩ := hNotRead hNot
    refine ⟨fault, ?_⟩
    rw [hNew, hFault]
    rfl

/-- An action of another kind, with parameters of its own, between two others. -/
theorem ofBytes_foreign_action_between :
    let pre := Text.bytes "\x7b\"id\":\"7\",\"actions\":[\x7b\x7d "
    let post := Text.bytes ",\x7b\"_class\":\"b\"\x7d]\x7d"
    let bytes := Text.bytes (" \x7b\"parameters\":[\x7b\"name\":\"p\",\"extra\":[1]\x7d]," ++
      "\"_class\":\"c\",\"more\":\x7b\"causes\":7\x7d\x7d")
    let b : Build := ⟨"7", none, .running, "", [.other none, .other (some "b")], 0⟩
    let members : List (Spelling × Doc) := [
      (written "parameters", .list [.object [(written "name", .text (written "p")),
        (written "extra", .list [.number ⟨false, [1], [], none⟩] none)] none] none),
      (written "_class", .text (written "c")),
      (written "more", .object [(written "causes", .number ⟨false, [7], [], none⟩)] none)]
    ofBytes (pre ++ post) = .ok b ∧
      Spliced fields actionsName bytes 1 (pre ++ post) (pre ++ (commaByte :: (bytes ++ post))) ∧
      read bytes = ⟨.object members none, false⟩ ∧ Action.Foreign members (some "c") ∧
      Action.Harmless members ∧
      ∃ before after, b.actions = before ++ after ∧ before.length = 1 ∧
        ofBytes (pre ++ (commaByte :: (bytes ++ post))) =
          .ok { b with actions := before ++ .other (some "c") :: after } := by
  intro pre post bytes b members
  have hBody : ofBytes (pre ++ post) = .ok b := by decide +kernel
  have hLex : lex pre = [.openObject, .text (written "id"), .colon, .text (written "7"), .comma,
      .text (written "actions"), .colon, .openList, .openObject, .closeObject] := by decide +kernel
  have hPre : progress pre = .inside (.afterItem [.object [] none])
      [.object [(written "id", .text (written "7"))] (written "actions")] := by
    rw [progress, hLex]
    rfl
  have hOpen : OpenAt fields actionsName
      (.object [(written "id", .text (written "7"))] (written "actions")) := .member _ (by decide +kernel)
  have hSpliced : Spliced fields actionsName bytes 1 (pre ++ post)
      (pre ++ (commaByte :: (bytes ++ post))) := .behind hOpen hPre (by decide +kernel)
  have hAction : read bytes = ⟨.object members none, false⟩ := by
    have hLexemes : lex bytes = (Doc.object members none).lexemes := by decide +kernel
    exact read_of_complete hLexemes rfl
  have hForeign : Action.Foreign members (some "c") := by
    have hClass : (written "_class", .text (written "c")) ∈ members := by simp [members]
    refine ⟨by decide +kernel, by decide +kernel, ?_⟩
    exact .named hClass (by decide +kernel) (by decide +kernel) (by decide) (by decide)
  have hHarmless : Action.Harmless members := by
    refine ⟨?_, ?_⟩
    · refine List.forall_mem_cons.mpr ⟨fun _ => ⟨some [⟨"p", ""⟩], by decide +kernel⟩, ?_⟩
      have hNone : ∀ m ∈ members.tail, m.1.text? ≠ some "parameters" := by decide +kernel
      exact fun m hm hName => absurd hName (hNone m hm)
    · have hNone : ∀ m ∈ members, m.1.text? ≠ some "causes" := by decide +kernel
      exact fun m hm hName => absurd hName (hNone m hm)
  exact ⟨hBody, hSpliced, hAction, hForeign, hHarmless,
    (ofBytes_foreign_action hBody hSpliced hAction hForeign).1 hHarmless⟩

/-- Not every action of an unknown kind is read: a number in the place of its parameters is a fault of the
build. -/
theorem unread_foreign_action :
    ¬ ∀ (bytes body body' : List UInt8) (k : Nat) (members : List (Spelling × Doc))
        (kind : Option String) (b : Build), ofBytes body = .ok b →
        Spliced fields actionsName bytes k body body' → read bytes = ⟨.object members none, false⟩ →
        Action.Foreign members kind →
        ∃ before after, b.actions = before ++ after ∧ before.length = k ∧
          ofBytes body' = .ok { b with actions := before ++ .other kind :: after } := by
  intro hAll
  let pre := Text.bytes "\x7b\"actions\":["
  let post := Text.bytes "]\x7d"
  let bytes := Text.bytes "\x7b\"_class\":\"x\",\"parameters\":1\x7d"
  let members : List (Spelling × Doc) := [(written "_class", .text (written "x")),
    (written "parameters", .number ⟨false, [1], [], none⟩)]
  have hBody : ofBytes (pre ++ post) = .ok ⟨"", none, .running, "", [], 0⟩ := by decide +kernel
  have hLex : lex pre = [.openObject, .text (written "actions"), .colon, .openList] := by decide +kernel
  have hPre : progress pre = .inside .firstItem [.object [] (written "actions")] := by
    rw [progress, hLex]
    rfl
  have hLexemes : lex bytes = (Doc.object members none).lexemes := by decide +kernel
  have hAction : read bytes = ⟨.object members none, false⟩ := read_of_complete hLexemes rfl
  have hClass : (written "_class", .text (written "x")) ∈ members := List.mem_cons_self
  have hForeign : Action.Foreign members (some "x") :=
    ⟨by decide +kernel, by decide +kernel,
      .named hClass (by decide +kernel) (by decide +kernel) (by decide) (by decide)⟩
  have hOpen : OpenAt fields actionsName (.object [] (written "actions")) :=
    .member [] (by decide +kernel)
  have hSpliced : Spliced fields actionsName bytes 0 (pre ++ post) (pre ++ (bytes ++ post)) :=
    .only hOpen hPre (by decide +kernel)
  obtain ⟨before, after, -, -, hRead⟩ := hAll _ _ _ _ _ _ _ hBody hSpliced hAction hForeign
  have hFault : ofBytes (pre ++ (bytes ++ post)) = .error .mismatch := by decide +kernel
  exact nomatch hFault.symm.trans hRead

end Build

end BuildQuery
