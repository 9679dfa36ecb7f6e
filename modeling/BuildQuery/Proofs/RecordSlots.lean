import BuildQuery.Proofs.WrittenRecords

/-!
# BuildQuery — one field of a record

A record that is read gives the values of its fields one after the other, and each of them depends on
its own document only. So one document can be exchanged for another: the field is read anew and the other
fields stay. In an object the place of a field is a member of its name (`Slot.member`), in a list it is
the place of the field itself (`Slot.item`).

Main results:

* `record_slot` — a record with one document exchanged.
* `mapM_insert`, `mapM_slot` — a list of values with one more, and with one document exchanged.
* `members_ok_iff` — members with different names are read when all known ones are.
-/

namespace BuildQuery.Json

variable {α β φ : Type} {fields : Shape.Fields φ} {levels : Nat} {seen : List String} {found : List φ}
  {name : String} {shape : Shape φ}

-- ---------------------------------------------------------------------------
-- One member
-- ---------------------------------------------------------------------------

/-- A member of a known name is read by the shape of its field. -/
theorem members_known {spelling : Spelling} {doc : Doc} {rest : List (Spelling × Doc)}
    (hName : spelling.text? = some name) (hField : fields.lookup name = some shape)
    (hNew : name ∉ seen) :
    Shape.members fields levels seen ((spelling, doc) :: rest) = (do
      let value ← shape levels doc
      return value :: (← Shape.members fields levels (name :: seen) rest)) := by
  rw [Shape.members, hName]
  simp only [hField]
  exact if_neg hNew

/-- A member of another name is skipped. -/
theorem members_unknown {spelling : Spelling} {doc : Doc} {rest : List (Spelling × Doc)}
    (hName : spelling.text? = some name) (hField : fields.lookup name = none)
    (hSkip : doc.skip = .ok ()) :
    Shape.members fields levels seen ((spelling, doc) :: rest) =
      Shape.members fields levels seen rest := by
  rw [Shape.members, hName]
  simp only [hField, hSkip]
  rfl

/-- The members around one that is read. None before it has its name. -/
theorem members_slot {early late : List (Spelling × Doc)} {spelling : Spelling} {doc : Doc}
    (hName : spelling.text? = some name) (hField : fields.lookup name = some shape)
    (h : Shape.members fields levels seen (early ++ (spelling, doc) :: late) = .ok found) :
    name ∉ seen ∧ (∀ m ∈ early, m.1.text? ≠ some name) ∧
      ∃ before a after, found = before ++ a :: after ∧ shape levels doc = .ok a ∧
        Shape.members fields levels seen early = .ok before ∧
        ∀ doc', Shape.members fields levels seen (early ++ (spelling, doc') :: late) =
          (shape levels doc').map fun a' => before ++ a' :: after := by
  -- on the members before the one in question; each was skipped, or read for a field of its own
  induction early generalizing seen found with
  | nil =>
    obtain ⟨name', hName', hRead⟩ := members_cons_ok h
    obtain rfl : name = name' := Option.some.inj (hName.symm.trans hName')
    obtain ⟨hNone, -⟩ | ⟨shape', a, later, hField', hNew, ha, hLater, rfl⟩ := hRead
    · exact nomatch hField.symm.trans hNone
    · obtain rfl : shape = shape' := Option.some.inj (hField.symm.trans hField')
      refine ⟨hNew, List.forall_mem_nil _, [], a, later, rfl, ha, rfl, ?_⟩
      intro doc'
      rw [List.nil_append, members_known hName hField hNew, hLater]
      rfl
  | cons m early ih =>
    obtain ⟨name', hName', hRead⟩ := members_cons_ok h
    obtain ⟨hNone, hSkip, hRest⟩ | ⟨shape', a', later, hField', hNew', ha', hRest, rfl⟩ := hRead
    · obtain ⟨hNew, hOther, before, a, after, rfl, ha, hBefore, hAgain⟩ := ih hRest
      have hDiffer : m.1.text? ≠ some name := by
        rw [hName']
        rintro ⟨⟩
        exact nomatch hField.symm.trans hNone
      refine ⟨hNew, List.forall_mem_cons.mpr ⟨hDiffer, hOther⟩, before, a, after, rfl, ha, ?_, ?_⟩
      · rw [members_unknown hName' hNone hSkip, hBefore]
      · intro doc'
        rw [List.cons_append, members_unknown hName' hNone hSkip, hAgain]
    · obtain ⟨hNew, hOther, before, a, after, rfl, ha, hBefore, hAgain⟩ := ih hRest
      rw [List.mem_cons, not_or] at hNew
      -- the name was not seen yet when the later member was read, so this member has another one
      have hDiffer : m.1.text? ≠ some name := by
        rw [hName']
        exact fun hSame => hNew.1 (Option.some.inj hSame).symm
      have hNone : ∀ m' ∈ m :: early, m'.1.text? ≠ some name :=
        List.forall_mem_cons.mpr ⟨hDiffer, hOther⟩
      refine ⟨hNew.2, hNone, a' :: before, a, after, rfl, ha, ?_, ?_⟩
      · rw [members_known hName' hField' hNew', ha', hBefore]
        rfl
      · intro doc'
        rw [List.cons_append, members_known hName' hField' hNew', ha', hAgain]
        cases shape levels doc' <;> rfl

/-- What holds of the other fields holds of all that is read without a member of this name. -/
theorem members_others {P : φ → Prop} (hOthers : ∀ f ∈ fields, f.1 ≠ name → f.2.Gives P)
    {docs : List (Spelling × Doc)} (hNone : ∀ m ∈ docs, m.1.text? ≠ some name)
    (h : Shape.members fields levels seen docs = .ok found) : ∀ a ∈ found, P a := by
  intro a ha
  obtain ⟨other, shape, m, hm, hName, hField, hRead⟩ := exists_member h a ha
  obtain ⟨front, back, rfl, -⟩ := List.lookup_eq_some_iff.mp hField
  have hDiffer : other ≠ name := by
    rintro rfl
    exact hNone m hm hName
  have hShape : shape.Gives P := hOthers (other, shape) (by simp) hDiffer
  exact hShape hRead

/-- Members with different names are read when each known one is. -/
theorem members_ok_iff {docs : List (Spelling × Doc)} (hTexts : ∀ m ∈ docs, m.1.text? ≠ none)
    (hDistinct : (docs.map fun m => m.1.text?).Nodup) (hSound : ∀ m ∈ docs, m.2.skip = .ok ())
    (hNew : ∀ m ∈ docs, ∀ name ∈ m.1.text?, name ∉ seen) :
    (∃ found, Shape.members fields levels seen docs = .ok found) ↔
      ∀ m ∈ docs, ∀ name ∈ m.1.text?, ∀ shape ∈ fields.lookup name, ∃ a, shape levels m.2 = .ok a := by
  induction docs generalizing seen with
  | nil => exact ⟨fun _ => List.forall_mem_nil _, fun _ => ⟨[], rfl⟩⟩
  | cons m docs ih =>
    obtain ⟨spelling, doc⟩ := m
    rw [List.forall_mem_cons] at hTexts hSound hNew ⊢
    rw [List.map_cons, List.nodup_cons] at hDistinct
    obtain ⟨name, hName⟩ := Option.ne_none_iff_exists'.mp hTexts.1
    -- no name repeats among the members, so none of the later ones has been seen
    have hLater : ∀ m ∈ docs, ∀ other ∈ m.1.text?, other ∉ name :: seen := by
      intro m hm other hOther hSeen
      rcases List.mem_cons.mp hSeen with rfl | hSeen
      · refine hDistinct.1 (List.mem_map.mpr ⟨m, hm, ?_⟩)
        exact (Option.mem_def.mp hOther).trans hName.symm
      · exact hNew.2 m hm other hOther hSeen
    cases hField : fields.lookup name with
    | none =>
      rw [members_unknown hName hField hSound.1, ih hTexts.2 hDistinct.2 hSound.2 hNew.2]
      refine (and_iff_right ?_).symm
      intro other hOther shape hShape
      obtain rfl : name = other := Option.some.inj (hName.symm.trans hOther)
      exact nomatch hField.symm.trans hShape
    | some shape =>
      have hRest := ih hTexts.2 hDistinct.2 hSound.2 hLater
      have hHead : (∀ other ∈ spelling.text?, ∀ shape' ∈ fields.lookup other,
          ∃ a, shape' levels doc = .ok a) ↔ ∃ a, shape levels doc = .ok a := by
        constructor
        · exact fun h => h name hName shape hField
        · intro h other hOther shape' hShape'
          obtain rfl : name = other := Option.some.inj (hName.symm.trans hOther)
          obtain rfl : shape = shape' := Option.some.inj (hField.symm.trans hShape')
          exact h
      rw [members_known hName hField (hNew.1 name hName), hHead, ← hRest]
      constructor
      · rintro ⟨found, h⟩
        obtain ⟨a, ha, h⟩ := bind_eq_ok.mp h
        obtain ⟨later, hLater, -⟩ := bind_eq_ok.mp h
        exact ⟨⟨a, ha⟩, later, hLater⟩
      · rintro ⟨⟨a, ha⟩, later, hLater⟩
        rw [ha, hLater]
        exact ⟨a :: later, rfl⟩

-- ---------------------------------------------------------------------------
-- One item
-- ---------------------------------------------------------------------------

/-- The items around one that is read stand at the places of the other fields. -/
theorem items_slot {front back : Shape.Fields φ} {early late : List Doc} {doc : Doc}
    (hLength : early.length = front.length)
    (h : Shape.items levels none (front ++ (name, shape) :: back) (early ++ doc :: late) = .ok found) :
    ∃ before a after, found = before ++ a :: after ∧ shape levels doc = .ok a ∧
      Shape.items levels none front early = .ok before ∧
      ∀ doc', Shape.items levels none (front ++ (name, shape) :: back) (early ++ doc' :: late) =
        (shape levels doc').map fun a' => before ++ a' :: after := by
  induction front generalizing early found with
  | nil =>
    obtain rfl : early = [] := List.length_eq_zero_iff.mp hLength
    obtain ⟨a, ha, h⟩ := bind_eq_ok.mp h
    obtain ⟨later, hLater, h⟩ := bind_eq_ok.mp h
    cases h
    refine ⟨[], a, later, rfl, ha, rfl, ?_⟩
    intro doc'
    show (shape levels doc' >>= fun value => Shape.items levels none back late >>= _) = _
    rw [hLater]
    rfl
  | cons field front ih =>
    obtain ⟨other, first⟩ := field
    cases early with
    | nil => cases hLength
    | cons doc₁ early =>
      obtain ⟨a₁, ha₁, h⟩ := bind_eq_ok.mp h
      obtain ⟨later, hLater, h⟩ := bind_eq_ok.mp h
      cases h
      obtain ⟨before, a, after, rfl, ha, hBefore, hAgain⟩ := ih (Nat.succ.inj hLength) hLater
      refine ⟨a₁ :: before, a, after, rfl, ha, ?_, ?_⟩
      · rw [Shape.items, ha₁, hBefore]
        rfl
      · intro doc'
        rw [List.cons_append, List.cons_append, Shape.items, ha₁, hAgain]
        cases shape levels doc' <;> rfl

-- ---------------------------------------------------------------------------
-- One field
-- ---------------------------------------------------------------------------

/-- The place of a field in a record. Any document may stand there. -/
inductive Slot (fields : Shape.Fields φ) (name : String) : (Doc → Doc) → Prop
  /-- A member of its name. -/
  | member (early late : List (Spelling × Doc)) {spelling : Spelling}
      (hName : spelling.text? = some name) :
      Slot fields name fun doc => .object (early ++ (spelling, doc) :: late) none
  /-- The item at its place. -/
  | item (early late : List Doc) (hName : (fields.map Prod.fst)[early.length]? = some name) :
      Slot fields name fun doc => .list (early ++ doc :: late) none

/-- **A record with one document exchanged.** The field is read from the new document, and the other
fields stay. What is read before it was read for other fields. -/
theorem record_slot {put : Doc → Doc} {doc : Doc} (hSlot : Slot fields name put)
    (hNames : (fields.map Prod.fst).Nodup) (hField : fields.lookup name = some shape)
    (h : Shape.record fields (levels + 1) (put doc) = .ok found) :
    ∃ before a after, found = before ++ a :: after ∧ shape levels doc = .ok a ∧
      (∀ P, (∀ f ∈ fields, f.1 ≠ name → f.2.Gives P) → ∀ b ∈ before, P b) ∧
      ∀ doc', Shape.record fields (levels + 1) (put doc') =
        (shape levels doc').map fun a' => before ++ a' :: after := by
  cases hSlot with
  | member early late hName =>
    obtain ⟨values, hValues, h⟩ := bind_eq_ok.mp h
    cases h
    obtain ⟨-, hNone, before, a, after, rfl, ha, hBefore, hAgain⟩ := members_slot hName hField hValues
    refine ⟨before, a, after, rfl, ha, fun P hOthers => members_others hOthers hNone hBefore, ?_⟩
    intro doc'
    show (Shape.members fields levels [] _ >>= _) = _
    rw [hAgain]
    cases shape levels doc' <;> rfl
  | item early late hName =>
    obtain ⟨front, back, rfl, hFront⟩ := List.lookup_eq_some_iff.mp hField
    -- no name repeats among the fields, so the item stands at the place of the field
    have hLength : early.length = front.length := by
      have hPlace : ((front ++ (name, shape) :: back).map Prod.fst)[front.length]? = some name := by
        simp
      have hInside := (List.getElem?_eq_some_iff.mp hName).1
      exact (List.getElem?_inj hInside hNames).mp (hName.trans hPlace.symm)
    obtain ⟨before, a, after, rfl, ha, hBefore, hAgain⟩ := items_slot hLength h
    refine ⟨before, a, after, rfl, ha, ?_, hAgain⟩
    intro P hOthers
    refine Shape.Gives.items ?_ hBefore
    intro f hf
    refine hOthers f (List.mem_append_left _ hf) ?_
    exact (bne_iff_ne.mp (hFront f hf)).symm

section Found

variable {get : φ → Option β} {before after : List φ} {a : φ}

/-- What is found in the field, when nothing is found before it. -/
theorem findSome?_slot (hNone : ∀ b ∈ before, get b = none) {found : β} (ha : get a = some found) :
    (before ++ a :: after).findSome? get = some found := by
  rw [List.findSome?_append, List.findSome?_eq_none_iff.mpr hNone, Option.none_or,
    List.findSome?_cons_of_isSome (by rw [ha]; rfl), ha]

/-- What is found in the other fields. -/
theorem findSome?_others (ha : get a = none) :
    (before ++ a :: after).findSome? get = (before ++ after).findSome? get := by
  rw [List.findSome?_append, List.findSome?_append, List.findSome?_cons_of_isNone (by rw [ha]; rfl)]

end Found

/-- A list that is read to its end does not break off. -/
theorem stop_of_items {stop : Option Break} {docs : List Doc}
    (h : Shape.items levels stop fields docs = .ok found) : stop = none := by
  induction fields generalizing docs found with
  | nil =>
    cases docs with
    | nil => cases stop <;> first | rfl | cases h
    | cons doc docs => cases h
  | cons field fields ih =>
    cases docs with
    | nil => cases stop <;> first | rfl | cases h
    | cons doc docs =>
      obtain ⟨a, -, h⟩ := bind_eq_ok.mp h
      obtain ⟨later, hLater, -⟩ := bind_eq_ok.mp h
      exact ih hLater

/-- A record that is read does not break off. -/
theorem skipFault?_of_record {doc : Doc} (h : Shape.record fields levels doc = .ok found) :
    doc.skipFault? = none := by
  unfold Shape.record at h
  split at h
  · cases h
  · cases h
  · next stop =>
    obtain ⟨values, -, h⟩ := bind_eq_ok.mp h
    cases stop with
    | none => rfl
    | some fault => cases h
  · rw [stop_of_items h]
    rfl
  · cases h

-- ---------------------------------------------------------------------------
-- One value of a list
-- ---------------------------------------------------------------------------

/-- A list of values with one more: it is read where its document stands. -/
theorem mapM_insert {ε : Type} {f : α → Except ε β} {before after : List α} {found : List β}
    (h : (before ++ after).mapM f = .ok found) :
    ∃ bs cs, found = bs ++ cs ∧ bs.length = before.length ∧
      ∀ a, (before ++ a :: after).mapM f = (f a).map fun b => bs ++ b :: cs := by
  -- on what stands before the new document
  induction before generalizing found with
  | nil =>
    refine ⟨[], found, rfl, rfl, ?_⟩
    intro a
    rw [List.nil_append, List.mapM_cons, show after.mapM f = .ok found from h]
    rfl
  | cons first before ih =>
    rw [List.cons_append, List.mapM_cons] at h
    obtain ⟨b, hb, h⟩ := bind_eq_ok.mp h
    obtain ⟨later, hLater, h⟩ := bind_eq_ok.mp h
    cases h
    obtain ⟨bs, cs, rfl, hLength, hAgain⟩ := ih hLater
    refine ⟨b :: bs, cs, rfl, congrArg Nat.succ hLength, ?_⟩
    intro a
    rw [List.cons_append, List.mapM_cons, hb, hAgain]
    cases f a <;> rfl

/-- A list of values with one document exchanged. -/
theorem mapM_slot {ε : Type} {f : α → Except ε β} {before after : List α} {a : α} {found : List β}
    (h : (before ++ a :: after).mapM f = .ok found) :
    ∃ bs b cs, found = bs ++ b :: cs ∧ bs.length = before.length ∧ f a = .ok b ∧
      ∀ a', (before ++ a' :: after).mapM f = (f a').map fun b' => bs ++ b' :: cs := by
  have hParts := h
  rw [List.mapM_append, List.mapM_cons] at hParts
  obtain ⟨bs, hBefore, hParts⟩ := bind_eq_ok.mp hParts
  obtain ⟨_, hLater, -⟩ := bind_eq_ok.mp hParts
  obtain ⟨b, hb, hLater⟩ := bind_eq_ok.mp hLater
  obtain ⟨cs, hAfter, -⟩ := bind_eq_ok.mp hLater
  -- the list without the document is read, and the document is put in anew
  have hOthers : (before ++ after).mapM f = .ok (bs ++ cs) := by
    rw [List.mapM_append, hBefore, hAfter]
    rfl
  obtain ⟨bs, cs, -, hLength, hAgain⟩ := mapM_insert hOthers
  refine ⟨bs, b, cs, ?_, hLength, hb, hAgain⟩
  rw [hAgain, hb] at h
  exact (Except.ok.inj h).symm

/-- A document in a list is exchanged. -/
theorem listOf_slot {item : Shape α} {levels : Nat} {before after : List Doc} {doc : Doc}
    {found : List α}
    (h : Shape.listOf item (levels + 1) (.list (before ++ doc :: after) none) = .ok found) :
    ∃ as a bs, found = as ++ a :: bs ∧ as.length = before.length ∧ item levels doc = .ok a ∧
      ∀ doc', Shape.listOf item (levels + 1) (.list (before ++ doc' :: after) none) =
        (item levels doc').map fun a' => as ++ a' :: bs := by
  obtain ⟨values, hValues, h⟩ := bind_eq_ok.mp h
  cases h
  obtain ⟨as, a, bs, rfl, hLength, ha, hAgain⟩ := mapM_slot hValues
  refine ⟨as, a, bs, rfl, hLength, ha, ?_⟩
  intro doc'
  show ((before ++ doc' :: after).mapM (item levels) >>= _) = _
  rw [hAgain]
  cases item levels doc' <;> rfl

/-- Values that are read one by one can each be read. -/
theorem exists_ok_of_mapM {ε : Type} {f : α → Except ε β} {as : List α} {found : List β}
    (h : as.mapM f = .ok found) : ∀ a ∈ as, ∃ b, f a = .ok b := by
  intro a ha
  obtain ⟨before, after, rfl⟩ := List.append_of_mem ha
  rw [List.mapM_append, List.mapM_cons] at h
  obtain ⟨bs, -, h⟩ := bind_eq_ok.mp h
  obtain ⟨cs, hCons, -⟩ := bind_eq_ok.mp h
  obtain ⟨b, hb, -⟩ := bind_eq_ok.mp hCons
  exact ⟨b, hb⟩

end BuildQuery.Json
