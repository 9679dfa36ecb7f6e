import BuildQuery.Proofs.RecordSlots
import BuildQuery.Proofs.WholeDocuments

/-!
# BuildQuery — documents that are read as others

One document may stand for another when whatever a shape gives of the one it gives of the other
(`Shape.Keeps`). A record may have its members in any order: every value is found under its own name, so
that the order in which values are found does not count. It may have members of other names too, which are
skipped, however deep they are. And one document may stand for another inside a list or a record.

Main results:

* `members_perm`, `findSome?_perm` — members in another order, and the values that are found.
* `keeps_perm`, `keeps_unknown` — a record with its members in another order, or with one more.
* `Shape.Keeps.listOf`, `Shape.Keeps.slot` — a document that is exchanged in a list or in a record.
-/

namespace BuildQuery.Json

variable {α β φ : Type} {fields : Shape.Fields φ} {levels : Nat} {seen : List String} {found : List φ}
  {name : String} {shape : Shape α} {doc doc' : Doc}

-- ---------------------------------------------------------------------------
-- Members in another order
-- ---------------------------------------------------------------------------

/-- It does not matter in which order names were seen. -/
theorem members_congr {docs : List (Spelling × Doc)} {seen seen' : List String}
    (h : ∀ name, name ∈ seen ↔ name ∈ seen') :
    Shape.members fields levels seen docs = Shape.members fields levels seen' docs := by
  -- names are only looked up in those that were seen, and each member adds one to both
  induction docs generalizing seen seen' with
  | nil => rfl
  | cons m docs ih =>
    obtain ⟨spelling, doc⟩ := m
    rw [Shape.members, Shape.members]
    split
    · rfl
    · next name hName =>
      have hLater : ∀ other, other ∈ name :: seen ↔ other ∈ name :: seen' := by
        intro other
        rw [List.mem_cons, List.mem_cons, h]
      simp only [h name, ih h, ih hLater]

/-- **Members in another order** give the same values in another order. -/
theorem members_perm {docs docs' : List (Spelling × Doc)} (hPerm : docs.Perm docs')
    (h : Shape.members fields levels seen docs = .ok found) :
    ∃ found', Shape.members fields levels seen docs' = .ok found' ∧ found.Perm found' := by
  -- on the permutation; the names that were seen are another list at each step
  induction hPerm generalizing seen found with
  | nil => exact ⟨found, h, .refl _⟩
  | @cons m docs docs' _ ih =>
    obtain ⟨name, hName, hRead⟩ := members_cons_ok h
    obtain ⟨hNone, hSkip, hRest⟩ | ⟨shape, a, later, hField, hNew, ha, hRest, rfl⟩ := hRead
    · rw [members_unknown hName hNone hSkip]
      exact ih hRest
    · obtain ⟨later', hRest', hPerm⟩ := ih hRest
      refine ⟨a :: later', ?_, hPerm.cons a⟩
      rw [members_known hName hField hNew, ha, hRest']
      rfl
  | swap m m' docs =>
    -- Each of the two is unknown or known. What is found is in another order when both are known.
    obtain ⟨name', hName', hRead'⟩ := members_cons_ok h
    obtain ⟨hNone', hSkip', hRest⟩ | ⟨shape', a', later', hField', hNew', ha', hRest, rfl⟩ := hRead'
    all_goals
      obtain ⟨name, hName, hRead⟩ := members_cons_ok hRest
      obtain ⟨hNone, hSkip, hEnd⟩ | ⟨shape, a, later, hField, hNew, ha, hEnd, rfl⟩ := hRead
    · refine ⟨found, ?_, .refl _⟩
      rw [members_unknown hName hNone hSkip, members_unknown hName' hNone' hSkip', hEnd]
    · refine ⟨a :: later, ?_, .refl _⟩
      rw [members_known hName hField hNew, ha, members_unknown hName' hNone' hSkip', hEnd]
      rfl
    · refine ⟨a' :: later', ?_, .refl _⟩
      rw [members_unknown hName hNone hSkip, members_known hName' hField' hNew', ha', hEnd]
      rfl
    · rw [List.mem_cons, not_or] at hNew
      have hNew'' : name' ∉ name :: seen := List.not_mem_cons_of_ne_of_not_mem (Ne.symm hNew.1) hNew'
      have hSame : ∀ other, other ∈ name' :: name :: seen ↔ other ∈ name :: name' :: seen := by
        intro other
        simp only [List.mem_cons, or_left_comm]
      refine ⟨a :: a' :: later, ?_, .swap a a' later⟩
      rw [members_known hName hField hNew.2, ha, members_known hName' hField' hNew'', ha',
        members_congr hSame, hEnd]
      rfl
  | trans _ _ ih ih' =>
    obtain ⟨found', h', hPerm⟩ := ih h
    obtain ⟨found'', h'', hPerm'⟩ := ih' h'
    exact ⟨found'', h'', hPerm.trans hPerm'⟩

/-- The values that are found have different labels when the label of a value is the name of its
field. -/
theorem labels_of_members {label : φ → String}
    (hLabel : ∀ f ∈ fields, f.2.Gives fun a => label a = f.1) {docs : List (Spelling × Doc)}
    (h : Shape.members fields levels seen docs = .ok found) :
    (found.map label).Nodup ∧ ∀ name ∈ seen, name ∉ found.map label := by
  -- a value of a name that was seen is a fault, so the names that were found are new and differ
  induction docs generalizing seen found with
  | nil =>
    cases h
    exact ⟨List.nodup_nil, fun _ _ => List.not_mem_nil⟩
  | cons m docs ih =>
    obtain ⟨name, -, hRead⟩ := members_cons_ok h
    obtain ⟨-, -, hRest⟩ | ⟨shape, a, later, hField, hNew, ha, hRest, rfl⟩ := hRead
    · exact ih hRest
    · obtain ⟨front, back, rfl, -⟩ := List.lookup_eq_some_iff.mp hField
      have hShape : shape.Gives fun a => label a = name := hLabel (name, shape) (by simp)
      have hName : label a = name := hShape ha
      obtain ⟨hNodup, hSeen⟩ := ih hRest
      rw [List.forall_mem_cons] at hSeen
      rw [List.map_cons, hName]
      refine ⟨List.nodup_cons.mpr ⟨hSeen.1, hNodup⟩, ?_⟩
      intro other hOther
      refine List.not_mem_cons_of_ne_of_not_mem ?_ (hSeen.2 other hOther)
      rintro rfl
      exact hNew hOther

/-- **Values in another order**: what only the values of one label have is found wherever it stands,
because there is no more than one value of this label. -/
theorem findSome?_perm {label : φ → String} {get : φ → Option β} {found' : List φ}
    (hPerm : found.Perm found') (hNodup : (found.map label).Nodup) (name : String)
    (hGet : ∀ a, label a ≠ name → get a = none) : found.findSome? get = found'.findSome? get := by
  induction hPerm with
  | nil => rfl
  | cons a _ ih => rw [List.findSome?_cons, List.findSome?_cons, ih (List.nodup_cons.mp hNodup).2]
  | swap a b rest =>
    have hDiffer : label b ≠ label a := by
      rintro hSame
      rw [List.map_cons, List.map_cons, hSame] at hNodup
      exact (List.nodup_cons.mp hNodup).1 List.mem_cons_self
    -- two neighbours have different labels, so at most one of them has the value
    rw [List.findSome?_cons, List.findSome?_cons, List.findSome?_cons, List.findSome?_cons]
    by_cases hName : label a = name
    · rw [hGet b fun hb => hDiffer (hb.trans hName.symm)]
    · rw [hGet a hName]
  | trans hPerm _ ih ih' =>
    rw [ih hNodup]
    exact ih' ((hPerm.map label).nodup_iff.mp hNodup)

-- ---------------------------------------------------------------------------
-- Documents that are read as others
-- ---------------------------------------------------------------------------

/-- A document may stand for another one: what is read of the one is read of the other. -/
def Shape.Keeps (shape : Shape α) (doc doc' : Doc) : Prop :=
  ∀ ⦃levels a⦄, shape levels doc = .ok a → shape levels doc' = .ok a

namespace Shape.Keeps

/-- What is made of what is read is the same. -/
theorem andThen {f : α → Except Fault β} (h : shape.Keeps doc doc') :
    (shape.andThen f).Keeps doc doc' := by
  intro levels b hb
  obtain ⟨a, ha, hb⟩ := bind_eq_ok.mp hb
  rw [Shape.andThen, h ha]
  exact hb

/-- So is its image. -/
theorem map {f : α → β} (h : shape.Keeps doc doc') : (shape.map f).Keeps doc doc' := by
  intro levels b hb
  obtain ⟨a, ha, rfl⟩ := exists_of_map_ok hb
  exact map_ok f (h ha)

/-- What is read of a list is read of it with another item, if the item may stand for the old one. -/
theorem listOf {before after : List Doc} (h : shape.Keeps doc doc') :
    (Shape.listOf shape).Keeps (.list (before ++ doc :: after) none)
      (.list (before ++ doc' :: after) none) := by
  intro levels as hAs
  cases levels with
  | zero => cases hAs
  | succ levels =>
    obtain ⟨as, a, bs, rfl, -, ha, hAgain⟩ := listOf_slot hAs
    rw [hAgain, h ha]
    rfl

/-- A list that may be null is read as a list. -/
theorem optional {items items' : List Doc}
    (h : shape.Keeps (.list items none) (.list items' none)) :
    (Shape.optional shape).Keeps (.list items none) (.list items' none) :=
  fun _ _ ha => Shape.Keeps.map (f := some) h ha

/-- What is read of a record is read of it with another document in a field. -/
theorem slot {put : Doc → Doc} {shape : Shape φ} (hSlot : Slot fields name put)
    (hNames : (fields.map Prod.fst).Nodup) (hField : fields.lookup name = some shape)
    (h : shape.Keeps doc doc') : (Shape.record fields).Keeps (put doc) (put doc') := by
  intro levels found hFound
  cases levels with
  | zero => cases hSlot <;> cases hFound
  | succ levels =>
    obtain ⟨before, a, after, rfl, ha, -, hAgain⟩ := record_slot hSlot hNames hField hFound
    rw [hAgain, h ha]
    rfl

end Shape.Keeps

/-- One more unknown member is skipped. -/
theorem keeps_unknown {docs : List (Spelling × Doc)} {spelling : Spelling} {value : Doc}
    (hName : spelling.text? = some name) (hField : fields.lookup name = none) (hValue : value.Whole) :
    (Shape.record fields).Keeps (.object docs none) (.object ((spelling, value) :: docs) none) := by
  intro levels found hFound
  cases levels with
  | zero => cases hFound
  | succ levels =>
    have hSkip : value.skip = .ok () := by rw [Doc.skip, hValue.skipFault?]
    rw [Shape.record, members_unknown hName hField hSkip]
    exact hFound

/-- Members may be in any order when what is made of their values does not depend on it. -/
theorem keeps_perm {docs docs' : List (Spelling × Doc)} {f : List φ → Except Fault α}
    {label : φ → String} (hLabel : ∀ f ∈ fields, f.2.Gives fun a => label a = f.1)
    (hOrder : ∀ {found found' : List φ}, found.Perm found' → (found.map label).Nodup →
      f found = f found') (hPerm : docs.Perm docs') :
    ((Shape.record fields).andThen f).Keeps (.object docs none) (.object docs' none) := by
  intro levels a ha
  cases levels with
  | zero => cases ha
  | succ levels =>
    obtain ⟨found, hFound, ha⟩ := bind_eq_ok.mp ha
    obtain ⟨values, hValues, hFound⟩ := bind_eq_ok.mp hFound
    cases hFound
    obtain ⟨values', hValues', hSame⟩ := members_perm hPerm hValues
    rw [hOrder hSame (labels_of_members hLabel hValues).1] at ha
    show (Shape.members fields levels [] docs' >>= _) >>= f = _
    rw [hValues']
    exact ha

end BuildQuery.Json
