import BuildQuery.Build.Writer
import BuildQuery.Proofs.Tokens
import BuildQuery.Proofs.WrittenValues

/-!
# BuildQuery — written records and what is read of them

A record is written as an object whose members follow its fields, each member under the name of its
field and some of them left out. Such an object is read as the fields that were written: the names
decide which shape takes which member, and no name repeats because none repeats among the fields.

What holds of all values that a shape may give (`Shape.Gives`) is settled without looking at the
document, from the parts of the shape.

Main results:

* `record_of_follows` — a record is read as the fields that were written.
* `Shape.Gives.record`, `Shape.Gives.listOf` — what holds of the parts holds of the whole.
-/

namespace BuildQuery.Json

variable {α β φ : Type} {shape : Shape α} {levels : Nat}

-- ---------------------------------------------------------------------------
-- Plain values
-- ---------------------------------------------------------------------------

/-- A written text is read as that text. -/
theorem text_doc (levels : Nat) (s : String) : Shape.text levels (Value.text s).doc = .ok s := by
  rw [Value.doc, Shape.text, text?_written]
  rfl

/-- A written text is read as a text where any value may stand. -/
theorem any_doc (levels : Nat) (s : String) :
    Shape.any levels (Value.text s).doc = .ok (.text s) := by
  rw [Value.doc, Shape.any, text?_written]
  rfl

/-- A written integer is read as that integer wherever it is within the bounds. -/
theorem integer_doc (levels : Nat) {low high i : Int} (hLow : low ≤ i) (hHigh : i ≤ high)
    (hMin : Int64.minValue.toInt ≤ low) (hMax : high < UInt64.size) :
    Shape.integer low high levels (Value.number (.int i)).doc = .ok i := by
  have hFits : (integerNumeral i).int? = some i := int?_integerNumeral (by omega) (by omega)
  rw [Value.doc, Shape.integer, hFits]
  exact if_pos ⟨hLow, hHigh⟩

/-- A written integer of 64 bits with a sign is read as itself. -/
theorem int64_doc (levels : Nat) (n : Int64) :
    Shape.int64 levels (Value.number (.int n.toInt)).doc = .ok n := by
  have hMax : Int64.maxValue.toInt < UInt64.size := by decide
  have hInteger := integer_doc levels n.minValue_le_toInt n.toInt_le (Int.le_refl _) hMax
  rw [Shape.int64, hInteger]
  show Except.ok (Int64.ofInt n.toInt) = _
  rw [Int64.ofInt_toInt]

/-- A written integer of 64 bits without a sign is read as itself. -/
theorem uint64_doc (levels : Nat) (n : UInt64) :
    Shape.uint64 levels (Value.number (.int n.toNat)).doc = .ok n := by
  have hMin : Int64.minValue.toInt ≤ 0 := by decide
  have hSize : n.toNat < UInt64.size := n.toNat_lt_size
  have hHigh : (n.toNat : Int) ≤ UInt64.size - 1 := by omega
  have hInteger := integer_doc levels (Int.natCast_nonneg n.toNat) hHigh hMin (by omega)
  rw [Shape.uint64, hInteger]
  show Except.ok (UInt64.ofNat n.toNat) = _
  rw [UInt64.ofNat_toNat]

/-- What may be missing is read when it is there. -/
theorem optional_ok {doc : Doc} {a : α} (hThere : doc ≠ .null) (h : shape levels doc = .ok a) :
    Shape.optional shape levels doc = .ok (some a) := by
  rw [Shape.optional.eq_2 _ _ _ hThere, h]
  rfl

/-- What is read is changed. -/
theorem map_ok {doc : Doc} {a : α} (f : α → β) (h : shape levels doc = .ok a) :
    shape.map f levels doc = .ok (f a) := by
  rw [Shape.map, h]
  rfl

/-- What was read and changed was read. -/
theorem exists_of_map_ok {doc : Doc} {f : α → β} {b : β} (h : shape.map f levels doc = .ok b) :
    ∃ a, shape levels doc = .ok a ∧ f a = b := by
  rw [Shape.map] at h
  cases hShape : shape levels doc with
  | error e =>
    rw [hShape] at h
    cases h
  | ok a =>
    rw [hShape] at h
    exact ⟨a, rfl, Except.ok.inj h⟩

/-- Values that are written one by one are read one by one. -/
theorem mapM_map_ok {ε : Type} {f : α → Except ε β} {g : β → α} {bs : List β}
    (h : ∀ b ∈ bs, f (g b) = .ok b) : (bs.map g).mapM f = .ok bs := by
  induction bs with
  | nil => rfl
  | cons b bs ih =>
    obtain ⟨hb, hRest⟩ := List.forall_mem_cons.mp h
    rw [List.map_cons, List.mapM_cons, hb, ih hRest]
    rfl

/-- Each of the values that are read one by one is read of something. -/
theorem forall_mem_of_mapM {ε : Type} {f : α → Except ε β} {as : List α} {bs : List β}
    (h : as.mapM f = .ok bs) : ∀ b ∈ bs, ∃ a ∈ as, f a = .ok b := by
  induction as generalizing bs with
  | nil =>
    cases h
    exact List.forall_mem_nil _
  | cons a as ih =>
    rw [List.mapM_cons] at h
    obtain ⟨b, hb, h⟩ := bind_eq_ok.mp h
    obtain ⟨later, hLater, h⟩ := bind_eq_ok.mp h
    cases h
    refine List.forall_mem_cons.mpr ⟨⟨a, List.mem_cons_self, hb⟩, ?_⟩
    intro b' hb'
    obtain ⟨a', ha', hFound⟩ := ih hLater b' hb'
    exact ⟨a', List.mem_cons_of_mem _ ha', hFound⟩

/-- A written list is read as its items. -/
theorem listOf_doc {item : Shape α} {toValue : α → Value} {items : List α}
    (h : ∀ a ∈ items, item levels (toValue a).doc = .ok a) :
    Shape.listOf item (levels + 1) (Value.list (items.map toValue)).doc = .ok items := by
  have hItems : (items.map fun a => (toValue a).doc).mapM (item levels) = .ok items := mapM_map_ok h
  rw [Value.doc, itemDocs_eq_map, List.map_map, Shape.listOf]
  show (List.mapM (item levels) (items.map fun a => (toValue a).doc) >>= _) = _
  rw [hItems]
  rfl

-- ---------------------------------------------------------------------------
-- Records
-- ---------------------------------------------------------------------------

/-- Members follow the fields of a record: each is left out, or stands under the name of its field and
is read as what is found there. -/
inductive Follows (levels : Nat) :
    Shape.Fields φ → List (Option (String × Value)) → List (Option φ) → Prop
  | nil : Follows levels [] [] []
  | left {name : String} {shape : Shape φ} {fields : Shape.Fields φ}
    {members : List (Option (String × Value))} {found : List (Option φ)} :
    Follows levels fields members found →
    Follows levels ((name, shape) :: fields) (none :: members) (none :: found)
  | put {name : String} {shape : Shape φ} {fields : Shape.Fields φ} {value : Value} {a : φ}
    {members : List (Option (String × Value))} {found : List (Option φ)} :
    shape levels value.doc = .ok a → Follows levels fields members found →
    Follows levels ((name, shape) :: fields) (some (name, value) :: members) (some a :: found)

/-- A member that may be missing follows its field, present or not. -/
theorem Follows.optional {name : String} {shape : Shape φ} {fields : Shape.Fields φ}
    {members : List (Option (String × Value))} {found : List (Option φ)} {toValue : α → Value}
    {f : α → φ} {value : Option α} (h : ∀ a, shape levels (toValue a).doc = .ok (f a))
    (hRest : Follows levels fields members found) :
    Follows levels ((name, shape) :: fields) (optionalMember name toValue value :: members)
      (value.map f :: found) := by
  cases value with
  | none => exact hRest.left
  | some a => exact .put (h a) hRest

/-- The fields before the ones that are followed hold all names that were seen. -/
theorem members_of_follows {fields before : Shape.Fields φ}
    {members : List (Option (String × Value))} {found : List (Option φ)} {seen : List String}
    (h : Follows levels fields members found) (hNames : ((before ++ fields).map Prod.fst).Nodup)
    (hSeen : seen ⊆ before.map Prod.fst) :
    Shape.members (before ++ fields) levels seen (memberDocs (members.filterMap id)) =
      .ok (found.filterMap id) := by
  -- on the members; the names of the fields that are done stay among the ones before
  induction h generalizing before seen with
  | nil => rfl
  | @left name shape fields members found _ ih =>
    rw [List.append_cons] at hNames ⊢
    refine ih hNames ?_
    rw [List.map_append]
    exact List.Subset.trans hSeen (List.subset_append_left _ _)
  | @put name shape fields value a members found hValue _ ih =>
    -- no name repeats, so the field is none of those before and has not been seen
    have hNew : name ∉ before.map Prod.fst := by
      rw [List.map_append, List.map_cons] at hNames
      exact fun hOld => (List.nodup_append.mp hNames).2.2 name hOld name List.mem_cons_self rfl
    -- hence the name finds this field and no other
    have hField : (before ++ (name, shape) :: fields).lookup name = some shape := by
      refine List.lookup_eq_some_iff.mpr ⟨before, fields, rfl, ?_⟩
      intro p hp
      have hOther : name ≠ p.1 := fun hEq => hNew (hEq ▸ List.mem_map_of_mem hp)
      exact bne_iff_ne.mpr hOther
    have hRest : Shape.members (before ++ (name, shape) :: fields) levels (name :: seen)
        (memberDocs (members.filterMap id)) = .ok (found.filterMap id) := by
      rw [List.append_cons] at hNames ⊢
      refine ih hNames ?_
      rw [List.map_append]
      exact List.cons_subset.mpr ⟨by simp, List.Subset.trans hSeen (List.subset_append_left _ _)⟩
    show Shape.members _ levels seen ((written name, value.doc) :: memberDocs _) = _
    rw [Shape.members, text?_written]
    simp only [hField]
    rw [if_neg fun hOld => hNew (hSeen hOld), hValue, hRest]
    rfl

/-- **A record is read as the fields that were written.** -/
theorem record_of_follows {fields : Shape.Fields φ} {members : List (Option (String × Value))}
    {found : List (Option φ)} (hNames : (fields.map Prod.fst).Nodup)
    (h : Follows levels fields members found) :
    Shape.record fields (levels + 1) (presentMembers members).doc = .ok (found.filterMap id) := by
  have hMembers : Shape.members ([] ++ fields) levels [] (memberDocs (members.filterMap id)) =
      .ok (found.filterMap id) := members_of_follows h hNames (List.Subset.refl [])
  show (Shape.members ([] ++ fields) levels [] (memberDocs (members.filterMap id)) >>= _) = _
  rw [hMembers]
  rfl

/-- A member that was read: it is unknown and was skipped, or it gave the first value. -/
theorem members_cons_ok {fields : Shape.Fields φ} {seen : List String} {found : List φ}
    {m : Spelling × Doc} {rest : List (Spelling × Doc)}
    (h : Shape.members fields levels seen (m :: rest) = .ok found) :
    ∃ name, m.1.text? = some name ∧
      ((fields.lookup name = none ∧ m.2.skip = .ok () ∧
          Shape.members fields levels seen rest = .ok found) ∨
        ∃ shape a later, fields.lookup name = some shape ∧ name ∉ seen ∧ shape levels m.2 = .ok a ∧
          Shape.members fields levels (name :: seen) rest = .ok later ∧ found = a :: later) := by
  obtain ⟨spelling, doc⟩ := m
  rw [Shape.members] at h
  split at h
  · cases h
  · next name hName =>
    refine ⟨name, hName, ?_⟩
    -- a name without a field is skipped, and one with a field may not have been seen
    split at h
    · next hField =>
      obtain ⟨⟨⟩, hSkip, h⟩ := bind_eq_ok.mp h
      exact Or.inl ⟨hField, hSkip, h⟩
    · next shape hField =>
      split at h
      · cases h
      · next hNew =>
        obtain ⟨a, ha, h⟩ := bind_eq_ok.mp h
        obtain ⟨later, hLater, h⟩ := bind_eq_ok.mp h
        cases h
        exact Or.inr ⟨shape, a, later, hField, hNew, ha, hLater, rfl⟩

/-- What is found was read from a member with the name of its field. -/
theorem exists_member {fields : Shape.Fields φ} {docs : List (Spelling × Doc)} {seen : List String}
    {found : List φ} (h : Shape.members fields levels seen docs = .ok found) :
    ∀ a ∈ found, ∃ name shape, ∃ m ∈ docs, m.1.text? = some name ∧ fields.lookup name = some shape ∧
      shape levels m.2 = .ok a := by
  induction docs generalizing seen found with
  | nil =>
    cases h
    exact List.forall_mem_nil _
  | cons m docs ih =>
    obtain ⟨name, hName, hRead⟩ := members_cons_ok h
    intro a ha
    -- a skipped member gives nothing, a read one gives the first value
    obtain ⟨-, -, hRest⟩ | ⟨shape, b, later, hField, -, hb, hRest, rfl⟩ := hRead
    · obtain ⟨name, shape, m', hm, hFound⟩ := ih hRest a ha
      exact ⟨name, shape, m', List.mem_cons_of_mem _ hm, hFound⟩
    · rcases List.mem_cons.mp ha with rfl | ha
      · exact ⟨name, shape, m, List.mem_cons_self, hName, hField, hb⟩
      · obtain ⟨name, shape, m', hm, hFound⟩ := ih hRest a ha
        exact ⟨name, shape, m', List.mem_cons_of_mem _ hm, hFound⟩

-- ---------------------------------------------------------------------------
-- All values of a shape
-- ---------------------------------------------------------------------------

/-- Whatever the shape gives, of any document, has the property. -/
def Shape.Gives (shape : Shape α) (P : α → Prop) : Prop :=
  ∀ ⦃levels doc a⦄, shape levels doc = .ok a → P a

namespace Shape.Gives

/-- What a shape gives may be changed. -/
theorem map {P : α → Prop} {Q : β → Prop} {f : α → β} (h : shape.Gives P)
    (hf : ∀ a, P a → Q (f a)) : (shape.map f).Gives Q := by
  intro levels doc b hb
  obtain ⟨a, ha, rfl⟩ := exists_of_map_ok hb
  exact hf a (h ha)

/-- What holds of all changed values holds whatever the shape gives. -/
theorem of_map (shape : Shape α) {Q : β → Prop} {f : α → β} (hf : ∀ a, Q (f a)) :
    (shape.map f).Gives Q := by
  have hAny : shape.Gives fun _ => True := fun _ _ _ _ => trivial
  exact hAny.map fun a _ => hf a

/-- **What holds of the items** holds of all items of a list. -/
theorem listOf {item : Shape α} {P : α → Prop} (h : item.Gives P) :
    (Shape.listOf item).Gives fun as => ∀ a ∈ as, P a := by
  intro levels doc as hAs
  unfold Shape.listOf at hAs
  split at hAs
  · cases hAs
  · -- a list is given only by a document that is one and ends where it should
    obtain ⟨values, hValues, hAs⟩ := bind_eq_ok.mp hAs
    obtain ⟨-, -, hAs⟩ := bind_eq_ok.mp hAs
    cases hAs
    intro a ha
    obtain ⟨doc, -, hDoc⟩ := forall_mem_of_mapM hValues a ha
    exact h hDoc
  · cases hAs

/-- What holds of the fields holds of all values found in the members of an object. -/
theorem members {fields : Shape.Fields φ} {P : φ → Prop} (h : ∀ f ∈ fields, f.2.Gives P)
    {levels : Nat} {docs : List (Spelling × Doc)} {seen : List String} {found : List φ}
    (hFound : Shape.members fields levels seen docs = .ok found) : ∀ a ∈ found, P a := by
  intro a ha
  obtain ⟨name, shape, m, -, -, hField, hRead⟩ := exists_member hFound a ha
  obtain ⟨front, back, rfl, -⟩ := List.lookup_eq_some_iff.mp hField
  have hShape : shape.Gives P := h (name, shape) (List.mem_append_right _ List.mem_cons_self)
  exact hShape hRead

/-- What holds of the fields holds of all values found in the items of a list. -/
theorem items {fields : Shape.Fields φ} {P : φ → Prop} (h : ∀ f ∈ fields, f.2.Gives P)
    {levels : Nat} {stop : Option Break} {docs : List Doc} {found : List φ}
    (hFound : Shape.items levels stop fields docs = .ok found) : ∀ a ∈ found, P a := by
  induction fields generalizing docs found with
  | nil =>
    cases docs with
    | nil =>
      obtain ⟨-, -, hFound⟩ := bind_eq_ok.mp hFound
      cases hFound
      exact List.forall_mem_nil _
    | cons doc docs => cases hFound
  | cons field fields ih =>
    obtain ⟨name, shape⟩ := field
    obtain ⟨hShape, hFields⟩ := List.forall_mem_cons.mp h
    cases docs with
    | nil =>
      obtain ⟨-, -, hFound⟩ := bind_eq_ok.mp hFound
      cases hFound
      exact List.forall_mem_nil _
    | cons doc docs =>
      obtain ⟨a, ha, hFound⟩ := bind_eq_ok.mp hFound
      obtain ⟨rest, hRest, hFound⟩ := bind_eq_ok.mp hFound
      cases hFound
      exact List.forall_mem_cons.mpr ⟨hShape ha, ih hFields hRest⟩

/-- **What holds of the fields** holds of all values found in a record, written as an object or as a list.
-/
theorem record {fields : Shape.Fields φ} {P : φ → Prop} (h : ∀ f ∈ fields, f.2.Gives P) :
    (Shape.record fields).Gives fun found => ∀ a ∈ found, P a := by
  intro levels doc found hFound
  unfold Shape.record at hFound
  split at hFound
  · cases hFound
  · cases hFound
  · obtain ⟨values, hValues, hFound⟩ := bind_eq_ok.mp hFound
    obtain ⟨-, -, hFound⟩ := bind_eq_ok.mp hFound
    cases hFound
    exact members h hValues
  · exact items h hFound
  · cases hFound

end Shape.Gives

/-- Bytes that are decoded have the shape in their document. -/
theorem decode_ok {shape : Shape α} {bytes : List UInt8} {a : α} (h : decode shape bytes = .ok a) :
    shape levelLimit (read bytes).doc = .ok a := by
  obtain ⟨value, hValue, hEnd⟩ := bind_eq_ok.mp h
  split at hEnd
  · cases hEnd
  · cases hEnd
    exact hValue

/-- Bytes with nothing behind their document are decoded like the document. -/
theorem decode_of_read {shape : Shape α} {bytes : List UInt8} {doc : Doc}
    (h : read bytes = ⟨doc, false⟩) : decode shape bytes = shape levelLimit doc := by
  rw [decode, h]
  cases shape levelLimit doc <;> rfl

/-- There is nothing behind a document that was decoded. -/
theorem exists_read_of_decode {shape : Shape α} {bytes : List UInt8} {a : α}
    (h : decode shape bytes = .ok a) :
    ∃ doc, read bytes = ⟨doc, false⟩ ∧ shape levelLimit doc = .ok a := by
  refine ⟨(read bytes).doc, ?_, decode_ok h⟩
  obtain ⟨value, -, hEnd⟩ := bind_eq_ok.mp h
  split at hEnd
  · cases hEnd
  · next hFollowed => rw [← Bool.eq_false_iff.mpr hFollowed]

/-- A written value is decoded like its document. -/
theorem decode_render {v : Value} (h : v.Integral) (shape : Shape α) :
    decode shape (Text.bytes v.render) = shape levelLimit v.doc :=
  decode_of_read (read_render h)

end BuildQuery.Json
