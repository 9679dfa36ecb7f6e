import BuildQuery.Proofs.WrittenRecords

/-!
# BuildQuery — values and what they mean

Two values mean the same when they are equal up to the order of the members of objects, where the last of
several members of one name counts (`Value.meaning`). The canonical form of a value means the same as the
value, and values that mean the same have one canonical form: the members of its objects are ordered by
name, and ordered members are determined by what stands under each name.

A value that is read from a document is written and read again as itself. So the text of the canonical form
tells apart all values that do not mean the same.

Main results:

* `orderMembers_congr` — the ordered members are determined by the last member of each name.
* `Value.Fits.meaning_canonical`, `Value.Fits.canonical_eq` — the canonical form and the meaning.
* `Value.Fits.any_doc` — a value is read from its document.
* `Value.Fits.render_canonical_iff` — canonical texts are equal exactly for values that mean the same.
-/

namespace BuildQuery.Json

-- ---------------------------------------------------------------------------
-- What a value means
-- ---------------------------------------------------------------------------

/-- What a value means. An object gives what stands under each name. -/
inductive Meaning where
  | null
  | bool (value : Bool)
  | number (value : Number)
  | text (value : String)
  | list (items : List Meaning)
  | object (value? : String → Option Meaning)

mutual

/-- What a value means. -/
def Value.meaning : Value → Meaning
  | .null => .null
  | .bool value => .bool value
  | .number value => .number value
  | .text value => .text value
  | .list items => .list (itemMeanings items)
  | .object members => .object (memberMeaning? members)

/-- What the items of a list mean. -/
def itemMeanings : List Value → List Meaning
  | [] => []
  | item :: items => item.meaning :: itemMeanings items

/-- What the last member of a name means. -/
def memberMeaning? : List (String × Value) → String → Option Meaning
  | [], _ => none
  | (other, value) :: members, name =>
    (memberMeaning? members name).or (if name = other then some value.meaning else none)

end

/-- What stands last under a name. -/
def last? {α : Type} (name : String) : List (String × α) → Option α
  | [] => none
  | (other, a) :: members => (last? name members).or (if name = other then some a else none)

/-- What stands last under a name, after every member has been changed. -/
theorem last?_map {α β : Type} (f : α → β) (name : String) (members : List (String × α)) :
    last? name (members.map fun m => (m.1, f m.2)) = (last? name members).map f := by
  induction members with
  | nil => rfl
  | cons m members ih =>
    rw [List.map_cons, last?, last?, ih, Option.map_or]
    congr 1
    split <;> rfl

/-- What stands last under a name is one of the members. -/
theorem mem_of_last? {α : Type} {members : List (String × α)} {name : String} {a : α}
    (h : last? name members = some a) : (name, a) ∈ members := by
  induction members with
  | nil => cases h
  | cons m members ih =>
    obtain ⟨other, first⟩ := m
    rw [last?, Option.or_eq_some_iff] at h
    obtain hLater | ⟨-, hFirst⟩ := h
    · exact List.mem_cons_of_mem _ (ih hLater)
    · split at hFirst
      · next hName =>
        cases hFirst
        rw [hName]
        exact List.mem_cons_self
      · cases hFirst

/-- A list means what its items mean, one by one. -/
theorem itemMeanings_eq_map (items : List Value) : itemMeanings items = items.map Value.meaning := by
  induction items with
  | nil => rfl
  | cons item items ih => rw [itemMeanings, ih, List.map_cons]

/-- An object means under a name what its last member of that name means. -/
theorem memberMeaning?_eq_last? (members : List (String × Value)) (name : String) :
    memberMeaning? members name = (last? name members).map Value.meaning := by
  rw [← last?_map]
  induction members with
  | nil => rfl
  | cons m members ih => rw [memberMeaning?, List.map_cons, last?, ih]

/-- The canonical form of a list has the canonical forms of its items, in their order. -/
theorem canonicalItems_eq_map (items : List Value) : canonicalItems items = items.map Value.canonical := by
  induction items with
  | nil => rfl
  | cons item items ih => rw [canonicalItems, ih, List.map_cons]

/-- The canonical forms of members keep their names. -/
theorem canonicalMembers_eq_map (members : List (String × Value)) :
    canonicalMembers members = members.map fun m => (m.1, m.2.canonical) := by
  induction members with
  | nil => rfl
  | cons m members ih => rw [canonicalMembers, ih, List.map_cons]

/-- The canonical forms of members are in force where the members are. -/
theorem last?_canonicalMembers (members : List (String × Value)) (name : String) :
    last? name (canonicalMembers members) = (last? name members).map Value.canonical := by
  rw [canonicalMembers_eq_map, last?_map]

-- ---------------------------------------------------------------------------
-- Ordered members
-- ---------------------------------------------------------------------------

/-- The names are in ascending order, each of them once. -/
def Ordered (members : List (String × Value)) : Prop :=
  members.Pairwise fun m m' => m.1 < m'.1

/-- Putting a member adds that member only. -/
theorem mem_of_mem_putMember {name : String} {value : Value} {members : List (String × Value)}
    {m : String × Value} (h : m ∈ putMember name value members) : m = (name, value) ∨ m ∈ members := by
  induction members with
  | nil => exact Or.inl (List.mem_singleton.mp h)
  | cons first members ih =>
    obtain ⟨other, found⟩ := first
    rw [putMember] at h
    split at h
    · rcases List.mem_cons.mp h with rfl | h
      · exact Or.inl rfl
      · exact Or.inr (List.mem_cons_of_mem _ h)
    · split at h
      · exact List.mem_cons.mp h
      · rcases List.mem_cons.mp h with rfl | h
        · exact Or.inr List.mem_cons_self
        · exact (ih h).imp_right (List.mem_cons_of_mem _)

/-- **Putting a member** among ordered ones leaves them ordered. -/
theorem Ordered.putMember {members : List (String × Value)} (h : Ordered members) (name : String)
    (value : Value) : Ordered (putMember name value members) := by
  induction members with
  | nil => exact List.pairwise_singleton _ _
  | cons first members ih =>
    obtain ⟨other, found⟩ := first
    obtain ⟨hFirst, hMembers⟩ := List.pairwise_cons.mp h
    rw [Json.putMember]
    -- the member replaces the first one, stands in front of it, or goes further on
    split
    · next hSame =>
      rw [hSame]
      exact List.pairwise_cons.mpr ⟨hFirst, hMembers⟩
    · next hDiffer =>
      split
      · next hBefore =>
        refine List.pairwise_cons.mpr ⟨?_, h⟩
        refine List.forall_mem_cons.mpr ⟨hBefore, ?_⟩
        exact fun m hm => String.lt_trans hBefore (hFirst m hm)
      · next hNotBefore =>
        refine List.pairwise_cons.mpr ⟨?_, ih hMembers⟩
        intro m hm
        rcases mem_of_mem_putMember hm with rfl | hm
        · -- the order of names is total, so neither the same name nor one before it means one behind it
          refine Decidable.byContradiction fun hNotBehind => hDiffer ?_
          exact String.le_antisymm (String.not_lt.mp hNotBehind) (String.not_lt.mp hNotBefore)
        · exact hFirst m hm

/-- Looking up a name among members, with the comparison of names as a proposition. -/
theorem lookup_member (name other : String) (value : Value) (members : List (String × Value)) :
    ((other, value) :: members).lookup name =
      if name = other then some value else members.lookup name := by
  rw [List.lookup_cons]
  by_cases hSame : name = other
  · rw [if_pos hSame, beq_iff_eq.mpr hSame]
  · rw [if_neg hSame, beq_eq_false_iff_ne.mpr hSame]

/-- Putting a member changes what stands under its name and nothing else. -/
theorem lookup_putMember (name other : String) (value : Value) (members : List (String × Value)) :
    (putMember other value members).lookup name =
      if name = other then some value else members.lookup name := by
  induction members with
  | nil => exact lookup_member name other value []
  | cons first members ih =>
    obtain ⟨first, found⟩ := first
    rw [putMember]
    split
    · next hSame =>
      rw [lookup_member, lookup_member, hSame]
      split <;> rfl
    · next hDiffer =>
      split
      · rw [lookup_member]
      · rw [lookup_member, lookup_member, ih]
        by_cases hFirst : name = first
        · rw [if_pos hFirst, if_pos hFirst, if_neg fun hName => hDiffer (hName.symm.trans hFirst)]
        · rw [if_neg hFirst, if_neg hFirst]

/-- The members that are put one after the other: the last one of a name counts. -/
theorem lookup_orderMembers (members : List (String × Value)) (name : String) :
    (orderMembers members).lookup name = last? name members := by
  -- for any members put before: a name is looked up among them when it is not among the later ones
  have hPut (before : List (String × Value)) :
      (members.foldl (fun ordered m => putMember m.1 m.2 ordered) before).lookup name =
        (last? name members).or (before.lookup name) := by
    induction members generalizing before with
    | nil => rfl
    | cons m members ih =>
      rw [List.foldl_cons, ih, lookup_putMember, last?, Option.or_assoc]
      congr 1
      split <;> rfl
  have hAll := hPut []
  rwa [List.lookup_nil, Option.or_none] at hAll

/-- Members that are put one after the other are ordered, in whatever order they come. -/
theorem ordered_orderMembers (members : List (String × Value)) : Ordered (orderMembers members) :=
  List.foldlRecOn members _ .nil fun _ h m _ => h.putMember m.1 m.2

/-- Ordering members gives no new ones. -/
theorem orderMembers_subset (members : List (String × Value)) : orderMembers members ⊆ members := by
  refine List.foldlRecOn (motive := (· ⊆ members)) members _ (List.nil_subset _) ?_
  intro ordered h m hm other hOther
  rcases mem_of_mem_putMember hOther with rfl | hOther
  · exact hm
  · exact h hOther

/-- Among ordered members a member is what is found under its name. -/
theorem Ordered.mem_iff {members : List (String × Value)} (h : Ordered members) {name : String}
    {value : Value} : (name, value) ∈ members ↔ members.lookup name = some value := by
  induction members with
  | nil => simp
  | cons first members ih =>
    obtain ⟨other, found⟩ := first
    obtain ⟨hFirst, hMembers⟩ := List.pairwise_cons.mp h
    rw [lookup_member, List.mem_cons]
    by_cases hSame : name = other
    · -- every later name is greater, so this one does not come again
      have hNone : (name, value) ∉ members := by
        intro hm
        exact String.lt_irrefl _ (hSame ▸ hFirst _ hm)
      rw [if_pos hSame, or_iff_left hNone, hSame]
      simp [eq_comm]
    · rw [if_neg hSame, ← ih hMembers]
      simp [hSame]

/-- **Ordered members** are determined by what stands under each name. -/
theorem Ordered.eq_of_lookup {members members' : List (String × Value)} (h : Ordered members)
    (h' : Ordered members') (hSame : ∀ name, members.lookup name = members'.lookup name) :
    members = members' := by
  have hNodup {ms : List (String × Value)} (hms : Ordered ms) : ms.Nodup := by
    refine List.Pairwise.imp ?_ hms
    rintro m _ hLess rfl
    exact String.lt_irrefl _ hLess
  -- two lists in the same strict order are equal as soon as they have the same members
  refine List.Perm.eq_of_pairwise ?_ h h' ?_
  · exact fun m m' _ _ hLess hGreater => absurd hGreater (String.lt_asymm hLess)
  · refine (List.perm_ext_iff_of_nodup (hNodup h) (hNodup h')).mpr ?_
    intro m
    rw [h.mem_iff, h'.mem_iff, hSame]

/-- **The ordered members** are determined by the last member of each name. -/
theorem orderMembers_congr {members members' : List (String × Value)}
    (h : ∀ name, last? name members = last? name members') :
    orderMembers members = orderMembers members' := by
  refine (ordered_orderMembers members).eq_of_lookup (ordered_orderMembers members') ?_
  intro name
  rw [lookup_orderMembers, lookup_orderMembers, h]

/-- No name is twice in ordered members. -/
theorem Ordered.last?_eq {members : List (String × Value)} (h : Ordered members) (name : String) :
    last? name members = members.lookup name := by
  induction members with
  | nil => rfl
  | cons first members ih =>
    obtain ⟨other, found⟩ := first
    obtain ⟨hFirst, hMembers⟩ := List.pairwise_cons.mp h
    rw [last?, lookup_member]
    by_cases hSame : name = other
    · have hNone : last? name members = none := by
        refine Option.eq_none_iff_forall_ne_some.mpr ?_
        intro value hValue
        exact String.lt_irrefl _ (hSame ▸ hFirst _ (mem_of_last? hValue))
      rw [hNone, if_pos hSame, if_pos hSame]
      rfl
    · rw [if_neg hSame, if_neg hSame, Option.or_none, ih hMembers]

/-- Ordering members keeps what stands last under each name. -/
theorem last?_orderMembers (members : List (String × Value)) (name : String) :
    last? name (orderMembers members) = last? name members := by
  rw [(ordered_orderMembers members).last?_eq, lookup_orderMembers]

-- ---------------------------------------------------------------------------
-- Values that are read
-- ---------------------------------------------------------------------------

/-- The numbers of a value are integers of 64 bits, with a sign or without one, and its containers may be
entered. -/
inductive Value.Fits : Nat → Value → Prop
  | null {levels : Nat} : Fits levels .null
  | bool {levels : Nat} (value : Bool) : Fits levels (.bool value)
  | int {levels : Nat} {i : Int} (hLow : Int64.minValue.toInt ≤ i) (hHigh : i < UInt64.size) :
      Fits levels (.number (.int i))
  | text {levels : Nat} (s : String) : Fits levels (.text s)
  | list {levels : Nat} {items : List Value} (hItems : ∀ item ∈ items, Fits levels item) :
      Fits (levels + 1) (.list items)
  | object {levels : Nat} {members : List (String × Value)} (hMembers : ∀ m ∈ members, Fits levels m.2) :
      Fits (levels + 1) (.object members)

/-- A numeral is an integer only if 64 bits hold it, with a sign or without one. -/
theorem Numeral.bounds_of_int? {n : Numeral} {i : Int} (h : n.int? = some i) :
    Int64.minValue.toInt ≤ i ∧ i < UInt64.size := by
  have hMin : Int64.minValue.toInt ≤ 0 := by decide
  simp only [Numeral.int?] at h
  split at h
  · cases h
  · split at h
    all_goals
      split at h
      · cases h
        omega
      · cases h

/-- A numeral that is read as an integer is one; a fraction gives a float. -/
theorem Numeral.int?_of_number? {n : Numeral} {i : Int} (h : n.number? = some (.int i)) :
    n.int? = some i := by
  rw [Numeral.number?] at h
  split at h
  · next value hInt =>
    cases h
    exact hInt
  · rw [Numeral.float?] at h
    obtain ⟨magnitude, -, hFloat⟩ := Option.map_eq_some_iff.mp h
    cases hFloat

/-- The member that is read of a spelled name and a document. -/
def readMember (levels : Nat) (m : Spelling × Doc) : Except Fault (String × Value) := do
  let name ← memberName m.1
  return (name, ← Shape.any levels m.2)

/-- What is read of a document, of whatever kind it is. -/
theorem any_cases {levels : Nat} {doc : Doc} {v : Value} (h : Shape.any levels doc = .ok v) :
    v = .null ∨ (∃ value, v = .bool value) ∨ (∃ s, v = .text s) ∨
      (∃ numeral : Numeral, ∃ number, numeral.number? = some number ∧ v = .number number) ∨
      (∃ below items, ∃ docs : List Doc, levels = below + 1 ∧
        docs.mapM (Shape.any below) = .ok items ∧ v = .list items) ∨
      ∃ below members, ∃ docs : List (Spelling × Doc), levels = below + 1 ∧
        docs.mapM (readMember below) = .ok members ∧ v = .object members := by
  rw [Shape.any.eq_def] at h
  split at h
  case h_1 =>
    cases h
    exact Or.inl rfl
  case h_2 value =>
    cases h
    exact Or.inr (Or.inl ⟨value, rfl⟩)
  case h_3 numeral =>
    cases hNumber : numeral.number? with
    | none =>
      rw [hNumber] at h
      cases h
    | some number =>
      rw [hNumber] at h
      cases h
      exact Or.inr (Or.inr (Or.inr (Or.inl ⟨numeral, number, hNumber, rfl⟩)))
  case h_4 spelling =>
    cases hText : spelling.text? with
    | none =>
      rw [hText] at h
      cases h
    | some s =>
      rw [hText] at h
      cases h
      exact Or.inr (Or.inr (Or.inl ⟨s, rfl⟩))
  case h_7 below docs stop =>
    obtain ⟨items, hItems, h⟩ := bind_eq_ok.mp h
    obtain ⟨-, -, h⟩ := bind_eq_ok.mp h
    cases h
    exact Or.inr (Or.inr (Or.inr (Or.inr (Or.inl ⟨below, items, docs, rfl, hItems, rfl⟩))))
  case h_8 below docs stop =>
    obtain ⟨members, hMembers, h⟩ := bind_eq_ok.mp h
    obtain ⟨-, -, h⟩ := bind_eq_ok.mp h
    cases h
    exact Or.inr (Or.inr (Or.inr (Or.inr (Or.inr ⟨below, members, docs, rfl, hMembers, rfl⟩))))
  -- a document that breaks off, or that is deeper than it may be, gives no value
  all_goals cases h

/-- **A value that is read** has integers of 64 bits only, unless there are fractions in it, and it is no
deeper than the document may be. -/
theorem Value.Integral.fits {levels : Nat} {doc : Doc} {v : Value} (h : v.Integral)
    (hRead : Shape.any levels doc = .ok v) : v.Fits levels := by
  -- on the value; of the documents that could be read only those of its own kind are left
  induction h generalizing levels doc with
  | null => exact .null
  | bool value => exact .bool value
  | text s => exact .text s
  | int i =>
    obtain h | ⟨_, h⟩ | ⟨_, h⟩ | ⟨n, _, hNumber, h⟩ | ⟨_, _, _, -, -, h⟩ | ⟨_, _, _, -, -, h⟩ :=
      any_cases hRead
    all_goals cases h
    obtain ⟨hLow, hHigh⟩ := Numeral.bounds_of_int? (Numeral.int?_of_number? hNumber)
    exact .int hLow hHigh
  | list _ ih =>
    obtain h | ⟨_, h⟩ | ⟨_, h⟩ | ⟨_, _, -, h⟩ | ⟨_, _, docs, rfl, hItems, h⟩ | ⟨_, _, _, -, -, h⟩ :=
      any_cases hRead
    all_goals cases h
    refine .list ?_
    intro item hItem
    obtain ⟨doc, -, hDoc⟩ := forall_mem_of_mapM hItems item hItem
    exact ih item hItem hDoc
  | object _ ih =>
    obtain h | ⟨_, h⟩ | ⟨_, h⟩ | ⟨_, _, -, h⟩ | ⟨_, _, _, -, -, h⟩ | ⟨_, _, docs, rfl, hMembers, h⟩ :=
      any_cases hRead
    all_goals cases h
    refine .object ?_
    intro m hm
    obtain ⟨doc, -, hDoc⟩ := forall_mem_of_mapM hMembers m hm
    obtain ⟨name, -, hDoc⟩ := bind_eq_ok.mp hDoc
    obtain ⟨value, hValue, hDoc⟩ := bind_eq_ok.mp hDoc
    cases hDoc
    exact ih _ hm hValue

namespace Value.Fits

variable {levels : Nat} {v v' : Value}

/-- The numbers of such a value are integers. -/
theorem integral (h : v.Fits levels) : v.Integral := by
  induction h with
  | null => exact .null
  | bool value => exact .bool value
  | int => exact .int _
  | text s => exact .text s
  | list _ ih => exact .list ih
  | object _ ih => exact .object ih

/-- **A value is read from its document.** -/
theorem any_doc (h : v.Fits levels) : Shape.any levels v.doc = .ok v := by
  induction h with
  | null => exact Shape.any.eq_1 _
  | bool value => exact Shape.any.eq_2 _ _
  | @int levels i hLow hHigh =>
    rw [Value.doc, Shape.any, Numeral.number?, int?_integerNumeral hLow hHigh]
    rfl
  | text s => exact Json.any_doc _ s
  | @list levels items _ ih =>
    rw [Value.doc, itemDocs_eq_map, Shape.any, mapM_map_ok ih]
    rfl
  | @object levels members _ ih =>
    -- each member is read on its own: its name is text, and its value is read by induction
    have hMembers : (members.map fun m => (written m.1, m.2.doc)).mapM (readMember levels) =
        .ok members := by
      refine mapM_map_ok ?_
      intro m hm
      rw [readMember, memberName, text?_written, ih m hm]
      rfl
    rw [Value.doc, memberDocs_eq_map, Shape.any]
    show ((members.map fun m => (written m.1, m.2.doc)).mapM (readMember levels) >>= _) = _
    rw [hMembers]
    rfl

-- ---------------------------------------------------------------------------
-- The canonical form
-- ---------------------------------------------------------------------------

/-- The canonical form of a value that can be read can be read. -/
theorem canonical (h : v.Fits levels) : v.canonical.Fits levels := by
  induction h with
  | null => exact .null
  | bool value => exact .bool value
  | int hLow hHigh => exact .int hLow hHigh
  | text s => exact .text s
  | list _ ih =>
    rw [Value.canonical, canonicalItems_eq_map]
    exact .list (List.forall_mem_map.mpr ih)
  | object _ ih =>
    rw [Value.canonical, canonicalMembers_eq_map]
    refine .object ?_
    intro m hm
    obtain ⟨m', hm', rfl⟩ := List.mem_map.mp (orderMembers_subset _ hm)
    exact ih m' hm'

/-- **The canonical form** means the same. -/
theorem meaning_canonical (h : v.Fits levels) : v.canonical.meaning = v.meaning := by
  induction h with
  | null | bool | int | text => rfl
  | @list levels items _ ih =>
    rw [Value.canonical, Value.meaning, Value.meaning, canonicalItems_eq_map, itemMeanings_eq_map,
      itemMeanings_eq_map, List.map_map]
    exact congrArg Meaning.list (List.map_congr_left ih)
  | @object levels members _ ih =>
    rw [Value.canonical, Value.meaning, Value.meaning]
    refine congrArg Meaning.object (funext fun name => ?_)
    rw [memberMeaning?_eq_last?, memberMeaning?_eq_last?, last?_orderMembers, last?_canonicalMembers,
      Option.map_map]
    -- under each name one member is in force, the same before and after the ordering
    refine Option.map_congr ?_
    intro value hValue
    exact ih _ (mem_of_last? hValue)

/-- **Values that mean the same** have one canonical form. -/
theorem canonical_eq (h : v.Fits levels) (hSame : v.meaning = v'.meaning) :
    v.canonical = v'.canonical := by
  -- an item at a place and the last member of a name are both an optional part, which the two values have
  -- or do not have together
  have hParts {o o' : Option Value}
      (ih : ∀ v ∈ o, ∀ {v' : Value}, v.meaning = v'.meaning → v.canonical = v'.canonical)
      (h : o.map Value.meaning = o'.map Value.meaning) :
      o.map Value.canonical = o'.map Value.canonical := by
    cases o with
    | none => rw [Option.map_eq_none_iff.mp h.symm]
    | some v =>
      obtain ⟨v', rfl, hSame⟩ := Option.map_eq_some_iff.mp h.symm
      exact congrArg some (ih v rfl hSame.symm)
  -- on the first value; the meaning tells the kind of the second
  induction h generalizing v' with
  | null | bool | int | text =>
    cases v' <;> cases hSame
    rfl
  | @list levels items _ ih =>
    cases v' with
    | list items' =>
      have hItems : itemMeanings items = itemMeanings items' := Meaning.list.inj hSame
      rw [itemMeanings_eq_map, itemMeanings_eq_map] at hItems
      rw [Value.canonical, Value.canonical, canonicalItems_eq_map, canonicalItems_eq_map]
      refine congrArg Value.list (List.ext_getElem? fun k => ?_)
      have hItem := congrArg (·[k]?) hItems
      simp only [List.getElem?_map] at hItem ⊢
      exact hParts (fun v hv => ih v (List.mem_of_getElem? hv)) hItem
    | _ => cases hSame
  | @object levels members _ ih =>
    cases v' with
    | object members' =>
      have hMembers : memberMeaning? members = memberMeaning? members' := Meaning.object.inj hSame
      rw [Value.canonical, Value.canonical]
      refine congrArg Value.object (orderMembers_congr fun name => ?_)
      have hMember := congrFun hMembers name
      rw [memberMeaning?_eq_last?, memberMeaning?_eq_last?] at hMember
      rw [last?_canonicalMembers, last?_canonicalMembers]
      exact hParts (fun v hv => ih _ (mem_of_last? hv)) hMember
    | _ => cases hSame

/-- The canonical form is its own canonical form. -/
theorem canonical_canonical (h : v.Fits levels) : v.canonical.canonical = v.canonical :=
  h.canonical.canonical_eq h.meaning_canonical

/-- **The canonical texts** of two values are equal exactly when the values mean the same. -/
theorem render_canonical_iff (h : v.Fits levels) (h' : v'.Fits levels) :
    v.canonical.render = v'.canonical.render ↔ v.meaning = v'.meaning := by
  constructor
  · -- the text is read as the document of the canonical form, and this document as the canonical form
    intro hTexts
    have hDocs : v.canonical.doc = v'.canonical.doc := by
      have hRead := read_render h.canonical.integral
      rw [hTexts, read_render h'.canonical.integral] at hRead
      exact congrArg Reading.doc hRead.symm
    have hForms : v.canonical = v'.canonical := by
      have hAny := h.canonical.any_doc
      rw [hDocs, h'.canonical.any_doc] at hAny
      exact Except.ok.inj hAny.symm
    rw [← h.meaning_canonical, hForms, h'.meaning_canonical]
  · exact fun hSame => congrArg Value.render (h.canonical_eq hSame)

end Value.Fits

end BuildQuery.Json
