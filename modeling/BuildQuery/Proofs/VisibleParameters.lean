import BuildQuery.Build.Fields
import BuildQuery.Filter.Meaning
import Mathlib.Data.List.Basic

/-!
# BuildQuery — what a filter sees of a build

A filter looks up fields by name, and of the actions of a build it sees very little: the parameters that
are the first of their name, unless an attribute has the name. An empty one is not told from one that is
not there. So a build can be exchanged for the one with a single action that holds just these parameters
(`Build.flattened`), and a filter cannot tell them apart.

Two of the attributes have two names each. A filter may use either name, at every comparison anew
(`Filter.Renamed`).

Main results:

* `Build.field_flattened` — the exchanged build has the same fields.
* `Filter.matched_of_renamed` — the outcome does not depend on the names that are used.
* `Filter.selects_flattened_renamed` — both for the builds that a filter selects.
-/

namespace BuildQuery

-- ---------------------------------------------------------------------------
-- The parameters in one list
-- ---------------------------------------------------------------------------

namespace Build

/-- A filter can look up the parameter: no attribute has its name, and its value is not empty. -/
def IsVisible (p : Parameter) : Prop :=
  p.name ∉ attributeNames ∧ p.value ≠ ""

instance (p : Parameter) : Decidable (IsVisible p) := inferInstanceAs (Decidable (_ ∧ _))

/-- Of the parameters that are the first of their name, the visible ones. -/
def visibleOf (parameters : List Parameter) : List Parameter :=
  (parameters.eraseDupsBy fun p q => p.name == q.name).filter fun p => IsVisible p

/-- The build with one action, which holds the parameters that a filter can see. -/
def flattened (build : Build) : Build :=
  { build with actions := [.parameters (visibleOf build.parameters)] }

variable {name : String} {p : Parameter} {ps : List Parameter}

/-- The first parameter has the name. -/
theorem firstValue?_cons_of_eq (h : p.name = name) : firstValue? name (p :: ps) = some p.value := by
  simp [firstValue?, h]

/-- A first parameter of another name is passed over. -/
theorem firstValue?_cons_of_ne (h : p.name ≠ name) :
    firstValue? name (p :: ps) = firstValue? name ps := by
  simp [firstValue?, h]

/-- No parameter has the name. -/
theorem firstValue?_of_forall_ne (h : ∀ p ∈ ps, p.name ≠ name) : firstValue? name ps = none := by
  have hNone : (ps.find? fun p => p.name == name) = none :=
    List.find?_eq_none.mpr fun p hp hSame => h p hp (beq_iff_eq.mp hSame)
  rw [firstValue?, hNone]
  rfl

/-- The parameters of a list that have another name than this one. -/
def others (p : Parameter) (ps : List Parameter) : List Parameter :=
  ps.filter fun q => decide (q.name ≠ p.name)

/-- What holds of a list if it holds of the parameters of other names behind its first one. -/
theorem others_induction {motive : List Parameter → Prop} (nil : motive [])
    (cons : ∀ p ps, motive (others p ps) → motive (p :: ps)) (ps : List Parameter) : motive ps := by
  induction hLength : ps.length using Nat.strongRecOn generalizing ps with
  | _ n ih =>
    cases ps with
    | nil => exact nil
    | cons p ps =>
      have hShorter : (others p ps).length ≤ ps.length := List.length_filter_le _ ps
      rw [List.length_cons] at hLength
      exact cons p ps (ih _ (by omega) _ rfl)

/-- Parameters of another name do not matter. -/
theorem firstValue?_others (h : p.name ≠ name) : firstValue? name (others p ps) = firstValue? name ps := by
  have hSame : ∀ q : Parameter, (decide (q.name ≠ p.name) = true ∧ (q.name == name) = true) ↔
      (q.name == name) = true := by
    intro q
    simp only [decide_eq_true_eq, beq_iff_eq, and_iff_right_iff_imp]
    rintro rfl
    exact h.symm
  rw [firstValue?, others, List.find?_filter, firstValue?]
  simp only [hSame, Bool.decide_eq_true]

/-- The first parameter of a list is in question on its own, and behind it the parameters of other names
are. -/
theorem visibleOf_cons (p : Parameter) (ps : List Parameter) :
    visibleOf (p :: ps) =
      if IsVisible p then p :: visibleOf (others p ps) else visibleOf (others p ps) := by
  have hOthers : (fun q : Parameter => decide ((q.name == p.name) = false)) =
      fun q => decide (q.name ≠ p.name) := by
    funext q
    simp only [beq_eq_false_iff_ne, ne_eq]
  rw [visibleOf, List.eraseDupsBy_cons, hOthers, List.filter_cons]
  simp only [decide_eq_true_eq]
  rfl

/-- The visible parameters are some of the parameters. -/
theorem visibleOf_subset (ps : List Parameter) : visibleOf ps ⊆ ps := by
  induction ps using others_induction with
  | nil => exact List.Subset.refl _
  | cons p ps ih =>
    have hLater : visibleOf (others p ps) ⊆ ps := List.Subset.trans ih List.filter_sublist.subset
    rw [visibleOf_cons]
    split
    · exact List.cons_subset_cons p hLater
    · exact List.Subset.trans hLater (List.subset_cons_self p ps)

/-- **Under a name that is no attribute's**, the visible parameters have the same text. -/
theorem firstValue?_visibleOf (hName : name ∉ attributeNames) (ps : List Parameter) :
    (firstValue? name (visibleOf ps)).getD "" = (firstValue? name ps).getD "" := by
  induction ps using others_induction with
  | nil => rfl
  | cons p ps ih =>
    rw [visibleOf_cons]
    -- the first parameter has the name, and then it decides, visible or not
    by_cases hSame : p.name = name
    · rw [firstValue?_cons_of_eq hSame]
      split
      · rw [firstValue?_cons_of_eq hSame]
      · next hHidden =>
        -- no later parameter has the name, and an empty text is what a missing one has
        have hEmpty : p.value = "" := by
          by_contra hSome
          exact hHidden ⟨hSame ▸ hName, hSome⟩
        have hNone : firstValue? name (visibleOf (others p ps)) = none := by
          refine firstValue?_of_forall_ne ?_
          intro q hq
          rw [← hSame]
          exact of_decide_eq_true (List.mem_filter.mp (visibleOf_subset _ hq)).2
        rw [hNone, hEmpty]
        rfl
    · rw [firstValue?_others hSame] at ih
      rw [firstValue?_cons_of_ne hSame, ← ih]
      split
      · rw [firstValue?_cons_of_ne hSame]
      · rfl

/-- The first action that has a parameter of the name decides, and so the first parameter of the name
among all. -/
theorem parameter?_eq_firstValue? (build : Build) (name : String) :
    build.parameter? name = firstValue? name build.parameters := by
  rw [firstValue?, parameters, List.find?_flatten, List.map_findSome?]
  rfl

-- ---------------------------------------------------------------------------
-- The fields of the flattened build
-- ---------------------------------------------------------------------------

/-- A name that is no attribute's is looked up among the parameters. -/
theorem field_of_not_attribute (hName : name ∉ attributeNames) (build : Build) :
    build.field name = (build.parameter? name).getD "" := by
  simp only [attributeNames, List.mem_cons, List.not_mem_nil, or_false, not_or] at hName
  unfold field
  split
  case h_7 => rfl
  all_goals simp at hName

/-- The attributes do not depend on the actions. -/
theorem field_of_attribute (hName : name ∈ attributeNames) (build : Build) (actions : List Action) :
    { build with actions := actions }.field name = build.field name := by
  simp only [attributeNames, List.mem_cons, List.not_mem_nil, or_false] at hName
  rcases hName with rfl | rfl | rfl | rfl | rfl | rfl <;> rfl

/-- **The flattened build has the same fields.** -/
theorem field_flattened (build : Build) : build.flattened.field = build.field := by
  funext name
  by_cases hName : name ∈ attributeNames
  · exact field_of_attribute hName build _
  · have hParameters : build.flattened.parameters = visibleOf build.parameters :=
      List.append_nil _
    rw [field_of_not_attribute hName, field_of_not_attribute hName, parameter?_eq_firstValue?,
      parameter?_eq_firstValue?, hParameters, firstValue?_visibleOf hName]

end Build

-- ---------------------------------------------------------------------------
-- Attributes with two names
-- ---------------------------------------------------------------------------

namespace Filter

/-- Two names that name one field in every build. -/
inductive SameField : String → String → Prop
  | refl (name : String) : SameField name name
  | number : SameField "number" "id"
  | id : SameField "id" "number"
  | status : SameField "status" "result"
  | result : SameField "result" "status"

/-- Filters that differ in the names of the fields only, at any comparisons. -/
inductive Renamed : Filter → Filter → Prop
  | all : Renamed .all .all
  | compare {name name' : String} (hName : SameField name name') (op : CompareOp) (value : String) :
      Renamed (.compare name op value) (.compare name' op value)
  | join (op : JoinOp) {left left' right right' : Filter} (hLeft : Renamed left left')
      (hRight : Renamed right right') : Renamed (.join op left right) (.join op left' right')

/-- Both names of an attribute name one field. -/
theorem SameField.field_eq {name name' : String} (h : SameField name name') (build : Build) :
    build.field name' = build.field name := by
  cases h <;> rfl

/-- **The outcome does not depend on the names** under which attributes are looked up. -/
theorem matched_of_renamed (build : Build) {f g : Filter} (h : Renamed f g) :
    (judge build.field g).matched = (judge build.field f).matched := by
  -- on the filters, which differ in names only
  induction h with
  | all => rfl
  | compare hName op value =>
    rw [judge, judge, hName.field_eq]
  | @join op left left' right right' _ _ ihLeft ihRight =>
    rw [judge, judge, ihLeft]
    -- both look at the right side, or both do not
    by_cases hDecided : (judge build.field left).matched = op.decisive
    · simp only [if_pos hDecided, ihLeft]
    · simp only [if_neg hDecided, ihRight]

/--
**What a filter sees of a build.** It selects the build exactly if it selects the flattened one, and with
other names for the attributes it selects the same builds.
-/
theorem selects_flattened_renamed (build : Build) (f : Filter) :
    f.selects build.flattened.field = f.selects build.field ∧
      ∀ g, Renamed f g → g.selects build.field = f.selects build.field := by
  refine ⟨?_, fun g hRenamed => matched_of_renamed build hRenamed⟩
  rw [Build.field_flattened]

/-- Two actions with parameters, of which one is named like an attribute, one is empty, and one is a second
one of its name. -/
theorem selects_flattened_renamed_two_actions :
    let build : Build := ⟨"7", none, .success, "", [.parameters [⟨"id", "8"⟩, ⟨"a", ""⟩, ⟨"b", "1"⟩],
      .other none, .parameters [⟨"a", "2"⟩, ⟨"c", "3"⟩]], 0⟩
    let f := join .and (join .and (compare "id" .eq "7") (compare "a" .ne "2"))
      (join .or (compare "status" .eq "FAILURE") (compare "c" .eq "3"))
    let g := join .and (join .and (compare "number" .eq "7") (compare "a" .ne "2"))
      (join .or (compare "status" .eq "FAILURE") (compare "c" .eq "3"))
    build.flattened.actions = [.parameters [⟨"b", "1"⟩, ⟨"c", "3"⟩]] ∧ Renamed f g ∧
      f.selects build.field = true ∧ f.selects build.flattened.field = true ∧
      g.selects build.field = true := by
  intro build f g
  have hRenamed : Renamed f g := by
    refine .join _ (.join _ (.compare .id _ _) (.compare (.refl _) _ _)) ?_
    exact .join _ (.compare (.refl _) _ _) (.compare (.refl _) _ _)
  have hSelects : f.selects build.field = true := by decide
  obtain ⟨hFlattened, hSame⟩ := selects_flattened_renamed build f
  exact ⟨by decide, hRenamed, hSelects, hFlattened.trans hSelects, (hSame g hRenamed).trans hSelects⟩

end Filter

end BuildQuery
