import BuildQuery.Filter.Meaning

/-!
# BuildQuery — dual filters and regrouped filters

The dual of a filter has the other comparison and the other conjunction everywhere. It decides a record
the other way round, and not later: the outcome of a left side that decides a conjunction is turned round
together with the conjunction, so the dual one is decided by the same left side. The filter that matches
all has no dual of this kind, and filters that hold it are left out (`Discerns`).

Under one conjunction it does not matter how three sides are grouped (`Regrouped`). Nothing is assumed of
the shape of the filters: joined filters may stand on the left sides too, where the grammar puts none.

Main results:

* `judge_dual` — the verdict of the dual filter.
* `judge_of_regrouped` — the verdict of a regrouped filter.
* `judge_dual_and_regrouped` — both together.
-/

namespace BuildQuery.Filter

-- ---------------------------------------------------------------------------
-- Dual filters
-- ---------------------------------------------------------------------------

/-- The other comparison. -/
def CompareOp.dual : CompareOp → CompareOp
  | .eq => .ne
  | .ne => .eq

/-- The other conjunction. -/
def JoinOp.dual : JoinOp → JoinOp
  | .and => .or
  | .or => .and

/-- The filter with the other comparison and the other conjunction everywhere. -/
def dual : Filter → Filter
  | .all => .all
  | .compare field op value => .compare field op.dual value
  | .join op left right => .join op.dual left.dual right.dual

/-- A filter that is made of comparisons only: no part of it matches all. -/
inductive Discerns : Filter → Prop
  | compare (field : String) (op : CompareOp) (value : String) : Discerns (.compare field op value)
  | join (op : JoinOp) {left right : Filter} (hLeft : Discerns left) (hRight : Discerns right) :
      Discerns (.join op left right)

/-- The other outcome, after the same look-ups. -/
def Verdict.opposite (v : Verdict) : Verdict :=
  { v with matched := !v.matched }

/-- The other comparison holds just when this one does not. -/
theorem CompareOp.holds_dual (op : CompareOp) (found value : String) :
    op.dual.holds found value = !op.holds found value := by
  cases op with
  | eq => rfl
  | ne => exact (Bool.not_not _).symm

/-- The outcome that decides a conjunction does not decide the other one. -/
theorem JoinOp.decisive_dual (op : JoinOp) : op.dual.decisive = !op.decisive := by
  cases op <;> rfl

-- ---------------------------------------------------------------------------
-- The verdict on a conjunction
-- ---------------------------------------------------------------------------

variable {field : String → String} {op : JoinOp} {left right : Filter}

/-- A left side that decides the conjunction is all that is judged. -/
theorem judge_join_decided (h : (judge field left).matched = op.decisive) :
    judge field (.join op left right) = judge field left :=
  if_pos h

/-- Otherwise both sides are looked at, and the right one decides. -/
theorem judge_join_open (h : (judge field left).matched ≠ op.decisive) :
    judge field (.join op left right) =
      ⟨(judge field right).matched, (judge field left).resolved ++ (judge field right).resolved⟩ :=
  if_neg h

/-- **The dual filter** has the opposite outcome after the same look-ups. -/
theorem judge_dual (field : String → String) {f : Filter} (h : f.Discerns) :
    judge field f.dual = (judge field f).opposite := by
  induction h with
  | compare name op value =>
    show (⟨op.dual.holds (field name) value, [name]⟩ : Verdict) = _
    rw [CompareOp.holds_dual]
    rfl
  | @join op left right _ _ ihLeft ihRight =>
    have hMatched : (judge field left.dual).matched = !(judge field left).matched := by
      rw [ihLeft]
      rfl
    rw [dual]
    -- the dual of the left side decides the dual conjunction just when the left side decides this one
    by_cases hDecided : (judge field left).matched = op.decisive
    · have hDual : (judge field left.dual).matched = op.dual.decisive := by
        rw [hMatched, hDecided, JoinOp.decisive_dual]
      rw [judge_join_decided hDual, judge_join_decided hDecided, ihLeft]
    · have hDual : (judge field left.dual).matched ≠ op.dual.decisive := by
        rw [hMatched, JoinOp.decisive_dual]
        exact fun hSame => hDecided (Bool.not_inj hSame)
      rw [judge_join_open hDual, judge_join_open hDecided, ihLeft, ihRight]
      rfl

-- ---------------------------------------------------------------------------
-- Regrouped filters
-- ---------------------------------------------------------------------------

/-- Filters that differ in the grouping of sides under one conjunction, at any places. -/
inductive Regrouped : Filter → Filter → Prop
  | rotate (op : JoinOp) (x y z : Filter) :
      Regrouped (.join op (.join op x y) z) (.join op x (.join op y z))
  | join (op : JoinOp) {left left' right right' : Filter} (hLeft : Regrouped left left')
      (hRight : Regrouped right right') : Regrouped (.join op left right) (.join op left' right')
  | refl (f : Filter) : Regrouped f f
  | symm {f g : Filter} (h : Regrouped f g) : Regrouped g f
  | trans {f g k : Filter} (h : Regrouped f g) (h' : Regrouped g k) : Regrouped f k

/-- Grouped to the left or to the right, three sides are looked at up to the same one. -/
theorem judge_rotate (field : String → String) (op : JoinOp) (x y z : Filter) :
    judge field (.join op (.join op x y) z) = judge field (.join op x (.join op y z)) := by
  -- one conjunction all over: the first of the three sides that decides it ends both groupings
  by_cases hx : (judge field x).matched = op.decisive
  · have hxy : judge field (.join op x y) = judge field x := judge_join_decided hx
    rw [judge_join_decided hx, judge_join_decided (hxy ▸ hx), hxy]
  · have hxy : judge field (.join op x y) =
        ⟨(judge field y).matched, (judge field x).resolved ++ (judge field y).resolved⟩ :=
      judge_join_open hx
    rw [judge_join_open hx]
    by_cases hy : (judge field y).matched = op.decisive
    · rw [judge_join_decided (hxy ▸ hy), hxy, judge_join_decided hy]
    · rw [judge_join_open (hxy ▸ hy), hxy, judge_join_open hy, List.append_assoc]

/-- **A regrouped filter** has the same outcome after the same look-ups. -/
theorem judge_of_regrouped (field : String → String) {f g : Filter} (h : Regrouped f g) :
    judge field g = judge field f := by
  induction h with
  | rotate op x y z => exact (judge_rotate field op x y z).symm
  | join op _ _ ihLeft ihRight => rw [judge, judge, ihLeft, ihRight]
  | refl f => rfl
  | symm _ ih => exact ih.symm
  | trans _ _ ih ih' => exact ih'.trans ih

-- ---------------------------------------------------------------------------
-- Both
-- ---------------------------------------------------------------------------

/--
**Duals and groupings**, for any way to look up fields and any record. The dual of a filter that is made
of comparisons matches exactly if the filter does not, and a regrouped filter matches exactly if the filter
does. Both look up the same fields as the filter, in the same order.
-/
theorem judge_dual_and_regrouped {Record : Type} (resolve : Record → String → String)
    (record : Record) (f : Filter) :
    (f.Discerns →
        (judge (resolve record) f.dual).matched = !(judge (resolve record) f).matched ∧
          (judge (resolve record) f.dual).resolved = (judge (resolve record) f).resolved) ∧
      ∀ g, Regrouped f g →
        (judge (resolve record) g).matched = (judge (resolve record) f).matched ∧
          (judge (resolve record) g).resolved = (judge (resolve record) f).resolved := by
  refine ⟨?_, ?_⟩
  · intro hDiscerns
    rw [judge_dual _ hDiscerns]
    exact ⟨rfl, rfl⟩
  · intro g hRegrouped
    rw [judge_of_regrouped _ hRegrouped]
    exact ⟨rfl, rfl⟩

/-- A filter with joined left sides, on a record where its third comparison is not reached. -/
theorem judge_dual_and_regrouped_nested :
    let resolve := fun (record : List (String × String)) name => (record.lookup name).getD ""
    let record := [("a", "1"), ("b", "2")]
    let inner := join .and (join .and (compare "a" .eq "1") (compare "b" .ne "2")) (compare "c" .eq "")
    let regrouped := join .and (compare "a" .eq "1") (join .and (compare "b" .ne "2") (compare "c" .eq ""))
    let f := join .or inner (compare "d" .eq "")
    let g := join .or regrouped (compare "d" .eq "")
    f.Discerns ∧ Regrouped f g ∧ judge (resolve record) f = ⟨true, ["a", "b", "d"]⟩ ∧
      (judge (resolve record) f.dual).matched = false ∧
      (judge (resolve record) f.dual).resolved = ["a", "b", "d"] ∧
      (judge (resolve record) g).matched = true ∧
      (judge (resolve record) g).resolved = ["a", "b", "d"] := by
  intro resolve record inner regrouped f g
  have hDiscerns : f.Discerns :=
    .join _ (.join _ (.join _ (.compare _ _ _) (.compare _ _ _)) (.compare _ _ _)) (.compare _ _ _)
  have hRegrouped : Regrouped f g := .join _ (.rotate _ _ _ _) (.refl _)
  have hJudge : judge (resolve record) f = ⟨true, ["a", "b", "d"]⟩ := by decide
  obtain ⟨hDual, hSame⟩ := judge_dual_and_regrouped resolve record f
  rw [hJudge] at hDual hSame
  exact ⟨hDiscerns, hRegrouped, hJudge, (hDual hDiscerns).1, (hDual hDiscerns).2,
    (hSame g hRegrouped).1, (hSame g hRegrouped).2⟩

end BuildQuery.Filter
