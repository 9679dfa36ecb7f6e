import BuildQuery.Filter.Meaning
import BuildQuery.Proofs.Chains

/-!
# BuildQuery — which comparison of a filter decides

A chain is judged from left to right. A comparison **ends** the judging when it is the last one, when
it fails in front of `&`, or when it holds in front of `|`; the outcome of the first comparison that
ends it is the outcome of the chain, and no field behind it is looked up.

Main results:

* `judge_filter` — the verdict on a chain, by its first comparison that ends the judging.
* `judge_of_parse` — the same for any filter that is read from a text.
-/

namespace BuildQuery.Filter

open Text

-- ---------------------------------------------------------------------------
-- Comparisons that end the judging
-- ---------------------------------------------------------------------------

/-- A comparison holds when the text of the field is, or is not, exactly the value. -/
def Comparison.Holds (field : String → String) (c : Comparison) : Prop :=
  match c.op with
  | .eq => field c.field = c.value
  | .ne => field c.field ≠ c.value

/-- A comparison is found to hold just when it does. -/
theorem Comparison.holds_iff {field : String → String} {c : Comparison} :
    c.op.holds (field c.field) c.value = true ↔ c.Holds field := by
  unfold Comparison.Holds
  cases c.op <;> simp [CompareOp.holds]

instance (field : String → String) (c : Comparison) : Decidable (c.Holds field) :=
  decidable_of_iff _ Comparison.holds_iff

/-- One comparison looks up its own field and nothing else. -/
theorem Comparison.judge_filter (field : String → String) (c : Comparison) :
    judge field c.filter = ⟨decide (c.Holds field), [c.field]⟩ := by
  rw [Comparison.filter, judge, Verdict.mk.injEq]
  refine ⟨?_, rfl⟩
  rw [Bool.eq_iff_iff, Comparison.holds_iff, decide_eq_true_iff]

namespace Chain

variable {field : String → String}

/-- The comparison at position `i` ends the judging of the chain. -/
def Ends (field : String → String) (ch : Chain) (i : Nat) (c : Comparison) : Prop :=
  ch.comparisons[i]? = some c ∧
    (i + 1 = ch.comparisons.length ∨
      (ch.joins[i]? = some .and ∧ ¬ c.Holds field) ∨ (ch.joins[i]? = some .or ∧ c.Holds field))

/-- The comparison at position `i` is the first that ends the judging of the chain. -/
structure Decides (field : String → String) (ch : Chain) (i : Nat) (c : Comparison) : Prop where
  ends : ch.Ends field i c
  first : ∀ j < i, ∀ d, ¬ ch.Ends field j d

/-- At the start of a longer chain, the comparison ends the judging when its outcome decides the
conjunction behind it. -/
theorem ends_zero_iff {c d : Comparison} {op : JoinOp} {later : Chain} :
    (cons c op later).Ends field 0 d ↔ c = d ∧ decide (d.Holds field) = op.decisive := by
  cases op <;> simp [Ends, comparisons, comparisons_ne_nil, joins, JoinOp.decisive]

/-- Further on, the positions are those of the later chain. -/
theorem ends_succ_iff {c d : Comparison} {op : JoinOp} {later : Chain} {i : Nat} :
    (cons c op later).Ends field (i + 1) d ↔ later.Ends field i d := by
  simp [Ends, comparisons, joins]

-- ---------------------------------------------------------------------------
-- The verdict on a chain
-- ---------------------------------------------------------------------------

/-- **The first comparison that ends the judging decides.** -/
theorem judge_filter (field : String → String) (ch : Chain) :
    ∃ i c, ch.Decides field i c ∧
      judge field ch.filter =
        ⟨decide (c.Holds field), (ch.comparisons.take (i + 1)).map Comparison.field⟩ := by
  have hNoneBefore {P : Nat → Prop} : ∀ j < 0, P j := fun j hj => absurd hj (Nat.not_lt_zero j)
  -- on the chain, whose first comparison is judged before the later ones
  induction ch with
  | single c =>
    exact ⟨0, c, ⟨⟨rfl, Or.inl rfl⟩, hNoneBefore⟩, c.judge_filter field⟩
  | cons c op later ih =>
    rw [filter, judge, c.judge_filter field]
    -- the first comparison decides, or the later chain does, one position further on
    by_cases hDecisive : decide (c.Holds field) = op.decisive
    · refine ⟨0, c, ⟨ends_zero_iff.mpr ⟨rfl, hDecisive⟩, hNoneBefore⟩, ?_⟩
      simp [hDecisive, comparisons]
    · obtain ⟨i, d, hDecides, hVerdict⟩ := ih
      refine ⟨i + 1, d, ⟨ends_succ_iff.mpr hDecides.ends, ?_⟩, ?_⟩
      · intro j hj e hEnds
        cases j with
        | zero =>
          obtain ⟨rfl, hOutcome⟩ := ends_zero_iff.mp hEnds
          exact hDecisive hOutcome
        | succ j => exact hDecides.first j (by omega) e (ends_succ_iff.mp hEnds)
      · rw [if_neg hDecisive, hVerdict]
        rfl

end Chain

/--
**What a filter that is read from text means**, for any way to look up fields and any record. Either
the text is blank, and the record matches without any field looked up, or the text says a chain of
comparisons: the record matches exactly if the first comparison that ends the judging holds, and the
fields looked up are those of the comparisons up to that one, each once and in order.
-/
theorem judge_of_parse {Record : Type} {input : String} {f : Filter} (h : parse input = .ok f)
    (resolve : Record → String → String) (record : Record) :
    (isBlankText input = true ∧ judge (resolve record) f = ⟨true, []⟩) ∨
      ∃ ch : Chain, ch.SaidBy input ∧ ∃ i c, ch.Decides (resolve record) i c ∧
        judge (resolve record) f =
          ⟨decide (c.Holds (resolve record)),
            (ch.comparisons.take (i + 1)).map Comparison.field⟩ := by
  rcases parse_ok h with ⟨hBlank, rfl⟩ | ⟨ch, hSaid, rfl⟩
  · exact Or.inl ⟨hBlank, rfl⟩
  · exact Or.inr ⟨ch, hSaid, ch.judge_filter (resolve record)⟩

/-- A record without the field `b`: all three comparisons are looked at, and the last one decides. -/
theorem judge_of_parse_mixed :
    let resolve := fun (record : List (String × String)) name => (record.lookup name).getD ""
    let record := [("a", "1"), ("c", "3")]
    ∃ f, parse "a=1 & b=2 | c=3" = .ok f ∧
      ∃ ch : Chain, ch.SaidBy "a=1 & b=2 | c=3" ∧ ∃ i c, ch.Decides (resolve record) i c ∧
        c.Holds (resolve record) ∧
        (ch.comparisons.take (i + 1)).map Comparison.field = ["a", "b", "c"] := by
  intro resolve record
  have hParse : parse "a=1 & b=2 | c=3" =
      .ok (.join .and (.compare "a" .eq "1")
        (.join .or (.compare "b" .eq "2") (.compare "c" .eq "3"))) := by decide +kernel
  refine ⟨_, hParse, ?_⟩
  rcases judge_of_parse hParse resolve record with ⟨hBlank, -⟩ | ⟨ch, hSaid, i, c, hDecides, hVerdict⟩
  · exact absurd hBlank (by decide)
  · have hJudge : judge (resolve record) (.join .and (.compare "a" .eq "1")
        (.join .or (.compare "b" .eq "2") (.compare "c" .eq "3"))) = ⟨true, ["a", "b", "c"]⟩ := by
      decide
    rw [hJudge, Verdict.mk.injEq] at hVerdict
    exact ⟨ch, hSaid, i, c, hDecides, of_decide_eq_true hVerdict.1.symm, hVerdict.2.symm⟩

end BuildQuery.Filter
