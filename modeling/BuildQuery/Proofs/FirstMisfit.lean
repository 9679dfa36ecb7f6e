import BuildQuery.Proofs.Grouping

/-!
# BuildQuery — the group of tokens that does not fit

Tokens that are no filter are read group by group: three for a comparison and one for the conjunction
behind it, with a shorter group at the end, or an empty one behind a conjunction. The first group that
does not fit decides the error. Too few tokens are found before a wrong comparison, and a wrong
comparison before a wrong conjunction; the groups behind are not looked at.

Main results:

* `chain_error_iff` — tokens are refused for the first group that does not fit.
* `ofTokens_first_misfit` — every list of tokens outside of the grammar has such a group, and no other
  group counts.
-/

namespace BuildQuery.Filter

-- ---------------------------------------------------------------------------
-- Groups
-- ---------------------------------------------------------------------------

/-- The tokens in groups of four. The last group is shorter, and empty when nothing is left for it. -/
def groups : List Token → List (List Token)
  | field :: op :: value :: conj :: rest => [field, op, value, conj] :: groups rest
  | tokens => [tokens]

/-- Only no tokens at all begin with an empty group. -/
theorem eq_nil_of_groups {tokens : List Token} {later : List (List Token)}
    (h : groups tokens = [] :: later) : tokens = [] := by
  unfold groups at h
  split at h
  · cases h
  · cases h
    rfl

/-- Three tokens that are a comparison, by their kinds. -/
def Compares (field op value : Token) : Prop :=
  field.kind = .ident ∧ (op.kind = .equal ∨ op.kind = .notEqual) ∧ value.kind = .ident

/-- A token that is a conjunction, by its kind. -/
def Token.Joins (t : Token) : Prop :=
  t.kind = .and ∨ t.kind = .or

/-- A group with a comparison and a conjunction, after which there has to be another one. -/
inductive Fits : List Token → Prop
  | comparison {field op value conj : Token} (hCompares : Compares field op value)
      (hJoins : conj.Joins) : Fits [field, op, value, conj]

/-- A group that does not fit, and the error that says so. -/
inductive Misfits : List Token → QueryError → Prop
  | tooShort {group : List Token} (hShort : group.length < 3) : Misfits group (.incomplete group)
  | noComparison {field op value : Token} (rest : List Token) (hNot : ¬ Compares field op value) :
      Misfits (field :: op :: value :: rest) (.invalidComparison [field, op, value])
  | noConjunction {field op value conj : Token} (hCompares : Compares field op value)
      (hNot : ¬ conj.Joins) : Misfits [field, op, value, conj] (.invalidConjunction conj)

/-- One of some groups does not fit, for this error, and all before it do. -/
def FirstMisfit (gs : List (List Token)) (e : QueryError) : Prop :=
  ∃ before group after, gs = before ++ group :: after ∧ (∀ g ∈ before, Fits g) ∧ Misfits group e

theorem not_firstMisfit_nil (e : QueryError) : ¬ FirstMisfit [] e := by
  rintro ⟨before, group, after, hSplit, -⟩
  simp at hSplit

/-- The first misfit is the first group, or it is behind a first group that fits. -/
theorem firstMisfit_cons_iff {g : List Token} {gs : List (List Token)} {e : QueryError} :
    FirstMisfit (g :: gs) e ↔ Misfits g e ∨ (Fits g ∧ FirstMisfit gs e) := by
  constructor
  · rintro ⟨before, group, after, hSplit, hBefore, hGroup⟩
    cases before with
    | nil =>
      cases hSplit
      exact Or.inl hGroup
    | cons first before =>
      cases hSplit
      rw [List.forall_mem_cons] at hBefore
      exact Or.inr ⟨hBefore.1, before, group, after, rfl, hBefore.2, hGroup⟩
  · rintro (hFirst | ⟨hFits, before, group, after, rfl, hBefore, hGroup⟩)
    · exact ⟨[], g, gs, rfl, by simp, hFirst⟩
    · exact ⟨g :: before, group, after, rfl, List.forall_mem_cons.mpr ⟨hFits, hBefore⟩, hGroup⟩

-- ---------------------------------------------------------------------------
-- One group
-- ---------------------------------------------------------------------------

/-- What does not join is no conjunction. -/
theorem joinOp?_eq_none_iff {t : Token} : t.kind.joinOp? = none ↔ ¬ t.Joins := by
  unfold Token.Joins
  cases t.kind <;> simp [TokenKind.joinOp?]

/-- Three tokens are refused when they are no comparison, with one error for all reasons. -/
theorem comparison_error_iff {field op value : Token} {e : QueryError} :
    comparison field op value = .error e ↔
      ¬ Compares field op value ∧ e = .invalidComparison [field, op, value] := by
  unfold comparison Compares
  cases field.kind <;> cases op.kind <;> cases value.kind <;>
    simp [TokenKind.compareOp?, eq_comm]

/-- Three tokens are a comparison when they can be read as one. -/
theorem compares_iff {field op value : Token} :
    Compares field op value ↔ ∃ f, comparison field op value = .ok f := by
  constructor
  · intro hCompares
    cases hFound : comparison field op value with
    | ok f => exact ⟨f, rfl⟩
    | error e => exact absurd hCompares (comparison_error_iff.mp hFound).1
  · rintro ⟨f, hFound⟩
    by_contra hNot
    rw [comparison_error_iff.mpr ⟨hNot, rfl⟩] at hFound
    cases hFound

-- ---------------------------------------------------------------------------
-- All groups
-- ---------------------------------------------------------------------------

/-- **Tokens are refused for the first group that does not fit.** -/
theorem chain_error_iff {tokens : List Token} {e : QueryError} :
    chain tokens = .error e ↔ FirstMisfit (groups tokens) e := by
  -- on the reading: one comparison, a comparison with a conjunction and more behind it, or fewer than three
  -- tokens
  fun_induction chain tokens generalizing e with
  | case1 field op value =>
    have hOnly : FirstMisfit [[field, op, value]] e ↔ Misfits [field, op, value] e := by
      rw [firstMisfit_cons_iff, or_iff_left (fun h => not_firstMisfit_nil e h.2)]
    show _ ↔ FirstMisfit [[field, op, value]] e
    rw [hOnly, comparison_error_iff]
    constructor
    · rintro ⟨hNot, rfl⟩
      exact .noComparison [] hNot
    · intro hMisfits
      cases hMisfits with
      | tooShort hShort => exact absurd hShort (by simp)
      | noComparison _ hNot => exact ⟨hNot, rfl⟩
  | case2 field op value conj rest ih =>
    show _ ↔ FirstMisfit ([field, op, value, conj] :: groups rest) e
    rw [firstMisfit_cons_iff, bind_eq_error]
    constructor
    · -- the comparison is read first, then the conjunction, then what is behind: in this order they fail
      rintro (hComparison | ⟨left, hLeft, hRest⟩)
      · obtain ⟨hNot, rfl⟩ := comparison_error_iff.mp hComparison
        exact Or.inl (.noComparison [conj] hNot)
      · have hCompares : Compares field op value := compares_iff.mpr ⟨left, hLeft⟩
        split at hRest
        case h_1 hNone =>
          cases hRest
          exact Or.inl (.noConjunction hCompares (joinOp?_eq_none_iff.mp hNone))
        case h_2 join hSome =>
          have hJoins : conj.Joins := by
            by_contra hNot
            rw [joinOp?_eq_none_iff.mpr hNot] at hSome
            cases hSome
          rcases bind_eq_error.mp hRest with hError | ⟨right, -, hRight⟩
          · exact Or.inr ⟨.comparison hCompares hJoins, ih.mp hError⟩
          · cases hRight
    · rintro (hMisfits | ⟨hFits, hLater⟩)
      · cases hMisfits with
        | tooShort hShort => exact absurd hShort (by simp)
        | noComparison _ hNot => exact Or.inl (comparison_error_iff.mpr ⟨hNot, rfl⟩)
        | noConjunction hCompares hNot =>
          obtain ⟨left, hLeft⟩ := compares_iff.mp hCompares
          refine Or.inr ⟨left, hLeft, ?_⟩
          rw [joinOp?_eq_none_iff.mpr hNot]
      · cases hFits with
        | comparison hCompares hJoins =>
          obtain ⟨left, hLeft⟩ := compares_iff.mp hCompares
          refine Or.inr ⟨left, hLeft, ?_⟩
          split
          case h_1 hNone => exact absurd hJoins (joinOp?_eq_none_iff.mp hNone)
          case h_2 => exact bind_eq_error.mpr (Or.inl (ih.mpr hLater))
  | case3 tokens hNotThree hNotMore =>
    -- fewer than three tokens are the only group, and are too few
    have hShort : tokens.length < 3 := by
      match tokens, hNotThree, hNotMore with
      | [], _, _ => decide
      | [_], _, _ => simp
      | [_, _], _, _ => simp
      | [a, b, c], hNotThree, _ => exact absurd rfl (hNotThree a b c)
      | a :: b :: c :: d :: rest, _, hNotMore => exact absurd rfl (hNotMore a b c d rest)
    have hGroups : groups tokens = [tokens] := by
      rw [groups]
      exact hNotMore
    rw [hGroups, firstMisfit_cons_iff, or_iff_left (fun h => not_firstMisfit_nil e h.2)]
    constructor
    · intro hError
      cases hError
      exact .tooShort hShort
    · intro hMisfits
      cases hMisfits with
      | tooShort _ => rfl
      | noComparison rest _ => exact absurd hShort (by simp)
      | noConjunction _ _ => exact absurd hShort (by simp)

/-- Tokens that are read have the kinds of the grammar. -/
theorem kinds_of_ofTokens {tokens : List Token} {f : Filter} (h : ofTokens tokens = .ok f) :
    tokens.map Token.kind ∈ filterKinds.matches' := by
  have hKinds : tokens.map Token.kind = (tokens.map Token.mark).map Mark.kind := by
    rw [List.map_map]
    exact List.map_congr_left fun t _ => t.kind_mark.symm
  rw [hKinds, mem_filterKinds_iff]
  rcases ofTokens_ok_iff_chain.mp h with ⟨rfl, -⟩ | ⟨ch, hMarks, -⟩
  · exact Or.inl rfl
  · exact Or.inr ⟨ch, hMarks⟩

theorem ofTokens_of_ne_nil {tokens : List Token} (h : tokens ≠ []) : ofTokens tokens = chain tokens := by
  cases tokens with
  | nil => exact absurd rfl h
  | cons t tokens => rfl

/-- **The first group that does not fit decides.** Tokens outside of the grammar have a group that does
not fit behind groups that do, and the error is the one for this group. It is the same for all tokens
with these groups, whatever follows them. The error lists the tokens that it is about by their texts. -/
theorem ofTokens_first_misfit {tokens : List Token}
    (h : tokens.map Token.kind ∉ filterKinds.matches') :
    ∃ before group after e, groups tokens = before ++ group :: after ∧ (∀ g ∈ before, Fits g) ∧
      Misfits group e ∧ ofTokens tokens = .error e ∧
      (∀ tokens' after', groups tokens' = before ++ group :: after' → ofTokens tokens' = .error e) ∧
      ∀ ts t, (QueryError.incomplete ts).message = "Invalid expression: " ++ listing ts ∧
        (QueryError.invalidComparison ts).message = "Invalid comparison expression: " ++ listing ts ∧
        (QueryError.invalidConjunction t).message = "Invalid conjugation operator: " ++ t.text ∧
        listing ts = "[" ++ " ".intercalate (ts.map Token.text) ++ "]" := by
  have hSome : tokens ≠ [] := by
    rintro rfl
    exact h (kinds_of_ofTokens rfl)
  obtain ⟨e, hError⟩ : ∃ e, ofTokens tokens = .error e := by
    cases hRead : ofTokens tokens with
    | ok f => exact absurd (kinds_of_ofTokens hRead) h
    | error e => exact ⟨e, rfl⟩
  have hChain : chain tokens = .error e := (ofTokens_of_ne_nil hSome).symm.trans hError
  obtain ⟨before, group, after, hSplit, hBefore, hGroup⟩ := chain_error_iff.mp hChain
  refine ⟨before, group, after, e, hSplit, hBefore, hGroup, hError, ?_, fun _ _ => ⟨rfl, rfl, rfl, rfl⟩⟩
  intro tokens' after' hSplit'
  have hChain' : chain tokens' = .error e :=
    chain_error_iff.mpr ⟨before, group, after', hSplit', hBefore, hGroup⟩
  have hSome' : tokens' ≠ [] := by
    -- no tokens are one empty group, and tokens that begin with it are none
    rintro rfl
    cases before with
    | nil =>
      cases hSplit'
      exact hSome (eq_nil_of_groups hSplit)
    | cons first before => simp [groups] at hSplit'
  rw [ofTokens_of_ne_nil hSome', hChain']

/-- A name where a conjunction is expected, with too few tokens behind its group. -/
theorem ofTokens_first_misfit_name :
    let tokens : List Token := [⟨.ident, "a", 0⟩, ⟨.equal, "=", 1⟩, ⟨.ident, "b", 2⟩, ⟨.and, "&", 3⟩,
      ⟨.ident, "c", 4⟩, ⟨.notEqual, "", 5⟩, ⟨.ident, "d e", 5⟩, ⟨.ident, "&", 8⟩, ⟨.or, "|", 9⟩]
    tokens.map Token.kind ∉ filterKinds.matches' ∧
      ∃ before group after, groups tokens = before ++ group :: after ∧ (∀ g ∈ before, Fits g) ∧
        Misfits group (.invalidConjunction ⟨.ident, "&", 8⟩) := by
  intro tokens
  have hOutside : tokens.map Token.kind ∉ filterKinds.matches' := by decide
  have hRead : ofTokens tokens = .error (.invalidConjunction ⟨.ident, "&", 8⟩) := by decide
  obtain ⟨before, group, after, e, hSplit, hBefore, hGroup, hError, -⟩ := ofTokens_first_misfit hOutside
  rw [← Except.error.inj (hRead.symm.trans hError)] at hGroup
  exact ⟨hOutside, before, group, after, hSplit, hBefore, hGroup⟩

end BuildQuery.Filter
