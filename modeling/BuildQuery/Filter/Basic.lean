/-!
# BuildQuery — filters

A filter selects builds by comparing their fields with texts. Comparisons are joined by `&` and `|`,
which bind equally; a filter that is read from text groups to the right. `Filter.render` is the
canonical text of a filter, with parentheses around a right side that is itself joined.
-/

namespace BuildQuery

namespace Filter

/-- How a field is compared with a text. -/
inductive CompareOp where
  | eq
  | ne
deriving DecidableEq

/-- How two filters are joined. -/
inductive JoinOp where
  | and
  | or
deriving DecidableEq

end Filter

/-- A filter over records that have text fields. -/
inductive Filter where
  /-- Every record matches. -/
  | all
  /-- The text of a field is, or is not, the value. -/
  | compare (field : String) (op : Filter.CompareOp) (value : String)
  /-- Both sides match, or one of them does. -/
  | join (op : Filter.JoinOp) (left right : Filter)
deriving DecidableEq, Inhabited

namespace Filter

/-- How a comparison is written. -/
def CompareOp.symbol : CompareOp → String
  | .eq => "="
  | .ne => "!="

/-- How a conjunction is written. -/
def JoinOp.symbol : JoinOp → String
  | .and => "&"
  | .or => "|"

/-- The filter that every record matches. -/
def isAll : Filter → Bool
  | .all => true
  | _ => false

/-- A filter whose outermost operator joins two filters. -/
def isJoin : Filter → Bool
  | .join .. => true
  | _ => false

/-- The canonical text of a filter. -/
def render : Filter → String
  | .all => "()"
  | .compare field op value => field ++ " " ++ op.symbol ++ " " ++ value
  | .join op left right =>
    let side := if right.isJoin then "(" ++ right.render ++ ")" else right.render
    left.render ++ " " ++ op.symbol ++ " " ++ side

end Filter

end BuildQuery
