import BuildQuery.Filter.Basic
import BuildQuery.Filter.Token

/-!
# BuildQuery — the grammar of filters

    filter     := nothing | chain
    chain      := comparison | comparison join chain
    comparison := ident (`=` | `!=`) ident
    join       := `&` | `|`

`ofTokens` reads a list of tokens, `parse` a text. The first group of tokens that does not fit
decides the error.
-/

namespace BuildQuery.Filter

/-- The comparison that a token stands for. -/
def TokenKind.compareOp? : TokenKind → Option CompareOp
  | .equal => some .eq
  | .notEqual => some .ne
  | _ => none

/-- The conjunction that a token stands for. -/
def TokenKind.joinOp? : TokenKind → Option JoinOp
  | .and => some .and
  | .or => some .or
  | _ => none

/-- The comparison made of three tokens. -/
def comparison (field op value : Token) : Except QueryError Filter :=
  match field.kind, op.kind.compareOp?, value.kind with
  | .ident, some cmp, .ident => .ok (.compare field.text cmp value.text)
  | _, _, _ => .error (.invalidComparison [field, op, value])

/-- A chain of comparisons, grouped to the right. -/
def chain : List Token → Except QueryError Filter
  | [field, cmp, value] => comparison field cmp value
  | field :: cmp :: value :: conj :: rest => do
    let left ← comparison field cmp value
    match conj.kind.joinOp? with
    | none => .error (.invalidConjunction conj)
    | some op => return .join op left (← chain rest)
  | tokens => .error (.incomplete tokens)

/-- The filter that a list of tokens stands for; no tokens are the filter that matches all. -/
def ofTokens : List Token → Except QueryError Filter
  | [] => .ok .all
  | tokens => chain tokens

/-- The filter that a text stands for. -/
def parse (input : String) : Except QueryError Filter := do
  ofTokens (← tokenize input)

end BuildQuery.Filter
