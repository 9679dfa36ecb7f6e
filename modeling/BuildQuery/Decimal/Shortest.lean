import BuildQuery.Decimal.Binary64
import BuildQuery.Decimal.Digits

/-!
# BuildQuery — shortest decimal text of a binary64 magnitude

`shortest` gives the fewest digits that still read as the magnitude: for 1, 2, … 17 digits the two
neighbours of the magnitude on that decimal grid are tested, the first grid with a hit wins, and of
two hits the nearer one. `FloatLayout` says how digits and exponent are written down.
-/

namespace BuildQuery.Decimal

-- ---------------------------------------------------------------------------
-- The digits
-- ---------------------------------------------------------------------------

/-- The exponent of the first decimal digit of the fraction `n / d`. -/
def leadingExponent (n d : Nat) : Int :=
  let exponents := (List.range 640).map fun (j : Nat) => (j : Int) - 330
  (exponents.find? fun k => n * Nat.pow 10 (-(k + 1)).toNat < d * Nat.pow 10 (k + 1).toNat).getD 0

/-- The decimals that read as a magnitude, in quarters of its last unit: from `low` to `high`, ends
included when the magnitude is even. -/
structure Neighbourhood where
  low : Nat
  value : Nat
  high : Nat
  closed : Bool

/-- The decimals that are nearer to the magnitude than to any other one. -/
def neighbourhood (x : Binary64) : Neighbourhood :=
  let low := if x.mant = Nat.pow 2 52 ∧ Binary64.minExp < x.exp
    then 4 * x.mant - 1
    else 4 * x.mant - 2
  ⟨low, 4 * x.mant, 4 * x.mant + 2, x.mant % 2 == 0⟩

/-- The point `c * 10 ^ step` of a decimal grid, if it reads as the magnitude, with its distance. -/
def gridHit (x : Binary64) (step : Int) (c : Nat) : Option (Nat × Nat) :=
  let near := neighbourhood x
  let unit := x.exp - 2
  -- both sides over the common denominator of `10 ^ step` and `2 ^ unit`
  let point := c * Nat.pow 10 step.toNat * Nat.pow 2 (-unit).toNat
  let quarter := Nat.pow 2 unit.toNat * Nat.pow 10 (-step).toNat
  let inside := if near.closed
    then near.low * quarter ≤ point ∧ point ≤ near.high * quarter
    else near.low * quarter < point ∧ point < near.high * quarter
  let value := near.value * quarter
  if inside then some (c, if point ≤ value then value - point else point - value) else none

/-- The nearer of two hits; the even one when they are equally near. -/
def nearer : Option (Nat × Nat) → Option (Nat × Nat) → Option Nat
  | some (a, da), some (b, db) =>
    if da < db then some a else if db < da then some b else if a % 2 = 0 then some a else some b
  | some (a, _), none => some a
  | none, some (b, _) => some b
  | none, none => none

/-- The point of the grid with `count` digits that reads as the magnitude, if there is one. -/
def gridPoint (x : Binary64) (leading : Int) (count : Nat) : Option (Nat × Int) :=
  let step := leading - count + 1
  let c := x.num * Nat.pow 10 (-step).toNat / (x.den * Nat.pow 10 step.toNat)
  (nearer (gridHit x step c) (gridHit x step (c + 1))).map fun hit => (hit, step)

/-- The digits without the zeros at the end. -/
def stripZeros (ds : List Nat) : List Nat :=
  (ds.reverse.dropWhile (· == 0)).reverse

/-- The fewest digits that read as the magnitude, and the exponent of the first digit. -/
def shortest (x : Binary64) : List Nat × Int :=
  let leading := leadingExponent x.num x.den
  match (List.range 17).findSome? fun n => gridPoint x leading (n + 1) with
  | some (c, step) =>
    let ds := digits c
    (stripZeros ds, step + ds.length - 1)
  | none => ([0], 0)

-- ---------------------------------------------------------------------------
-- The text
-- ---------------------------------------------------------------------------

/-- How digits and an exponent are written down. -/
structure FloatLayout where
  /-- The smallest and the largest exponent of the first digit in positional form. -/
  positionalFrom : Int
  positionalTo : Int
  /-- The digits written after the point of a whole number. -/
  wholeFraction : List Char
  /-- The sign written in front of an exponent that is not negative. -/
  plus : List Char

/-- The digits with a point after the first one, if there are more. -/
def mantissaChars : List Char → List Char
  | [] => []
  | [d] => [d]
  | d :: ds => d :: '.' :: ds

/-- The characters of a magnitude. -/
def FloatLayout.chars (layout : FloatLayout) (x : Binary64) : List Char :=
  if x.isZero then '0' :: '.' :: layout.wholeFraction
  else
    let (ds, exponent) := shortest x
    let cs := ds.map digitChar
    if exponent < layout.positionalFrom ∨ layout.positionalTo < exponent then
      let sign := if exponent < 0 then ['-'] else layout.plus
      mantissaChars cs ++ 'e' :: sign ++ Decimal.chars exponent.natAbs
    else if exponent < 0 then
      '0' :: '.' :: List.replicate (exponent.natAbs - 1) '0' ++ cs
    else
      let width := exponent.natAbs + 1
      let whole := cs.take width ++ List.replicate (width - cs.length) '0'
      let fraction := cs.drop width
      whole ++ '.' :: if fraction.isEmpty then layout.wholeFraction else fraction

end BuildQuery.Decimal
