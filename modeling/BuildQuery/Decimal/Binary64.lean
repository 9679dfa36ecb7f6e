/-!
# BuildQuery — binary64 magnitudes

A finite magnitude of the binary64 format is `mant * 2 ^ exp` with at most 53 bits in `mant` and
`exp ≥ -1074`. Every operation is exact arithmetic on fractions followed by one rounding to the
nearest magnitude, ties to the even one (`ofRatio`). A magnitude past the largest finite one is kept
with its exponent and recognised by `isInfinite`.
-/

namespace BuildQuery.Decimal

/-- A magnitude `mant * 2 ^ exp`. -/
structure Binary64 where
  mant : Nat
  exp : Int
deriving DecidableEq

namespace Binary64

/-- The smallest exponent. -/
def minExp : Int := -1074

/-- The numerator of a magnitude as a fraction. -/
def num (x : Binary64) : Nat := x.mant * Nat.pow 2 x.exp.toNat

/-- The denominator of a magnitude as a fraction. -/
def den (x : Binary64) : Nat := Nat.pow 2 (-x.exp).toNat

/-- The quotient rounded to the nearest number, a tie to the even one. -/
def roundDiv (n d : Nat) : Nat :=
  let q := n / d
  let r := n % d
  if d < 2 * r ∨ (2 * r = d ∧ q % 2 = 1) then q + 1 else q

/-- The fraction `n / d` in units of `2 ^ exp`, rounded. -/
def inUnits (n d : Nat) (exp : Int) : Nat :=
  roundDiv (n * Nat.pow 2 (-exp).toNat) (d * Nat.pow 2 exp.toNat)

/-- The exponent at which `n / d` has 53 bits, or the smallest exponent. -/
def exponentFor (n d : Nat) : Int :=
  let guess : Int := (Nat.log2 n : Int) - (Nat.log2 d : Int) - 52
  let exp := if n * Nat.pow 2 (-guess).toNat < Nat.pow 2 52 * (d * Nat.pow 2 guess.toNat)
    then guess - 1
    else guess
  max exp minExp

/-- The magnitude nearest to the fraction `n / d`. -/
def ofRatio (n d : Nat) : Binary64 :=
  if n = 0 then ⟨0, minExp⟩
  else
    let exp := exponentFor n d
    let mant := inUnits n d exp
    if mant = Nat.pow 2 53 then ⟨Nat.pow 2 52, exp + 1⟩ else ⟨mant, exp⟩

/-- The magnitude nearest to a number. -/
def ofNat (n : Nat) : Binary64 := ofRatio n 1

def mul (x y : Binary64) : Binary64 := ofRatio (x.num * y.num) (x.den * y.den)

def div (x y : Binary64) : Binary64 := ofRatio (x.num * y.den) (x.den * y.num)

def isZero (x : Binary64) : Bool := x.mant == 0

/-- Past the largest finite magnitude. -/
def isInfinite (x : Binary64) : Bool := x.exp > 971

/-- The largest power of ten that is a magnitude of its own. -/
def maxPower : Nat := 308

/-- The magnitude of a power of ten. -/
def power (k : Nat) : Binary64 := ofNat (Nat.pow 10 k)

/-- The magnitude `x` divided by a power of ten, in as few divisions as there are powers. -/
def shrink (x : Binary64) (k : Nat) : Binary64 :=
  if k ≤ maxPower then x.div (power k)
  else if x.isZero then x
  else shrink (x.div (power maxPower)) (k - maxPower)
termination_by k
decreasing_by simp only [maxPower] at *; omega

/-- The magnitude `significand * 10 ^ exponent`: the significand is rounded first and then
multiplied or divided by a rounded power of ten. There is none past the largest finite magnitude. -/
def scaled? (significand : Nat) (exponent : Int) : Option Binary64 :=
  let x := ofNat significand
  if exponent < 0 then some (x.shrink exponent.natAbs)
  else if exponent.natAbs ≤ maxPower then
    let y := x.mul (power exponent.natAbs)
    if y.isInfinite then none else some y
  else if x.isZero then some x
  else none

end Binary64

end BuildQuery.Decimal
