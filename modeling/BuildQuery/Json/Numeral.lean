import BuildQuery.Decimal.Shortest

/-!
# BuildQuery — numbers of a document

A numeral is a number as it is written. `Numeral.number` gives what it stands for: an integer
literal that fits 64 bits is that integer, and every other numeral is a binary64 number made of its
leading digits and a power of ten; past the largest finite magnitude there is none.
-/

namespace BuildQuery.Json

open Decimal

/-- A number as written: the digits before and after the point, and the exponent. -/
structure Numeral where
  negative : Bool
  whole : List Nat
  fraction : List Nat
  exponent : Option Int
deriving DecidableEq

/-- A number as it is kept: an integer of 64 bits, or a sign and a binary64 magnitude. -/
inductive Number where
  | int (value : Int)
  | float (negative : Bool) (magnitude : Binary64)
deriving DecidableEq

/-- One past the largest significand. -/
def significandLimit : Nat := UInt64.size

/-- The leading digits, as many as make a significand, and how many digits come after them. -/
def leadingDigits (ds : List Nat) : Nat × Nat :=
  ds.foldl (fun (significand, dropped) d =>
    if dropped = 0 ∧ 10 * significand + d < significandLimit
    then (10 * significand + d, 0)
    else (significand, dropped + 1)) (0, 0)

/-- A significand with as many further digits as it can take, and how many they are. -/
def extendDigits (significand : Nat) : List Nat → Nat × Nat
  | [] => (significand, 0)
  | d :: ds =>
    if 10 * significand + d < significandLimit then
      let (longer, count) := extendDigits (10 * significand + d) ds
      (longer, count + 1)
    else (significand, 0)

namespace Numeral

/-- Written with digits only. -/
def isInteger (n : Numeral) : Bool :=
  n.fraction.isEmpty && n.exponent.isNone

/-- The binary64 number that a numeral stands for. -/
def float? (n : Numeral) : Option Number :=
  let (significand, dropped) := leadingDigits n.whole
  let (significand, count) := extendDigits significand n.fraction
  let exponent := (dropped : Int) - count + n.exponent.getD 0
  (Binary64.scaled? significand exponent).map (.float n.negative)

/-- The integer that a numeral stands for, if it is an integer literal that fits 64 bits. Minus zero
is no integer. -/
def int? (n : Numeral) : Option Int :=
  let value := ofDigits n.whole
  if !n.isInteger then none
  else if !n.negative then (if value < UInt64.size then some value else none)
  else if 0 < value ∧ Int64.minValue.toInt ≤ -value then some (-value)
  else none

/-- What a numeral stands for. -/
def number? (n : Numeral) : Option Number :=
  match n.int? with
  | some value => some (.int value)
  | none => n.float?

end Numeral

/-- Floats are positional from `0.00001` up to sixteen digits before the point and otherwise have an
exponent with a sign; a whole number in positional form has one zero after the point. -/
def floatLayout : FloatLayout where
  positionalFrom := -5
  positionalTo := 15
  wholeFraction := ['0']
  plus := ['+']

/-- The characters of a number. -/
def Number.chars : Number → List Char
  | .int value => (intText value).toList
  | .float negative magnitude =>
    (if negative then ['-'] else []) ++ floatLayout.chars magnitude

end BuildQuery.Json
