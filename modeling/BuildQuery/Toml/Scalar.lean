import BuildQuery.Calendar
import BuildQuery.Toml.Table

/-!
# BuildQuery — bare values of a settings file

A value without quotes or brackets is a truth value, an integer, a fraction or a moment. `bare?`
tells which of them a run of characters is. Integers have 64 bits; a fraction may not be past the
largest finite binary64 number; the parts of a moment have to be in range.
-/

namespace BuildQuery.Toml

open Decimal

-- ---------------------------------------------------------------------------
-- Digits
-- ---------------------------------------------------------------------------

/-- The value of a digit in a base up to sixteen. -/
def digitIn? (base : Nat) (c : Char) : Option Nat :=
  let value :=
    if '0' ≤ c ∧ c ≤ '9' then some (c.toNat - '0'.toNat)
    else if 'a' ≤ c ∧ c ≤ 'f' then some (c.toNat - 'a'.toNat + 10)
    else if 'A' ≤ c ∧ c ≤ 'F' then some (c.toNat - 'A'.toNat + 10)
    else none
  value.filter (· < base)

/-- Digits that may have single underscores between them; there has to be at least one digit. -/
def groupedDigits? (base : Nat) : List Char → Option (List Nat)
  | [] => none
  | [c] => (digitIn? base c).map fun d => [d]
  | c :: '_' :: cs => do return (← digitIn? base c) :: (← groupedDigits? base cs)
  | c :: cs => do return (← digitIn? base c) :: (← groupedDigits? base cs)

/-- The number that digits in a base stand for. -/
def inBase (base : Nat) (ds : List Nat) : Nat :=
  ds.foldl (fun n d => base * n + d) 0

/-- A sign and the characters after it. -/
def signed : List Char → Bool × List Char
  | '+' :: cs => (false, cs)
  | '-' :: cs => (true, cs)
  | cs => (false, cs)

/-- Digits without a zero in front, a single zero apart. -/
def plainDigits? (cs : List Char) : Option (List Nat) := do
  match ← groupedDigits? 10 cs with
  | 0 :: _ :: _ => none
  | ds => some ds

-- ---------------------------------------------------------------------------
-- Integers and fractions
-- ---------------------------------------------------------------------------

/-- An integer of 64 bits. -/
def word? (value : Int) : Option Item :=
  if Int64.minValue.toInt ≤ value ∧ value ≤ Int64.maxValue.toInt then some (.integer value) else none

/-- An integer. Only a decimal one may have a sign. -/
def integer? (cs : List Char) : Option Item := do
  match cs with
  | '0' :: 'x' :: cs => word? (inBase 16 (← groupedDigits? 16 cs))
  | '0' :: 'o' :: cs => word? (inBase 8 (← groupedDigits? 8 cs))
  | '0' :: 'b' :: cs => word? (inBase 2 (← groupedDigits? 2 cs))
  | cs =>
    let (negative, cs) := signed cs
    let value : Int := ofDigits (← plainDigits? cs)
    word? (if negative then -value else value)

/-- The least number that is past the largest finite binary64 number. -/
def infinityFrom : Nat := Nat.pow 2 1024 - Nat.pow 2 970

/-- Whether `significand * 10 ^ exponent` is past the largest finite binary64 number. -/
def isPastFinite (significand : Nat) (exponent : Int) : Bool :=
  let places := (digits significand).length + exponent
  if significand = 0 ∨ places < 300 then false
  else if 320 < places then true
  else infinityFrom * Nat.pow 10 (-exponent).toNat ≤ significand * Nat.pow 10 exponent.toNat

/-- An exponent. -/
def exponent? (cs : List Char) : Option Int := do
  let (negative, cs) := signed cs
  let value : Int := ofDigits (← groupedDigits? 10 cs)
  return if negative then -value else value

/-- The characters before and after the first that satisfies a condition, if there is one. -/
def splitAt? (stop : Char → Bool) (cs : List Char) : List Char × Option (List Char) :=
  match cs.dropWhile (!stop ·) with
  | [] => (cs, none)
  | _ :: after => (cs.takeWhile (!stop ·), some after)

/-- A fraction with digits: it has a point or an exponent. -/
def decimalFraction? (spelling : List Char) : Option Item := do
  let (negative, cs) := signed spelling
  let (mantissa, power) := splitAt? (fun c => c == 'e' || c == 'E') cs
  let (whole, part) := splitAt? (· == '.') mantissa
  let wholeDigits ← plainDigits? whole
  let partDigits ← match part with
    | some part => groupedDigits? 10 part
    | none => some []
  let exponent ← match power with
    | some power => exponent? power
    | none => some 0
  let significand := ofDigits (wholeDigits ++ partDigits)
  if part.isNone ∧ power.isNone then none
  else if !negative ∧ isPastFinite significand (exponent - partDigits.length) then none
  else some (.fraction (String.ofList spelling))

/-- A fraction. -/
def fraction? (spelling : List Char) : Option Item :=
  let (_, cs) := signed spelling
  if cs = ['i', 'n', 'f'] ∨ cs = ['n', 'a', 'n'] then some (.fraction (String.ofList spelling))
  else decimalFraction? spelling

-- ---------------------------------------------------------------------------
-- Moments
-- ---------------------------------------------------------------------------

/-- A number of exactly so many digits. -/
def fixedNumber? (width : Nat) (cs : List Char) : Option Nat := do
  let ds ← cs.mapM (digitIn? 10)
  if ds.length = width then some (ofDigits ds) else none

/-- A date of the calendar. -/
def isDate (cs : List Char) : Bool :=
  match cs with
  | [y₁, y₂, y₃, y₄, '-', m₁, m₂, '-', d₁, d₂] =>
    match fixedNumber? 4 [y₁, y₂, y₃, y₄], fixedNumber? 2 [m₁, m₂], fixedNumber? 2 [d₁, d₂] with
    | some year, some month, some day =>
      let lengths := Calendar.monthLengths (Calendar.isLeap year)
      1 ≤ month && month ≤ 12 && 1 ≤ day && day ≤ lengths.getD (month - 1) 0
    | _, _, _ => false
  | _ => false

/-- Hours and minutes. -/
def isHourMinute (h₁ h₂ m₁ m₂ : Char) : Bool :=
  match fixedNumber? 2 [h₁, h₂], fixedNumber? 2 [m₁, m₂] with
  | some hour, some minute => hour ≤ 23 && minute ≤ 59
  | _, _ => false

/-- The characters after a time of day. A minute may have a sixty-first second, and a second any
number of decimal places. -/
def afterTime? (cs : List Char) : Option (List Char) :=
  match cs with
  | h₁ :: h₂ :: ':' :: m₁ :: m₂ :: ':' :: s₁ :: s₂ :: rest =>
    if isHourMinute h₁ h₂ m₁ m₂ && ((fixedNumber? 2 [s₁, s₂]).any (· ≤ 60)) then
      match rest with
      | '.' :: rest =>
        if (rest.takeWhile Char.isDigit).isEmpty then none else some (rest.dropWhile Char.isDigit)
      | rest => some rest
    else none
  | _ => none

/-- The distance from universal time; it may be missing. -/
def isOffset (cs : List Char) : Bool :=
  match cs with
  | [] => true
  | [c] => c == 'Z' || c == 'z'
  | [sign, h₁, h₂, ':', m₁, m₂] => (sign == '+' || sign == '-') && isHourMinute h₁ h₂ m₁ m₂
  | _ => false

/-- A date, a time of day, or both with or without an offset. -/
def isMoment (cs : List Char) : Bool :=
  isDate cs || afterTime? cs == some [] ||
    (isDate (cs.take 10) &&
      match cs.drop 10 with
      | mark :: rest => (mark == 'T' || mark == 't' || mark == ' ') && (afterTime? rest).any isOffset
      | [] => false)

-- ---------------------------------------------------------------------------
-- All of them
-- ---------------------------------------------------------------------------

/-- The characters of bare values. -/
def isBare (c : Char) : Bool :=
  c.isAlphanum || c == '+' || c == '-' || c == '.' || c == '_' || c == ':'

/-- The run of characters that makes a bare value, and the characters after it. One blank may stand
between a date and a time. -/
def bareRun (cs : List Char) : List Char × List Char :=
  let run := cs.takeWhile isBare
  let after := cs.dropWhile isBare
  match after with
  | ' ' :: rest =>
    if isDate run && (rest.head?.any isBare)
    then (run ++ ' ' :: rest.takeWhile isBare, rest.dropWhile isBare)
    else (run, after)
  | after => (run, after)

/-- The value that a run of characters stands for. -/
def bare? (cs : List Char) : Option Item :=
  if cs = ['t', 'r', 'u', 'e'] then some (.bool true)
  else if cs = ['f', 'a', 'l', 's', 'e'] then some (.bool false)
  else if isMoment cs then some (.moment (String.ofList cs))
  else (integer? cs).or (fraction? cs)

end BuildQuery.Toml
