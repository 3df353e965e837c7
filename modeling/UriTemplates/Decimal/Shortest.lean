import UriTemplates.Decimal.Double

/-!
# Shortest decimals

The decimal text of a number of double precision with the fewest digits that are read
back as the same number; of two such decimals the nearer one, and of two equally near
ones the one whose last digit is even. `Decimal.Layout` holds the decisions that are left
to a format: from which exponents on a number is written with an exponent, and how many
digits the exponent has at least.
-/

namespace UriTemplates

/-- A positive decimal: whole-number digits times a power of ten. -/
structure Decimal where
  /-- The digits as a whole number. -/
  digits : Nat
  /-- The exponent of ten. -/
  exponent : Int

namespace Decimal

/-- The quotients that are read as one number: those between two ends, which count
themselves if the mantissa is even. All three quotients have the same denominator. -/
structure Interval where
  /-- The least end. -/
  least : Nat
  /-- The number itself. -/
  value : Nat
  /-- The greatest end. -/
  greatest : Nat
  /-- The common denominator. -/
  denominator : Nat
  /-- Whether the ends count. -/
  closed : Bool

/-- The quotients that are read as a mantissa times a power of two: halfway to its
neighbours, of which the lower one is nearer below a power of two. -/
def Interval.around (mantissa : Nat) (exponent : Int) : Interval :=
  let below := if mantissa = Nat.pow 2 52 ∧ Double.leastExponent < exponent then 1 else 2
  let (unit, denominator) := Double.scaled 1 1 (2 - exponent)
  { least := (4 * mantissa - below) * unit
    value := 4 * mantissa * unit
    greatest := (4 * mantissa + 2) * unit
    denominator := denominator
    closed := mantissa % 2 = 0 }

/-- A decimal as numerator and denominator. -/
def ratio (decimal : Decimal) : Nat × Nat :=
  if decimal.exponent < 0 then
    (decimal.digits, Nat.pow 10 decimal.exponent.natAbs)
  else
    (decimal.digits * Nat.pow 10 decimal.exponent.natAbs, 1)

/-- Whether a decimal lies in an interval. -/
def isIn (decimal : Decimal) (interval : Interval) : Bool :=
  let (top, bottom) := decimal.ratio
  let point := top * interval.denominator
  if interval.closed then
    interval.least * bottom ≤ point && point ≤ interval.greatest * bottom
  else
    interval.least * bottom < point && point < interval.greatest * bottom

/-- The greatest exponent of ten that does not exceed a value; no positive number of
double precision is below ten to the power of minus 400. -/
def leadingExponent (interval : Interval) : Int :=
  let shifted := interval.value * Nat.pow 10 400 / interval.denominator
  ((Nat.toDigits 10 shifted).length : Int) - 401

/-- The multiples of a power of ten just below and above a value that lie in its
interval, the better one of two. -/
def onGrid? (interval : Interval) (exponent : Int) : Option Decimal :=
  let (top, bottom) : Nat × Nat :=
    if exponent < 0 then
      (interval.value * Nat.pow 10 exponent.natAbs, interval.denominator)
    else
      (interval.value, interval.denominator * Nat.pow 10 exponent.natAbs)
  let lower : Decimal := ⟨top / bottom, exponent⟩
  let upper : Decimal := ⟨top / bottom + 1, exponent⟩
  if lower.isIn interval && upper.isIn interval then
    some ⟨Double.roundedQuotient top bottom, exponent⟩
  else if lower.isIn interval then
    some lower
  else if upper.isIn interval then
    some upper
  else
    none

/-- The decimal with the fewest digits in an interval, from the given number of digits
on; seventeen always suffice. -/
def fewestDigits (interval : Interval) (leading : Int) : (more count : Nat) → Decimal
  | 0, count => ⟨interval.value / interval.denominator, leading - count⟩
  | more + 1, count =>
    match onGrid? interval (leading - count + 1) with
    | some decimal => decimal
    | none => fewestDigits interval leading more (count + 1)

/-- The shortest decimal of a mantissa times a power of two. -/
def shortest (mantissa : Nat) (exponent : Int) : Decimal :=
  if mantissa = 0 then
    ⟨0, 0⟩
  else
    let interval := Interval.around mantissa exponent
    fewestDigits interval (leadingExponent interval) 17 1

/-- How decimals are laid out. -/
structure Layout where
  /-- The least decimal exponent that is written without an exponent. -/
  leastPlain : Int
  /-- The greatest decimal exponent that is written without an exponent. -/
  greatestPlain : Int
  /-- The least number of digits of an exponent. -/
  exponentWidth : Nat

/-- The digits of a text without the zeros at its end. -/
def withoutTrailingZeros (digits : Text) : Text :=
  (digits.reverse.dropWhile (· == '0')).reverse

/-- An exponent with its sign. -/
def exponentText (layout : Layout) (exponent : Int) : Text :=
  let digits := Nat.toDigits 10 exponent.natAbs
  (if exponent < 0 then '-' else '+') ::
    (List.replicate (layout.exponentWidth - digits.length) '0' ++ digits)

/-- Digits with a decimal point, of which the given number stands before the point; there
is at least one digit on each side. -/
def withPoint (digits : Text) (before : Int) : Text :=
  if before ≤ 0 then
    '0' :: '.' :: (List.replicate before.natAbs '0' ++ digits)
  else
    let whole := digits.take before.natAbs
    let fraction := digits.drop before.natAbs
    whole ++ List.replicate (before.natAbs - whole.length) '0' ++
      '.' :: (if fraction.isEmpty then ['0'] else fraction)

/-- A decimal as text. -/
def toText (layout : Layout) (decimal : Decimal) : Text :=
  let written := Nat.toDigits 10 decimal.digits
  let leading : Int := (written.length : Int) + decimal.exponent - 1
  match withoutTrailingZeros written with
  | [] => withPoint ['0'] 1
  | first :: more =>
    if layout.leastPlain ≤ leading ∧ leading ≤ layout.greatestPlain then
      withPoint (first :: more) (leading + 1)
    else
      first :: ((if more.isEmpty then [] else '.' :: more) ++
        'e' :: exponentText layout leading)

end Decimal

/-- The text of a number of double precision: its shortest decimal, with a minus sign
before every negative number and before a negative zero. -/
def Double.toText (layout : Decimal.Layout) : Double → Text
  | .nan => ['n', 'a', 'n']
  | .infinite negative => (if negative then ['-'] else []) ++ ['i', 'n', 'f']
  | .finite negative mantissa exponent =>
    (if negative then ['-'] else []) ++ (Decimal.shortest mantissa exponent).toText layout

end UriTemplates
