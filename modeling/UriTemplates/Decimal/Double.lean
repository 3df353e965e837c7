import UriTemplates.Text.Basic

/-!
# Double-precision numbers

A binary floating-point number of double precision as an exact value: a whole number
below 2^53 times a power of two from 2^-1074 on, an infinity, or no number. Everything is
whole-number arithmetic: `Double.ofRatio` rounds a quotient to the nearest such number, a
tie to the even one, and `Double.ofText?` reads decimal text through it.
-/

namespace UriTemplates

/-- A number of double precision. -/
inductive Double where
  /-- No number. -/
  | nan
  /-- An infinity with its sign. -/
  | infinite (negative : Bool)
  /-- A whole number times a power of two, with its sign. -/
  | finite (negative : Bool) (mantissa : Nat) (exponent : Int)
  deriving DecidableEq

namespace Double

/-- The exponent of the least positive number. -/
def leastExponent : Int := -1074

/-- The exponent of the greatest finite numbers. -/
def greatestExponent : Int := 971

/-- The quotient of two whole numbers, rounded to the nearest whole number and a tie to
the even one. -/
def roundedQuotient (numerator denominator : Nat) : Nat :=
  let quotient := numerator / denominator
  let twice := 2 * (numerator % denominator)
  if twice < denominator then quotient
  else if denominator < twice then quotient + 1
  else quotient + quotient % 2

/-- A quotient divided by a power of two, as numerator and denominator. -/
def scaled (numerator denominator : Nat) (exponent : Int) : Nat × Nat :=
  if exponent < 0 then
    (numerator * Nat.pow 2 exponent.natAbs, denominator)
  else
    (numerator, denominator * Nat.pow 2 exponent.natAbs)

/-- The exponent that gives a quotient a mantissa of 53 binary digits, or the least
exponent if that is greater. -/
def exponentFor (numerator denominator : Nat) : Int :=
  let guess : Int := (numerator.log2 : Int) - (denominator.log2 : Int) - 52
  let (top, bottom) := scaled numerator denominator guess
  max (if top < Nat.pow 2 52 * bottom then guess - 1 else guess) leastExponent

/-- The number nearest to a quotient, infinite beyond the greatest finite number. -/
def ofRatio (negative : Bool) (numerator denominator : Nat) : Double :=
  if numerator = 0 then
    .finite negative 0 leastExponent
  else
    let exponent := exponentFor numerator denominator
    let (top, bottom) := scaled numerator denominator exponent
    let mantissa := roundedQuotient top bottom
    let (mantissa, exponent) :=
      if mantissa = Nat.pow 2 53 then (Nat.pow 2 52, exponent + 1) else (mantissa, exponent)
    if greatestExponent < exponent then .infinite negative else .finite negative mantissa exponent

/-- The number of a sequence of decimal digits. -/
def digitsValue? (digits : Text) : Option Nat :=
  if digits.all Char.isDigit then
    some (digits.foldl (fun value c => value * 10 + (c.toNat - '0'.toNat)) 0)
  else
    none

/-- The sign of a number and what follows it. -/
def signed : Text → Bool × Text
  | '-' :: rest => (true, rest)
  | '+' :: rest => (false, rest)
  | text => (false, text)

/-- The exponent that is written after a mantissa; none is an exponent of zero. -/
def exponentOf? : Option Text → Option Int
  | none => some 0
  | some text =>
    match signed text with
    | (_, []) => none
    | (negative, digits) =>
      (digitsValue? digits).map fun value => if negative then -(value : Int) else value

/-- A power of ten that gives numbers of at most a count of digits the same rounded value
as a given one: beyond 10^400 all of them but zero are infinite, and below the inverse of
that all of them are zero. -/
def boundedShift (count : Nat) (shift : Int) : Int :=
  max (-(count + 400 : Int)) (min 400 shift)

/-- Read a number, in small letters, without its sign. -/
def magnitude? (negative : Bool) (text : Text) : Option Double :=
  if text = ['i', 'n', 'f'] || text = ['i', 'n', 'f', 'i', 'n', 'i', 't', 'y'] then
    some (.infinite negative)
  else if text = ['n', 'a', 'n'] then
    some .nan
  else do
    let (mantissa, exponentText) := Text.cut 'e' text
    let (whole, fraction) := Text.cut '.' mantissa
    let fraction := fraction.getD []
    let digits ← digitsValue? (whole ++ fraction)
    let exponent ← exponentOf? exponentText
    let shift := boundedShift (whole ++ fraction).length (exponent - fraction.length)
    if whole.isEmpty && fraction.isEmpty then
      none
    else if shift < 0 then
      some (ofRatio negative digits (Nat.pow 10 shift.natAbs))
    else
      some (ofRatio negative (digits * Nat.pow 10 shift.natAbs) 1)

/-- Read a number from decimal text, with letters in either case. -/
def ofText? (text : Text) : Option Double :=
  match signed (text.map Char.toLower) with
  | (negative, rest) => magnitude? negative rest

/-- A finite number as numerator and denominator. -/
def ratio? : Double → Option (Int × Nat)
  | nan => none
  | infinite _ => none
  | finite negative mantissa exponent =>
    let sign : Int := if negative then -1 else 1
    if exponent < 0 then
      some (sign * mantissa, Nat.pow 2 exponent.natAbs)
    else
      some (sign * mantissa * Int.pow 2 exponent.natAbs, 1)

end Double

end UriTemplates
