import TarnBuild.Data.Value

/-!
# Shortest decimals

A decimal is stored as the nearest binary number of 64 bits, and shown with the
fewest digits that lead back to that number.  Of two such decimals with equally
many digits the nearer one is shown.  All steps are exact: a number is a
quotient of natural numbers.
-/

namespace TarnBuild.Decimal

/-- A binary number: a significand times a power of two. -/
structure Binary where
  significand : Nat
  exponent : Int
  deriving DecidableEq, Repr

/-- A quotient of natural numbers. -/
structure Quotient where
  numerator : Nat
  denominator : Nat
  deriving DecidableEq, Repr

namespace Quotient

/-- The quotient multiplied by a power of a base. -/
def scale (base : Nat) (power : Int) (value : Quotient) : Quotient :=
  if 0 ≤ power then
    ⟨value.numerator * Nat.pow base power.toNat, value.denominator⟩
  else
    ⟨value.numerator, value.denominator * Nat.pow base (-power).toNat⟩

/-- Whether one quotient is at most another. -/
def le (first second : Quotient) : Bool :=
  first.numerator * second.denominator ≤ second.numerator * first.denominator

/-- Whether one quotient is less than another. -/
def lt (first second : Quotient) : Bool :=
  !second.le first

/-- The nearest natural number; of two equally near ones the even one. -/
def round (value : Quotient) : Nat :=
  let floor := value.numerator / value.denominator
  let twice := 2 * (value.numerator % value.denominator)
  if twice < value.denominator then floor
  else if value.denominator < twice then floor + 1
  else floor + floor % 2

/-- The greatest power of a base that is at most the quotient, given one that is
at most one step off. -/
def power (base : Nat) (value : Quotient) (guess : Int) : Int :=
  if (Quotient.scale base (guess + 1) ⟨1, 1⟩).le value then guess + 1
  else if (Quotient.scale base guess ⟨1, 1⟩).le value then guess
  else guess - 1

end Quotient

/-- The number of decimal digits of a number. -/
def digitCount (value : Nat) : Nat :=
  (Nat.toDigits 10 value).length

/-- The least exponent of a binary number of 64 bits. -/
def leastExponent : Int := -1074

/-- The least significand of a binary number of 64 bits whose exponent could be
smaller. -/
def leastSignificand : Nat := 4503599627370496

/-- The binary number of 64 bits nearest to a positive quotient. -/
def nearest (value : Quotient) : Binary :=
  let guess := (Nat.log2 value.numerator : Int) - Nat.log2 value.denominator
  let exponent := max (value.power 2 guess - 52) leastExponent
  let significand := (value.scale 2 (-exponent)).round
  if significand = 2 * leastSignificand then ⟨leastSignificand, exponent + 1⟩
  else ⟨significand, exponent⟩

namespace Binary

/-- The quotient that so many quarters of the last place of a binary number are. -/
def quarters (binary : Binary) (count : Nat) : Quotient :=
  Quotient.scale 2 (binary.exponent - 2) ⟨count, 1⟩

/-- Whether a quotient is nearer to a binary number than to its neighbours, or
in the middle and the significand is even. -/
def covers (binary : Binary) (value : Quotient) : Bool :=
  let below :=
    if binary.significand = leastSignificand && leastExponent < binary.exponent then 1
    else 2
  let least := binary.quarters (4 * binary.significand - below)
  let greatest := binary.quarters (4 * binary.significand + 2)
  if binary.significand % 2 = 0 then
    least.le value && value.le greatest
  else
    least.lt value && value.lt greatest

/-- The digits and the exponent of a decimal with so many digits that leads back
to a binary number. -/
def decimal? (binary : Binary) (count : Nat) : Option (Nat × Int) :=
  let exact := binary.quarters (4 * binary.significand)
  let guess := (digitCount exact.numerator : Int) - digitCount exact.denominator
  let unit := exact.power 10 guess - count + 1
  let scaled := exact.scale 10 (-unit)
  let low := scaled.numerator / scaled.denominator
  let fits (digits : Nat) := binary.covers (Quotient.scale 10 unit ⟨digits, 1⟩)
  match fits low, fits (low + 1) with
  | true, true => some (scaled.round, unit)
  | true, false => some (low, unit)
  | false, true => some (low + 1, unit)
  | false, false => none

/-- The digits and the exponent of the shortest decimal that leads back to a
binary number. -/
def shortest (binary : Binary) : Nat × Int :=
  ((List.range 17).findSome? fun count => binary.decimal? (count + 1)).getD (0, 0)

end Binary

/-- Digits that count units of a power of ten, written with a decimal point. -/
def positional (digits : Nat) (exponent : Int) : String :=
  if 0 ≤ exponent then
    toString (digits * Nat.pow 10 exponent.toNat) ++ ".0"
  else
    let places := (-exponent).toNat
    let written := Nat.toDigits 10 digits
    let padded := List.replicate (places + 1 - written.length) '0' ++ written
    let whole := padded.take (padded.length - places)
    let fraction := padded.drop (padded.length - places)
    let kept := (fraction.reverse.dropWhile (· == '0')).reverse
    String.ofList (whole ++ '.' :: if kept.isEmpty then ['0'] else kept)

/-- The text of the number nearest to some digits that count units of a power of
ten. -/
def showFinite (digits : Nat) (exponent : Int) : String :=
  if digits = 0 || (digitCount digits : Int) + exponent < -330 then
    "0.0"
  else
    let binary := nearest (Quotient.scale 10 exponent ⟨digits, 1⟩)
    if binary.significand = 0 then
      "0.0"
    else
      let (digits, exponent) := binary.shortest
      positional digits exponent

/-- The number as it is displayed, or the word for a value that is no number. -/
def display : Decimal → String
  | finite negative digits exponent =>
      (if negative then "-" else "") ++ showFinite digits exponent
  | infinite negative => if negative then "-inf" else "inf"
  | notANumber => "NaN"

end TarnBuild.Decimal
