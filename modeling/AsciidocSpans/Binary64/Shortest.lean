import AsciidocSpans.Binary64.Basic
import AsciidocSpans.Text.Basic

/-!
The text of a floating-point number: the fewest decimal digits that read back as the number, and of
several such the nearest to it. Numbers from 10⁻⁴ up to but not including 10¹⁶ are written
positionally with at least one digit behind the point; all others are written with an exponent of
at least two digits.

Of all decimals with so many digits only the two neighbours of the number need to be tried: if any
of them reads back, so does one of these. Seventeen digits always suffice.
-/

set_option autoImplicit false
set_option relaxedAutoImplicit false

namespace AsciidocSpans.Binary64

/-! ### Digits -/

/-- The number of places before the point of a positive fraction; a fraction below a tenth has a
negative number of them. -/
def pointOf (numerator denominator : Nat) : Int :=
  let estimate := (digitCount numerator : Int) - digitCount denominator
  let (whole, part) := dividedByPower 10 estimate numerator denominator
  if whole < part then estimate else estimate + 1

/-- The two multiples of `10 ^ place` next to a fraction, as factors of that power, the nearer one
first, the even one of two that are equally near. -/
def neighbours (place : Int) (numerator denominator : Nat) : List Nat :=
  let (whole, part) := dividedByPower 10 place numerator denominator
  let below := whole / part
  if roundedQuotient whole part = below then [below, below + 1] else [below + 1, below]

/-- The digits with which a positive number is written, from the given number of digits on, and the
place of the last of them. -/
def digitsFrom (mantissa : Nat) (exponent point : Int) (count : Nat) : Nat → Nat × Int
  | 0 => (mantissa, exponent)
  | steps + 1 =>
    let place := point - count
    let (numerator, denominator) := fraction mantissa exponent
    match (neighbours place numerator denominator).find?
      fun digits ↦ ofDecimal false digits place = .finite false mantissa exponent with
    | some digits => (digits, place)
    | none => digitsFrom mantissa exponent point (count + 1) steps

/-- The digits with which a positive number is written, and the place of the last of them. -/
def shortestDigits (mantissa : Nat) (exponent : Int) : Nat × Int :=
  let (numerator, denominator) := fraction mantissa exponent
  digitsFrom mantissa exponent (pointOf numerator denominator) 1 17

/-! ### Layout -/

/-- The text of an exponent: a sign and at least two digits. -/
def exponentText (exponent : Int) : Text :=
  let digits := (toString exponent.natAbs).toList
  (if exponent < 0 then '-' else '+') :: (if digits.length < 2 then '0' :: digits else digits)

/-- The text of a positive number, given its digits without trailing zeros and the position of the
point relative to their start. -/
def textOfDigits (digits : Text) (point : Int) : Text :=
  if -3 ≤ point ∧ point ≤ 16 then
    if point ≤ 0 then ['0', '.'] ++ List.replicate (-point).toNat '0' ++ digits
    else
      let whole := digits.take point.toNat
      let decimals := digits.drop point.toNat
      whole ++ List.replicate (point.toNat - whole.length) '0' ++ ['.'] ++
        (if decimals.isEmpty then ['0'] else decimals)
  else
    let decimals := digits.drop 1
    digits.take 1 ++ (if decimals.isEmpty then [] else '.' :: decimals) ++
      'e' :: exponentText (point - 1)

/-- The text of a number that is not negative. -/
def magnitudeText (mantissa : Nat) (exponent : Int) : Text :=
  if mantissa = 0 then ['0', '.', '0']
  else
    let (digits, place) := shortestDigits mantissa exponent
    let written := (toString digits).toList
    textOfDigits (Text.dropRightWhile (· == '0') written) (written.length + place)

/-- A text behind a minus sign, if there is to be one. -/
def withMinus (negative : Bool) (text : Text) : Text :=
  if negative then '-' :: text else text

/-- The text of a number. -/
def text : Binary64 → Text
  | .finite negative mantissa exponent => withMinus negative (magnitudeText mantissa exponent)
  | .infinite negative => withMinus negative ['i', 'n', 'f']
  | .notANumber => ['n', 'a', 'n']

end AsciidocSpans.Binary64
