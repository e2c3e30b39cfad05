/-!
Binary floating-point numbers of sixty-four bits, as exact values. A finite number is a mantissa
times a power of two. Its mantissa has fifty-three bits unless its exponent is the least one, so
every number has one form; the two zeros differ in their sign only.

A quotient of natural numbers is rounded to the nearest number, and to the even one of two that are
equally near. What would need too large an exponent is infinite.
-/

set_option autoImplicit false
set_option relaxedAutoImplicit false

namespace AsciidocSpans

/-- A binary floating-point number. -/
inductive Binary64 where
  /-- The number `mantissa · 2 ^ exponent`, or its negative. -/
  | finite (negative : Bool) (mantissa : Nat) (exponent : Int)
  | infinite (negative : Bool)
  | notANumber
  deriving DecidableEq, Repr

namespace Binary64

/-- The least exponent. -/
def leastExponent : Int :=
  -1074

/-- The greatest exponent. -/
def greatestExponent : Int :=
  971

/-- The least mantissa of fifty-three bits. -/
def leastFullMantissa : Nat :=
  0x10000000000000

/-- Zero with a sign. -/
def zero (negative : Bool) : Binary64 :=
  .finite negative 0 leastExponent

/-- The fraction `numerator / denominator` divided by a power of a base, as a fraction. -/
def dividedByPower (base : Nat) (exponent : Int) (numerator denominator : Nat) : Nat × Nat :=
  if 0 ≤ exponent then (numerator, denominator * Nat.pow base exponent.toNat)
  else (numerator * Nat.pow base (-exponent).toNat, denominator)

/-- A fraction times a power of a base, as a fraction. -/
def timesPower (base : Nat) (exponent : Int) (numerator denominator : Nat) : Nat × Nat :=
  dividedByPower base (-exponent) numerator denominator

/-- The integer nearest to a fraction, the even one of two that are equally near. -/
def roundedQuotient (numerator denominator : Nat) : Nat :=
  let quotient := numerator / denominator
  let twice := 2 * (numerator % denominator)
  if twice < denominator ∨ (twice = denominator ∧ quotient % 2 = 0) then quotient
  else quotient + 1

/-- The exponent of the number nearest to a positive fraction, if the mantissa is rounded down. -/
def exponentOf (numerator denominator : Nat) : Int :=
  let estimate := max leastExponent ((numerator.log2 : Int) - denominator.log2 - 53)
  let (whole, part) := dividedByPower 2 estimate numerator denominator
  if whole / part < 2 * leastFullMantissa then estimate else estimate + 1

/-- The number with a mantissa of at most fifty-three bits, or the next power of two. -/
def ofMantissa (negative : Bool) (mantissa : Nat) (exponent : Int) : Binary64 :=
  let (mantissa, exponent) :=
    if mantissa = 2 * leastFullMantissa then (leastFullMantissa, exponent + 1)
    else (mantissa, exponent)
  if greatestExponent < exponent then .infinite negative else .finite negative mantissa exponent

/-- The number nearest to a fraction whose denominator is positive, with a sign. -/
def ofQuotient (negative : Bool) (numerator denominator : Nat) : Binary64 :=
  if numerator = 0 then zero negative
  else
    let exponent := exponentOf numerator denominator
    let (whole, part) := dividedByPower 2 exponent numerator denominator
    ofMantissa negative (roundedQuotient whole part) exponent

/-- The number of decimal digits of a natural number. -/
def digitCount (n : Nat) : Nat :=
  (toString n).length

/-- The number nearest to `digits · 10 ^ exponent`, with a sign. What lies far outside the range of
finite numbers is told by its number of digits. -/
def ofDecimal (negative : Bool) (digits : Nat) (exponent : Int) : Binary64 :=
  let point := (digitCount digits : Int) + exponent
  if digits = 0 ∨ point < -400 then zero negative
  else if 400 < point then .infinite negative
  else
    let (numerator, denominator) := timesPower 10 exponent digits 1
    ofQuotient negative numerator denominator

/-- The number nearest to an integer. -/
def ofInt (n : Int) : Binary64 :=
  ofQuotient (n < 0) n.natAbs 1

/-- The absolute value of a finite number as a fraction. -/
def fraction (mantissa : Nat) (exponent : Int) : Nat × Nat :=
  timesPower 2 exponent mantissa 1

/-- An integer times a positive integer, compared with the numerator of a signed fraction. -/
def compareFraction (negative : Bool) (numerator denominator : Nat) (n : Int) : Ordering :=
  compare (if negative then -(numerator : Int) else (numerator : Int)) (n * denominator)

/-- How a number compares with an integer; nothing compares with what is not a number. -/
def compareInt? (x : Binary64) (n : Int) : Option Ordering :=
  match x with
  | .finite negative mantissa exponent =>
    let (numerator, denominator) := fraction mantissa exponent
    some (compareFraction negative numerator denominator n)
  | .infinite negative => some (if negative then .lt else .gt)
  | .notANumber => none

/-- A number without what stands behind its point. -/
def truncated? : Binary64 → Option Int
  | .finite negative mantissa exponent =>
    let (numerator, denominator) := fraction mantissa exponent
    let whole := ((numerator / denominator : Nat) : Int)
    some (if negative then -whole else whole)
  | _ => none

/-- The number with the opposite sign. -/
def negated : Binary64 → Binary64
  | .finite negative mantissa exponent => .finite (!negative) mantissa exponent
  | .infinite negative => .infinite (!negative)
  | .notANumber => .notANumber

/-- Whether a number is one of the two zeros. -/
def isZero : Binary64 → Bool
  | .finite _ mantissa _ => mantissa == 0
  | _ => false

/-- The number nearest to a signed fraction; a fraction that is zero has no sign. -/
def ofSigned (numerator : Int) (denominator : Nat) : Binary64 :=
  ofQuotient (numerator < 0) numerator.natAbs denominator

/-- The numerator of a signed fraction. -/
def signed (negative : Bool) (numerator : Nat) : Int :=
  if negative then -(numerator : Int) else numerator

/-- The sum of two numbers. Two negative zeros have a negative sum. -/
def add : Binary64 → Binary64 → Binary64
  | .finite negative mantissa exponent, .finite negative' mantissa' exponent' =>
    if mantissa = 0 ∧ mantissa' = 0 then zero (negative && negative')
    else
      let (numerator, denominator) := fraction mantissa exponent
      let (numerator', denominator') := fraction mantissa' exponent'
      let sum :=
        signed negative numerator * denominator' + signed negative' numerator' * denominator
      ofSigned sum (denominator * denominator')
  | .infinite negative, .infinite negative' =>
    if negative = negative' then .infinite negative else .notANumber
  | .infinite negative, .finite .. | .finite .., .infinite negative => .infinite negative
  | .notANumber, _ | _, .notANumber => .notANumber

/-- Whether a number has a minus sign. -/
def isNegative : Binary64 → Bool
  | .finite negative _ _ | .infinite negative => negative
  | .notANumber => false

/-- The product of two numbers. Zero times infinity is not a number. -/
def mul : Binary64 → Binary64 → Binary64
  | .finite negative mantissa exponent, .finite negative' mantissa' exponent' =>
    let (numerator, denominator) := fraction mantissa exponent
    let (numerator', denominator') := fraction mantissa' exponent'
    ofQuotient (negative != negative') (numerator * numerator') (denominator * denominator')
  | .notANumber, _ | _, .notANumber => .notANumber
  | x, y =>
    if x.isZero || y.isZero then .notANumber else .infinite (x.isNegative != y.isNegative)

end Binary64

end AsciidocSpans
