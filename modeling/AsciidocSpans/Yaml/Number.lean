import AsciidocSpans.Text.Blank
import AsciidocSpans.Text.Digit
import AsciidocSpans.Value
import AsciidocSpans.Yaml.Character
import AsciidocSpans.Yaml.ReadError

/-!
Numbers. A word that begins with a digit, a sign or a point may stand for an integer, in one of
several bases, or for a floating-point number; underscores may group its digits, and colons divide
groups that count to sixty. `isInteger` and `isFloat` tell which words do.

Where a number is asked for, more is read than these words: `integerOf` and `floatOf` give the
number that a text writes, with blanks around it and with digits of any script.
-/

set_option autoImplicit false
set_option relaxedAutoImplicit false

namespace AsciidocSpans.Yaml

/-- The words for infinity behind a sign. -/
def infinityWords : List String :=
  [".inf", ".Inf", ".INF"]

/-- The words for what is not a number. -/
def notANumberWords : List String :=
  [".nan", ".NaN", ".NAN"]

/-- Whether a text is one of some words. -/
def isAmong (words : List String) (text : Text) : Bool :=
  words.any (·.toList == text)

/-- The sign that a text begins with, if it does, and the rest. -/
def splitSign : Text → Option Char × Text
  | '-' :: rest => (some '-', rest)
  | '+' :: rest => (some '+', rest)
  | text => (none, text)

/-- A number behind a sign. -/
def withSign (sign : Option Char) (n : Int) : Int :=
  if sign = some '-' then -n else n

/-! ### Words that stand for numbers -/

/-- Whether a text has digits of a base and underscores only, and is not empty. -/
def isGrouped (base : Nat) (text : Text) : Bool :=
  !text.isEmpty && text.all fun c ↦ isDigitOf base c || c == '_'

/-- Whether a text begins with a decimal digit and has only those and underscores. -/
def isNumeral (text : Text) : Bool :=
  isGrouped 10 text && text.head?.any (isDigitOf 10)

/-- Whether a text writes a number below sixty in one or two digits. -/
def isSixtieth (text : Text) : Bool :=
  !text.isEmpty && text.length ≤ 2 && text.all (isDigitOf 10) && numberOf 10 text < 60

/-- Whether a text without a sign is a numeral with others behind it that count to sixty. -/
def isSexagesimal (text : Text) : Bool :=
  match text.cutAt ':' with
  | first :: second :: rest => isNumeral first && (second :: rest).all isSixtieth
  | _ => false

/-- Whether a text without a sign writes a natural number: in binary after `0b`, in hexadecimal
after `0x`, in octal after another leading zero, and in decimal otherwise. -/
def isNatural : Text → Bool
  | ['0'] => true
  | '0' :: 'b' :: digits => isGrouped 2 digits
  | '0' :: 'x' :: digits => isGrouped 16 digits
  | '0' :: digits => isGrouped 8 digits
  | digits => isNumeral digits || isSexagesimal digits

/-- Whether a word stands for an integer. -/
def isInteger (text : Text) : Bool :=
  isNatural (splitSign text).2

/-- Whether a text is empty, or an exponent of ten: a letter, a sign and digits. -/
def isExponent : Text → Bool
  | [] => true
  | letter :: rest =>
    let (sign, digits) := splitSign rest
    (letter == 'e' || letter == 'E') && sign.isSome && !digits.isEmpty &&
      digits.all (isDigitOf 10)

/-- Whether a text writes a number around a point. It has no sign if it begins with its point. -/
def isDecimal (text : Text) : Bool :=
  let isDigit := fun c ↦ isDigitOf 10 c || c == '_'
  let (sign, rest) := splitSign text
  let whole := rest.takeWhile isDigit
  match rest.dropWhile isDigit with
  | '.' :: behind =>
    isExponent (behind.dropWhile isDigit) &&
      (isNumeral whole ||
        (whole.isEmpty && sign.isNone && isNumeral (behind.takeWhile isDigit)))
  | _ => false

/-- Whether a text counts to sixty and has a point behind its last group. -/
def isSexagesimalDecimal (text : Text) : Bool :=
  isSexagesimal (text.takeWhile (· != '.')) &&
    match text.dropWhile (· != '.') with
    | '.' :: decimals => decimals.all fun c ↦ isDigitOf 10 c || c == '_'
    | _ => false

/-- Whether a word stands for a floating-point number. -/
def isFloat (text : Text) : Bool :=
  let rest := (splitSign text).2
  isDecimal text || isSexagesimalDecimal rest || isAmong infinityWords rest ||
    isAmong notANumberWords text

/-! ### Texts that write numbers -/

/-- The greatest number of digits that a decimal integer may have. -/
def greatestDigitCount : Nat :=
  4300

/-- A decimal digit of any script as one of the ten digits. -/
def plainDigit (c : Char) : Char :=
  match Text.digitValue? c with
  | some value => Char.ofNat ('0'.toNat + value)
  | none => c

/-- The sign of a number that blanks may stand around, and what is behind it. -/
def signAndDigits (text : Text) : Option Char × Text :=
  splitSign (text.trim.map plainDigit)

/-- A text without the mark of a base at its start. -/
def dropBaseMark (base : Nat) (text : Text) : Text :=
  match text with
  | '0' :: letter :: rest =>
    if (base, letter.toLower) ∈ [(2, 'b'), (8, 'o'), (16, 'x')] then rest else text
  | _ => text

/-- The integer that a text writes in a base. -/
def integerIn? (base : Nat) (text : Text) : Option Int :=
  let (sign, rest) := signAndDigits text
  let digits := dropBaseMark base rest
  if digits.isEmpty ∨ !digits.all (isDigitOf base) ∨
      (base = 10 ∧ greatestDigitCount < digits.length) then none
  else some (withSign sign (numberOf base digits))

/-- The integer that a text without a sign in front writes. -/
def integer? (text : Text) : Option Int :=
  match text with
  | '0' :: 'b' :: digits => integerIn? 2 digits
  | '0' :: 'x' :: digits => integerIn? 16 digits
  | '0' :: _ => integerIn? 8 text
  | _ => (text.cutAt ':').foldlM (fun n group ↦ (integerIn? 10 group).map (60 * n + ·)) 0

/-- The integer that a text writes. -/
def integerOf (text : Text) : Except ValueError Value :=
  let (sign, rest) := splitSign (text.filter (· != '_'))
  match integer? rest with
  | some n => .ok (.integer (withSign sign n))
  | none => .error (if rest.isEmpty then .missingNumber else .improperNumber)

/-- The exponent of ten that a text is: nothing, or a letter and an integer. -/
def exponent? : Text → Option Int
  | [] => some 0
  | letter :: rest =>
    let (sign, digits) := splitSign rest
    if letter = 'e' ∧ !digits.isEmpty ∧ digits.all (isDigitOf 10) then
      some (withSign sign (numberOf 10 digits))
    else none

/-- The digits that a text without a sign writes, and the exponent of ten that goes with them. -/
def decimal? (text : Text) : Option (Nat × Int) := do
  let whole := text.takeWhile (isDigitOf 10)
  let (decimals, rest) := match text.dropWhile (isDigitOf 10) with
    | '.' :: behind => (behind.takeWhile (isDigitOf 10), behind.dropWhile (isDigitOf 10))
    | rest => ([], rest)
  let exponent ← exponent? rest
  if whole.isEmpty ∧ decimals.isEmpty then none
  else return (numberOf 10 (whole ++ decimals), exponent - decimals.length)

/-- The floating-point number that a text in lower case writes. -/
def decimalFloat? (text : Text) : Option Binary64 :=
  let (sign, rest) := signAndDigits text
  let isNegative : Bool := sign = some '-'
  if isAmong ["inf", "infinity"] rest then some (.infinite isNegative)
  else if isAmong ["nan"] rest then some .notANumber
  else (decimal? rest).map fun (digits, exponent) ↦ Binary64.ofDecimal isNegative digits exponent

/-- The sum of groups that count to sixty, the last of which comes first. -/
def sexagesimalSum (sum : Binary64) (unit : Nat) : List Binary64 → Binary64
  | [] => sum
  | group :: rest => sexagesimalSum (sum.add (group.mul (.ofInt unit))) (60 * unit) rest

/-- The floating-point number that a text in lower case without a sign in front writes. -/
def float? (text : Text) : Option Binary64 :=
  if isAmong infinityWords text then some (.infinite false)
  else if isAmong notANumberWords text then some .notANumber
  else match text.cutAt ':' with
    | [group] => decimalFloat? group
    | groups => (groups.mapM decimalFloat?).map fun values ↦
        sexagesimalSum (.zero false) 1 values.reverse

/-- The floating-point number that a text writes. -/
def floatOf (text : Text) : Except ValueError Value :=
  let digits := (text.filter (· != '_')).map Char.toLower
  let (sign, rest) := splitSign digits
  match float? rest with
  | some x => .ok (.float (if sign = some '-' then x.negated else x))
  | none => .error (if digits.isEmpty then .missingNumber else .improperNumber)

end AsciidocSpans.Yaml
