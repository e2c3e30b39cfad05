import AsciidocSpans.Yaml.Number

/-!
What words without quotes stand for. Some words are truth values or null, others numbers; days and
times are moments; two words have a meaning as keys only. Every other word stands for itself.

`Tag.ofWord` tells what kind of value a word stands for, and `Tag.valueOf` gives the value of that
kind that a word writes.
-/

set_option autoImplicit false
set_option relaxedAutoImplicit false

namespace AsciidocSpans.Yaml

/-- The kind of a value. -/
inductive Tag where
  | null
  | boolean
  | integer
  | float
  | moment
  | text
  | list
  | dictionary
  /-- The key whose value is merged into its dictionary. -/
  | merge
  /-- The key whose value is that of its dictionary. -/
  | default
  /-- A kind without a meaning. -/
  | unknown
  deriving DecidableEq, Repr

/-- The words for null; the empty word is one of them. -/
def nullWords : List String :=
  ["", "~", "null", "Null", "NULL"]

/-- The words for true. -/
def trueWords : List String :=
  ["yes", "Yes", "YES", "true", "True", "TRUE", "on", "On", "ON"]

/-- The words for false. -/
def falseWords : List String :=
  ["no", "No", "NO", "false", "False", "FALSE", "off", "Off", "OFF"]

/-! ### Moments -/

/-- A number of so many digits, or one fewer if the first of them is optional, at the start of a
text, and the rest. -/
def digits? (count : Nat) (optional : Bool) (text : Text) : Option (Nat × Text) :=
  let digits := (text.take count).takeWhile (isDigitOf 10)
  if digits.length = count ∨ (optional ∧ digits.length + 1 = count) then
    some (numberOf 10 digits, text.drop digits.length)
  else none

/-- The rest of a text behind a character. -/
def behind? (c : Char) : Text → Option Text
  | c' :: rest => if c' = c then some rest else none
  | [] => none

/-- The distance from universal time, in minutes, that a text writes behind a time. -/
def zone? (text : Text) : Option (Option Int) :=
  match text.dropWhile isBlank with
  | [] => if text.isEmpty then some none else none
  | ['Z'] => some (some 0)
  | sign :: rest =>
    if sign = '+' ∨ sign = '-' then do
      let (hours, rest) ← digits? 2 true rest
      let minutes ← if rest.isEmpty then some 0 else do
        let (minutes, rest) ← digits? 2 false (← behind? ':' rest)
        if rest.isEmpty then some minutes else none
      return some (withSign (some sign) (60 * hours + minutes))
    else none

/-- The microseconds that the first six digits behind a point write. -/
def microseconds (digits : Text) : Nat :=
  numberOf 10 ((digits ++ List.replicate 6 '0').take 6)

/-- The time that a text writes. -/
def clockTime? (text : Text) : Option ClockTime := do
  let (hour, rest) ← digits? 2 true text
  let (minute, rest) ← digits? 2 false (← behind? ':' rest)
  let (second, rest) ← digits? 2 false (← behind? ':' rest)
  let (fine, rest) := match rest with
    | '.' :: rest => (rest.takeWhile (isDigitOf 10), rest.dropWhile (isDigitOf 10))
    | rest => ([], rest)
  return { hour, minute, second, microsecond := microseconds fine, ahead := ← zone? rest }

/-- The text behind what stands between a day and a time: a letter or blanks. -/
def behindDay? : Text → Option Text
  | [] => none
  | c :: rest =>
    if c = 'T' ∨ c = 't' then some rest
    else if isBlank c then some (rest.dropWhile isBlank)
    else none

/-- The day or the time that a word writes. -/
def moment? (text : Text) : Option Moment := do
  let (year, rest) ← digits? 4 false text
  let (month, rest) ← digits? 2 true (← behind? '-' rest)
  let (day, rest) ← digits? 2 true (← behind? '-' rest)
  if rest.isEmpty then return { year, month, day, time := none }
  else
    let time ← clockTime? (← behindDay? rest)
    return { year, month, day, time := some time }

/-- Whether a word stands for a moment. It writes a day alone with all its digits. -/
def isMoment (text : Text) : Bool :=
  (moment? text).any fun m ↦ m.time.isSome || text.length == 10

/-! ### Words -/

/-- The kind of value that a word stands for. -/
def Tag.ofWord (text : Text) : Tag :=
  if isAmong nullWords text then .null
  else if isAmong trueWords text || isAmong falseWords text then .boolean
  else if isInteger text then .integer
  else if isFloat text then .float
  else if isMoment text then .moment
  else if isAmong ["<<"] text then .merge
  else if isAmong ["="] text then .default
  else .text

/-! ### Values -/

/-- Whether a text is one of some words but for the case of its letters. -/
def isAmongAnyCase (words : List String) (text : Text) : Bool :=
  isAmong words (text.map Char.toLower)

/-- The value of a kind that a word writes. -/
def Tag.valueOf (tag : Tag) (text : Text) : Except ValueError Value :=
  match tag with
  | .null => .ok .null
  | .boolean =>
    if isAmongAnyCase trueWords text then .ok (.boolean true)
    else if isAmongAnyCase falseWords text then .ok (.boolean false)
    else .error .improperBoolean
  | .integer => integerOf text
  | .float => floatOf text
  | .moment => match moment? text with
    | some m => if m.isValid then .ok (.moment m) else .error .noSuchMoment
    | none => .error .improperMoment
  | .text => .ok (.text text)
  | .list | .dictionary | .merge | .default | .unknown => .error .improperTag

end AsciidocSpans.Yaml
