import AsciidocSpans.Yaml.Cursor
import AsciidocSpans.Yaml.ReadError

/-!
Quoted scalars. Between single quotes a quote is written twice and everything else stands for
itself; between double quotes a backslash begins an escape. Lines inside quotes are folded: blanks
around a line break are dropped, a single break becomes a space, and of several breaks all but the
first remain.
-/

set_option autoImplicit false
set_option relaxedAutoImplicit false

namespace AsciidocSpans.Yaml

/-- What a line break becomes, given the breaks that follow it. -/
def foldedBreak (first : Char) (further : Text) : Text :=
  if first ≠ '\n' then first :: further
  else if further.isEmpty then [' ']
  else further

/-- The line breaks from a place on, with blanks before each of them, and the place behind them and
the blanks before the next word. -/
def readBreaks : Nat → Cursor → Except ReadError (Text × Cursor)
  | 0, _ => .error .outOfSteps
  | steps + 1, cursor =>
    if atMarker cursor.rest then .error (.token .markerInQuotes)
    else
      let word := cursor.behind isBlank
      match word.lineBreak? with
      | none => .ok ([], word)
      | some (c, behind) => do
        let (further, final) ← readBreaks steps behind
        return (c :: further, final)

/-- What the white space at a place means, and the place behind it. -/
def readGap (cursor : Cursor) : Except ReadError (Text × Cursor) :=
  let (blanks, behind) := cursor.span isBlank
  if behind.rest.isEmpty then .error (.token .unclosedQuote)
  else match behind.lineBreak? with
    | none => .ok (blanks, behind)
    | some (c, start) => do
      let (further, final) ← readBreaks start.steps start
      return (foldedBreak c further, final)

/-- The character whose code point so many hexadecimal digits write, and the place behind them. -/
def readCode (width : Nat) (cursor : Cursor) : Except ReadError (Text × Cursor) :=
  let digits := cursor.rest.take width
  let code := numberOf 16 digits
  if digits.length < width ∨ !digits.all (isDigitOf 16) then .error (.token .unknownEscape)
  else if 0x10ffff < code then .error (.noSuchCharacter code)
  else .ok ([Char.ofNat code], cursor.skip width)

/-- What the escape means that stands behind a backslash, and the place behind it. A backslash
before a line break takes the break away. -/
def readEscape (cursor : Cursor) : Except ReadError (Text × Cursor) :=
  match cursor.rest with
  | [] => .error (.token .unknownEscape)
  | letter :: _ =>
    match escapeLetters.lookup letter with
    | some meaning => .ok ([meaning], cursor.next)
    | none =>
      if letter = 'x' then readCode 2 cursor.next
      else if letter = 'u' then readCode 4 cursor.next
      else if letter = 'U' then readCode 8 cursor.next
      else match cursor.lineBreak? with
        | some (_, start) => readBreaks start.steps start
        | none => .error (.token .unknownEscape)

/-- What the characters up to the next white space or the closing quote mean, and the place behind
them. -/
def readRun (quote : Char) : Nat → Cursor → Except ReadError (Text × Cursor)
  | 0, _ => .error .outOfSteps
  | steps + 1, cursor =>
    match cursor.rest with
    | [] => .ok ([], cursor)
    | c :: rest =>
      if isBlank c || isBreak c then .ok ([], cursor)
      else do
        let escape? := if c = '\\' ∧ quote = '"' then some (readEscape cursor.next)
          else if c = '\'' ∧ quote = '\'' ∧ rest.head? = some '\'' then
            some (.ok (['\''], cursor.skip 2))
          else if c = quote then none
          else some (.ok ([c], cursor.next))
        match escape? with
        | none => return ([], cursor)
        | some escape =>
          let (meaning, behind) ← escape
          let (further, final) ← readRun quote steps behind
          return (meaning ++ further, final)

/-- The text from a place inside quotes up to the closing quote, and the place behind it. -/
def readQuoted (quote : Char) : Nat → Cursor → Except ReadError (Text × Cursor)
  | 0, _ => .error .outOfSteps
  | steps + 1, cursor => do
    let (run, behind) ← readRun quote cursor.steps cursor
    if behind.rest.head? = some quote then return (run, behind.next)
    else
      let (gap, start) ← readGap behind
      let (further, final) ← readQuoted quote steps start
      return (run ++ gap ++ further, final)

end AsciidocSpans.Yaml
