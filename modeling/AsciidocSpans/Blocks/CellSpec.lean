import AsciidocSpans.Element.Basic
import AsciidocSpans.Text.Digit

/-!
Cell specifiers: the text before a cell's separator that says how often the cell is repeated, how
many columns and rows it spans, how it is aligned and in which style it is read, in this order
and each part optional. Repetition, row spans and alignment are accepted and have no effect.
-/

set_option autoImplicit false
set_option relaxedAutoImplicit false

namespace AsciidocSpans.Blocks

open Text

/-- The parts of a cell specifier that have an effect. -/
structure CellSpec where
  /-- The number of columns, where it is given. -/
  colspan : Option Nat
  /-- The letter of its style, where it is given. -/
  letter : Option Char
  deriving DecidableEq, Repr

namespace CellSpec

/-- A text without a repetition such as `3*` at its start. -/
def dropRepetition (text : Text) : Text :=
  match text.takeWhile isDecimal, text.dropWhile isDecimal with
  | _ :: _, '*' :: rest => rest
  | _, _ => text

/-- A text without a row span such as `.2` at its start. -/
def dropRowSpan (text : Text) : Text :=
  match text with
  | '.' :: rest => if (rest.takeWhile isDecimal).isEmpty then text else rest.dropWhile isDecimal
  | _ => text

/-- The column span at the start of a text, such as `2+` or `2.3+`, if there is one, and the
rest. -/
def takeSpan (text : Text) : Option Nat × Text :=
  let columns := text.takeWhile isDecimal
  match dropRowSpan (text.dropWhile isDecimal) with
  | '+' :: rest => (if columns.isEmpty then none else some (decimalValue columns), rest)
  | _ => (none, text)

/-- Whether a character is an alignment. -/
def isAlignment (c : Char) : Bool :=
  c == '<' || c == '^' || c == '>'

/-- A text without a horizontal alignment at its start. -/
def dropHorizontal : Text → Text
  | c :: rest => if isAlignment c then rest else c :: rest
  | [] => []

/-- A text without a vertical alignment, a dot and a sign, at its start. -/
def dropVertical : Text → Text
  | '.' :: c :: rest => if isAlignment c then rest else '.' :: c :: rest
  | text => text

/-- The letters that may name a style. -/
def styleLetters : List Char :=
  "adehlmsv".toList

/-- The style that a letter stands for. -/
def styleOf? : Char → Option CellStyle
  | 'a' => some .asciidoc
  | 'd' => some .plain
  | 'e' => some .emphasis
  | 'h' => some .header
  | 'l' => some .literal
  | 'm' => some .monospaced
  | 's' => some .strong
  | 'v' => some .verse
  | _ => none

/-- Read a whole text as a cell specifier; the empty text is one. -/
def parse? (text : Text) : Option CellSpec :=
  let (colspan, afterSpan) := takeSpan (dropRepetition text)
  match dropVertical (dropHorizontal afterSpan) with
  | [] => some { colspan, letter := none }
  | [letter] =>
    if styleLetters.contains letter then some { colspan, letter := some letter } else none
  | _ => none

end CellSpec

end AsciidocSpans.Blocks
