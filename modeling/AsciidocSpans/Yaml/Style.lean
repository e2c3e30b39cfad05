import AsciidocSpans.Text.Quoted
import AsciidocSpans.Yaml.Sheet
import AsciidocSpans.Yaml.Word

/-!
Writing a text as a scalar: plainly if it reads back as itself, between single quotes if it has
printable ASCII characters and line breaks only, and between double quotes otherwise. A line that
has become too long is broken at a space; between double quotes backslashes keep the break and the
space apart from the text.
-/

set_option autoImplicit false
set_option relaxedAutoImplicit false

namespace AsciidocSpans.Yaml

/-- The column behind which a line is broken. -/
def bestWidth : Nat :=
  80

/-- How a text is written. -/
inductive Style where
  | plain
  | singleQuoted
  | doubleQuoted
  deriving DecidableEq, Repr

/-- Whether a character may be written without an escape. -/
def isUnescaped (c : Char) : Bool :=
  ' ' ≤ c && c ≤ '~'

/-- Whether plain text may begin so. -/
def isPlainStart (text : Text) : Bool :=
  match text with
  | [] => false
  | c :: rest =>
    !" #,[]\x7b\x7d&*!|>'\"%@\x60".toList.contains c &&
      !("?:-".toList.contains c && (rest.isEmpty || rest.head? == some ' ')) &&
      !"---".toList.isPrefixOf text && !"...".toList.isPrefixOf text

/-- Whether plain text may go on so: no colon before a space or the end, no number sign behind a
space, and no space at the end. -/
def isPlainContinuation : Text → Bool
  | [] => true
  | [c] => c != ':' && c != ' '
  | ':' :: ' ' :: _ => false
  | ' ' :: '#' :: _ => false
  | _ :: rest => isPlainContinuation rest

/-- Whether a text is written plainly. -/
def isWrittenPlainly (text : Text) : Bool :=
  text.all isUnescaped && isPlainStart text && isPlainContinuation text && Tag.ofWord text == .text

/-- Whether a text has a space beside a line break. -/
def hasSpaceAtBreak : Text → Bool
  | ' ' :: '\n' :: _ => true
  | '\n' :: ' ' :: _ => true
  | _ :: rest => hasSpaceAtBreak rest
  | [] => false

/-- How a text is written. -/
def Style.ofText (text : Text) : Style :=
  if isWrittenPlainly text then .plain
  else if text.all (fun c ↦ isUnescaped c || c == '\n') && !hasSpaceAtBreak text then .singleQuoted
  else .doubleQuoted

/-- Whether a text has more than one line. -/
def hasBreak (text : Text) : Bool :=
  text.any isBreak

/-! ### Runs -/

/-- The class of a character: a space, a line break or another one. -/
def runClass (c : Char) : Nat :=
  if c = ' ' then 0 else if c = '\n' then 1 else 2

/-- A text cut between characters of different classes. -/
def runs (text : Text) : List Text :=
  text.splitBy fun c d ↦ runClass c == runClass d

/-- Write runs of plain text, breaking long lines at single spaces. -/
def putPlainRuns (folds : Bool) (indent : Nat) (sheet : Sheet) : List Text → Sheet
  | [] => sheet
  | run :: rest =>
    let next :=
      if run = [' '] ∧ folds ∧ bestWidth < sheet.column then sheet.foldTo indent
      else sheet.put run
    putPlainRuns folds indent next rest

/-- Write line breaks between single quotes: one more than there are, and the indentation of the
next line. -/
def putBreaks (indent : Nat) (sheet : Sheet) (breaks : Text) : Sheet :=
  (breaks.foldl (fun sheet _ ↦ sheet.newLine) sheet.newLine).indentTo indent

/-- Write runs of text between single quotes, breaking long lines at single spaces that do not stand
at an end of the text. -/
def putQuotedRuns (folds : Bool) (indent : Nat) (isFirst : Bool) (sheet : Sheet) :
    List Text → Sheet
  | [] => sheet
  | run :: rest =>
    let isInner := !isFirst && !rest.isEmpty
    let next :=
      if run.head? = some '\n' then putBreaks indent sheet run
      else if run = [' '] ∧ folds ∧ isInner ∧ bestWidth < sheet.column then sheet.indentTo indent
      else sheet.put (run.flatMap fun c ↦ if c = '\'' then ['\'', '\''] else [c])
    putQuotedRuns folds indent false next rest

/-! ### Escapes -/

/-- Whether a character is written as itself between double quotes. -/
def isLiteral (c : Char) : Bool :=
  isUnescaped c && c != '"' && c != '\\'

/-- The escape of a character. -/
def escaped (c : Char) : Text :=
  match escapeLetters.find? fun pair ↦ pair.2 == c with
  | some pair => ['\\', pair.1]
  | none =>
    let digits := fun width ↦ (Text.hexDigits width c.toNat).map Char.toUpper
    if c.toNat < 0x100 then '\\' :: 'x' :: digits 2
    else if c.toNat < 0x10000 then '\\' :: 'u' :: digits 4
    else '\\' :: 'U' :: digits 8

/-- Break a line between double quotes behind some text, before what comes next. A space at the
start of the next line is marked as part of the text. -/
def foldEscaped (indent : Nat) (sheet : Sheet) (text : Text) (next : Option Char) : Sheet :=
  let folded := (sheet.put (text ++ ['\\'])).foldTo indent
  if next = some ' ' then folded.put ['\\'] else folded

/-- Write text between double quotes. Literal characters wait until they are known to fit; a long
line may be broken before a space, and behind an escape. -/
def putEscaped (folds : Bool) (indent : Nat) (isFirst : Bool) (waiting : Text) (sheet : Sheet) :
    Text → Sheet
  | [] => sheet.put waiting
  | c :: rest =>
    let isInner := folds && !isFirst && !rest.isEmpty
    if isLiteral c then
      if isInner ∧ (c = ' ' ∨ waiting.isEmpty) ∧ bestWidth < sheet.column + waiting.length then
        putEscaped folds indent false [c] (foldEscaped indent sheet waiting c) rest
      else putEscaped folds indent false (waiting ++ [c]) sheet rest
    else
      let sheet := (sheet.put waiting).put (escaped c)
      if isInner ∧ bestWidth + 1 < sheet.column then
        putEscaped folds indent false [] (foldEscaped indent sheet [] rest.head?) rest
      else putEscaped folds indent false [] sheet rest

/-! ### Texts -/

/-- Write a text, folding long lines if that is allowed, with further lines in a column. -/
def putText (folds : Bool) (indent : Nat) (sheet : Sheet) (text : Text) : Sheet :=
  let start := sheet.beginContent
  match Style.ofText text with
  | .plain => putPlainRuns folds indent start (runs text)
  | .singleQuoted => (putQuotedRuns folds indent true (start.put ['\'']) (runs text)).close ['\'']
  | .doubleQuoted => (putEscaped folds indent true [] (start.put ['"']) text).close ['"']

end AsciidocSpans.Yaml
