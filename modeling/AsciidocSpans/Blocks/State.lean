import AsciidocSpans.Line.Basic
import AsciidocSpans.Log

/-!
The state in which blocks are read: the lines still to be read, the document attributes recorded
so far, and the log. A reading may fail; the state, and so the log, is kept then too.
-/

set_option autoImplicit false
set_option relaxedAutoImplicit false

namespace AsciidocSpans

/-- Why a text cannot be read. -/
inductive ParseError where
  /-- A table cell was told to span no columns. -/
  | spansNoColumns (spec : Text) (line : Int)
  /-- The bound on nested reading steps was reached. -/
  | outOfSteps
  /-- A list was asked for an entry that it does not have. -/
  | noSuchEntry
  /-- A cell style was asked for that does not exist. -/
  | noSuchStyle (letter : Char)
  deriving DecidableEq, Repr

namespace ParseError

/-- The line that an error is about; zero if it is about none. -/
def line : ParseError → Int
  | spansNoColumns _ line => line
  | outOfSteps | noSuchEntry | noSuchStyle _ => 0

/-- The wording of an error. -/
def message : ParseError → String
  | spansNoColumns spec line =>
    s!"Table cell '{String.ofList spec}|' spans no columns: line {line}"
  | outOfSteps => "Blocks are nested too deeply: line 0"
  | noSuchEntry => "list index out of range"
  | noSuchStyle letter => s!"'{String.ofList [letter]}'"

end ParseError

namespace Blocks

/-- What a reading works on. -/
structure ReadState where
  /-- The lines that are still to be read. -/
  lines : List Line
  /-- The document attributes recorded so far. -/
  entries : Attributes
  log : List LogRecord
  deriving DecidableEq, Repr

/-- The state before anything was read. -/
def ReadState.initial : ReadState :=
  { lines := [], entries := ∅, log := [] }

/-- A reading: it consumes lines, records attributes, reports, and yields a result or fails. -/
abbrev Reading := EStateM ParseError ReadState

/-- Go on with the given lines. -/
def setLines (lines : List Line) : Reading Unit :=
  modify fun state ↦ { state with lines }

/-- Report something. -/
def report (level : LogLevel) (message : String) : Reading Unit :=
  modify fun state ↦
    { state with log := state.log ++ [{ channel := .blockReading, level, message }] }

/-- Read other lines and then return to the present ones, whether the reading succeeds or not. -/
def withLines {α : Type} (lines : List Line) (reading : Reading α) : Reading α := fun state ↦
  match reading { state with lines } with
  | .ok result final => .ok result { final with lines := state.lines }
  | .error problem final => .error problem { final with lines := state.lines }

/-- Record a document attribute. A name with an exclamation mark at either end is unset. -/
def recordEntry (name value : Text) : Reading Unit :=
  modify fun state ↦
    let plain := Text.dropRightWhile (· == '!') (name.dropWhile (· == '!'))
    let entries :=
      if plain = name then state.entries.insert name value else state.entries.erase plain
    { state with entries }

/-- The lines from the first one on that is neither white space nor a comment. -/
def significant (lines : List Line) : List Line :=
  lines.dropWhile (·.shape.isIgnorable)

/-- The lines before the first one that passes a test, and the lines behind it if there is one. -/
def splitAtClosing (closes : Line → Bool) : List Line → List Line × Option (List Line)
  | [] => ([], none)
  | line :: rest =>
    if closes line then ([], some rest)
    else
      let (content, behind) := splitAtClosing closes rest
      (line :: content, behind)

/-- Read up to the closing line and past it; if there is none, read all and warn. -/
def readUntil (closes : Line → Bool) (warning : String) : Reading (List Line) := do
  let (content, behind) := splitAtClosing closes (← get).lines
  match behind with
  | some rest => setLines rest
  | none =>
    setLines []
    report .warning warning
  return content

/-- Skip a comment block whose opening line has been read. -/
def skipCommentBlock (delimiter : Text) (number : Int) : Reading Unit := do
  let _ ← readUntil (fun line ↦ line.shape == .commentDelimiter delimiter)
    s!"Unterminated comment block starting at line {number}"

end Blocks

end AsciidocSpans
