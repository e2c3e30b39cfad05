import AsciidocSpans.Position
import AsciidocSpans.Text.Basic

/-!
A source text with its lines and the offsets at which they start. Positions are turned into
offsets here. A line number of zero or below counts from the end: zero is the last line. The table
of offsets has one entry more than there are lines, for the line that would follow the text.
-/

set_option autoImplicit false
set_option relaxedAutoImplicit false

namespace AsciidocSpans

/-- The entry of a list at an index; an index below zero counts from the end. -/
def entryAt? {α : Type} (items : List α) (index : Int) : Option α :=
  if 0 ≤ index then items[index.toNat]?
  else if 0 ≤ index + items.length then items[(index + items.length).toNat]?
  else none

/-- A text, its lines and their offsets. -/
structure Source where
  text : Text
  lines : List Text
  /-- The offsets at which the lines start, and the one at which a further line would. -/
  starts : List Nat
  deriving DecidableEq, Repr

namespace Source

/-- The offsets of consecutive lines, the first of which starts at a given offset. -/
def lineStarts (start : Nat) : List Text → List Nat
  | [] => [start]
  | line :: rest => start :: lineStarts (start + line.length + 1) rest

/-- The source that a text makes. -/
def ofText (text : Text) : Source :=
  { text, lines := text.lines, starts := lineStarts 0 text.lines }

/-- The number of lines. -/
def lineCount (source : Source) : Nat :=
  source.lines.length

/-- The line with a given number. -/
def line? (source : Source) (number : Int) : Option Text :=
  entryAt? source.lines (number - 1)

/-- The offset of a column on a line. -/
def offset? (source : Source) (line column : Int) : Option Int :=
  (entryAt? source.starts (line - 1)).map fun start ↦ start + column

/-- The offset of a position. -/
def positionOffset? (source : Source) (position : Position) : Option Int :=
  source.offset? position.line position.column

/-- The offsets of the two ends of a span. -/
def range? (source : Source) (location : Location) : Option (Int × Int) := do
  return (← source.positionOffset? location.start, ← source.positionOffset? location.stop)

end Source

end AsciidocSpans
