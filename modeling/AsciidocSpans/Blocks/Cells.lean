import AsciidocSpans.AttributeList
import AsciidocSpans.Blocks.CellSpec
import AsciidocSpans.Text.Blank

/-!
The cells of a table. A line is cut at the separators that no backslash stands before; what stands
before the first separator is the specifier of the first cell or else goes on with the cell of an
earlier line, and the specifier of any other cell ends the segment before it. Lines without a
separator continue the cell before them, so a cell may span several lines; blank lines at its start
move its beginning down. Cells are then grouped into rows by their column spans.
-/

set_option autoImplicit false
set_option relaxedAutoImplicit false

namespace AsciidocSpans.Blocks

open Text

/-- A cell as it stands on one line: the column behind its separator, its specifier and its
content. -/
structure CellSegment where
  column : Nat
  spec : Text
  content : Text
  deriving DecidableEq, Repr

/-- A text cut at the separators that no backslash stands before. The state is whether the
character before the text is a backslash. -/
def cutCells (separator : Char) (escaped : Bool) : Text → List Text
  | [] => [[]]
  | c :: rest =>
    if c = separator ∧ escaped = false then [] :: cutCells separator (c == '\\') rest
    else match cutCells separator (c == '\\') rest with
      | [] => [[c]]
      | part :: others => (c :: part) :: others

/-- A segment and the specifier of the next cell, which white space separates from it. -/
def splitNextSpec (segment : Text) : Text × Text :=
  let reversed := segment.reverse
  let spec := (reversed.takeWhile (!isBlank ·)).reverse
  match reversed.dropWhile (!isBlank ·) with
  | _ :: before =>
    if spec ≠ [] ∧ (CellSpec.parse? spec).isSome then (before.reverse, spec) else (segment, [])
  | [] => (segment, [])

/-- The cells of the parts behind a line's first separator. -/
def cellSegments (column : Nat) (spec : Text) : List Text → List CellSegment
  | [] => []
  | [last] => [{ column, spec, content := last }]
  | part :: rest =>
    let (content, next) := splitNextSpec part
    { column, spec, content } :: cellSegments (column + part.length + 1) next rest

/-- The text of a line that continues the cell before it, and the cells on the line. -/
def splitCellLine (separator : Char) (text : Text) : Text × List CellSegment :=
  match cutCells separator false text with
  | lead :: part :: parts =>
    let spec := trim lead
    if (CellSpec.parse? spec).isSome then
      ([], cellSegments (lead.length + 1) spec (part :: parts))
    else (lead, cellSegments (lead.length + 1) [] (part :: parts))
  | _ => (text, [])

/-- A cell with the line of its separator, its specifier and its content lines as written. -/
structure RawCell where
  lineno : Int
  spec : Text
  lines : List Text
  deriving DecidableEq, Repr

/-- The cells of one line, where the last one goes on with further lines. -/
def rawCells (lineno : Int) (further : List Text) : List CellSegment → List RawCell
  | [] => []
  | [last] => [{ lineno, spec := last.spec, lines := last.content :: further }]
  | segment :: rest =>
    { lineno, spec := segment.spec, lines := [segment.content] } :: rawCells lineno further rest

/-- The lines at the start of a table's content that would continue a cell before it, and the cells
of the content. -/
def gatherCells (separator : Char) : List Line → List Text × List RawCell
  | [] => ([], [])
  | line :: rest =>
    let (further, cells) := gatherCells separator rest
    if line.shape = .blank then ([] :: further, cells)
    else
      match splitCellLine separator line.input with
      | (continuation, []) => (continuation :: further, cells)
      | (continuation, segments) =>
        (if continuation.isEmpty then [] else [continuation],
          rawCells line.number further segments ++ cells)

/-- The content lines of a cell from its first line with text on, and the number of that line. The
last line is kept even if it is blank. -/
def dropBlankStart (lineno : Int) : List Text → Int × List Text
  | first :: second :: rest =>
    if allBlank first then dropBlankStart (lineno + 1) (second :: rest)
    else (lineno, first :: second :: rest)
  | lines => (lineno, lines)

/-- Content lines without the blank ones at their end. -/
def dropBlankEnd (lines : List Text) : List Text :=
  (lines.reverse.dropWhile allBlank).reverse

/-- The number of columns that a `cols` attribute asks for: an entry counts once, or as often as
its multiplier says. -/
def countColumns (cols : Text) : Nat :=
  let entries := AttributeList.splitEntries (cols.map fun c ↦ if c = ';' then ',' else c)
  entries.foldl (fun count entry ↦
    match entry.takeWhile isDecimal, entry.dropWhile isDecimal with
    | first :: digits, '*' :: _ => count + decimalValue (first :: digits)
    | _, _ => count + 1) 0

/-- The number of columns that a cell specifier takes up. -/
def specWidth (spec : Text) : Nat :=
  ((CellSpec.parse? spec).bind (·.colspan)).getD 1

/-- The number of columns of a table: what its `cols` attribute says, or else the width of the
first content line that has cells; at least one. -/
def columnCount (cols : Option Text) (separator : Char) (content : List Line) : Nat :=
  match cols with
  | some (c :: rest) => max 1 (countColumns (c :: rest))
  | _ =>
    let widths := content.filterMap fun line ↦
      if line.shape = .blank then none
      else match (splitCellLine separator line.input).2 with
        | [] => none
        | segments =>
          some (segments.foldl (fun width segment ↦ width + specWidth segment.spec) 0)
    max 1 (widths.headD 1)

/-- Group cells into rows: a row is full when its cells take up all the columns. The state is the
row begun and its width. -/
def groupRows (columns : Nat) (row : List TableCell) (width : Nat) :
    List TableCell → List (List TableCell)
  | [] => if row.isEmpty then [] else [row]
  | cell :: rest =>
    if columns ≤ width + cell.colspan then (row ++ [cell]) :: groupRows columns [] 0 rest
    else groupRows columns (row ++ [cell]) (width + cell.colspan) rest

/-- Whether the layout of a table makes its first row a header: text on the first content line and
nothing on the second. -/
def hasHeaderLayout : List Line → Bool
  | first :: second :: _ => first.shape != .blank && second.shape == .blank
  | _ => false

/-- A table made of its cells and its block attributes, of which the positional ones are left
out. -/
def makeTable (number : Int) (separator : Char) (content : List Line) (given : Attributes)
    (cells : List TableCell) : Element :=
  let attributes := given.filter fun name _ ↦ name.isEmpty || !name.all isDigit
  let columns := columnCount (attributes.get? "cols".toList) separator content
  let rows := groupRows columns [] 0 cells
  let hasHeader := attributes.contains "header-option".toList ||
    (hasHeaderLayout content && !attributes.contains "noheader-option".toList)
  let width := (attributes.get? "width".toList).getD "100%".toList
  let counted := ((attributes.insert "colcount".toList (ofInt columns)).insert
    "rowcount".toList (ofInt rows.length)).insert
    "tablepcwidth".toList (dropRightWhile (· == '%') width)
  let info := { lineno := number, attributes := counted }
  if hasHeader then .table info columns (rows.take 1) (rows.drop 1)
  else .table info columns [] rows

end AsciidocSpans.Blocks
