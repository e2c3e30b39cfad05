import AsciidocSpans.Proofs.Attributes.Lookup
import AsciidocSpans.Proofs.Blocks.CellLine
import AsciidocSpans.Proofs.Blocks.Formation
import AsciidocSpans.Proofs.Blocks.Grammar
import AsciidocSpans.Proofs.Blocks.Sites
import AsciidocSpans.Proofs.Element.Preorder
import Mathlib

/-!
The rows of a table. Its cells are those that begin behind the separators of its lines, one for each
separator and in the order of the source (`cellPlaces`, `ReadAt`), and rows are cut as soon as the
cells begun take up all the columns (`RowsFilled`). A cell may be wider than what is left of its
row, so a row can take up more than the columns, but never without its last cell.

`tablesStructured_of_ofText` says so of every table in a document and in the documents inside its
cells.
-/

set_option autoImplicit false
set_option relaxedAutoImplicit false

namespace AsciidocSpans.Blocks

open Element Text

variable {commentMarker : Text} {written : List Text} {separator : Char} {content : List Line}
  {columns : Nat}

/-! ### Rows -/

section Rows

/-- The number of columns that the cells of a row take up. -/
def rowWidth (row : List TableCell) : Nat :=
  (row.map (·.colspan)).sum

/-- Rows are cut where the columns are full: every row but the last one takes up all the columns,
and no row does without its last cell. -/
structure RowsFilled (columns : Nat) (rows : List (List TableCell)) : Prop where
  nonempty : ∀ row ∈ rows, row ≠ []
  full : ∀ row ∈ rows.dropLast, columns ≤ rowWidth row
  fitting : ∀ row ∈ rows, rowWidth row.dropLast < columns

@[simp]
theorem rowWidth_append (row others : List TableCell) :
    rowWidth (row ++ others) = rowWidth row + rowWidth others := by
  simp [rowWidth]

@[simp]
theorem rowWidth_singleton (cell : TableCell) : rowWidth [cell] = cell.colspan := by
  simp [rowWidth]

theorem rowsFilled_singleton {row : List TableCell} (hrow : row ≠ [])
    (hfits : rowWidth row.dropLast < columns) : RowsFilled columns [row] := by
  constructor <;> simp [hrow, hfits]

theorem RowsFilled.cons {row : List TableCell} {rows : List (List TableCell)}
    (h : RowsFilled columns rows) (hrow : row ≠ []) (hfull : columns ≤ rowWidth row)
    (hfits : rowWidth row.dropLast < columns) : RowsFilled columns (row :: rows) where
  nonempty := List.forall_mem_cons.mpr ⟨hrow, h.nonempty⟩
  full := by
    cases rows with
    | nil => simp
    | cons next rest =>
      rw [List.dropLast_cons_cons]
      exact List.forall_mem_cons.mpr ⟨hfull, h.full⟩
  fitting := List.forall_mem_cons.mpr ⟨hfits, h.fitting⟩

/-- Cells are grouped into rows that are filled. What is begun of the first row has columns left. -/
theorem rowsFilled_groupRows (row cells : List TableCell) (hrow : rowWidth row < columns) :
    RowsFilled columns (groupRows columns row (rowWidth row) cells) := by
  induction cells generalizing row with
  | nil =>
    by_cases hnil : row = []
    · subst hnil
      constructor <;> simp [groupRows]
    · have hbegun : row.isEmpty = false := by simpa using hnil
      have hsplit := congrArg rowWidth (List.dropLast_append_getLast hnil)
      rw [rowWidth_append] at hsplit
      rw [groupRows, hbegun]
      exact rowsFilled_singleton hnil (by omega)
  | cons cell rest ih =>
    rw [groupRows]
    by_cases hfull : columns ≤ rowWidth row + cell.colspan
    · rw [if_pos hfull]
      have hrest : RowsFilled columns (groupRows columns [] 0 rest) :=
        ih [] (Nat.zero_lt_of_lt hrow)
      exact hrest.cons (by simp) (by simpa using hfull) (by simpa using hrow)
    · rw [if_neg hfull]
      have hwidth : rowWidth (row ++ [cell]) = rowWidth row + cell.colspan := by simp
      rw [← hwidth]
      exact ih (row ++ [cell]) (by omega)

end Rows

/-! ### Cells -/

section Cells

/-- The places at which the cells of some lines begin, each with its line: the columns behind the
separators. -/
def cellPlaces (separator : Char) (content : List Line) : List (Line × Nat) :=
  content.flatMap fun line ↦
    if line.shape = .blank then []
    else (separatorColumns separator line.input).map fun column ↦ (line, column + 1)

/-- A cell is read from the segment that begins at a place and from the lines behind it. -/
def ReadAt (commentMarker : Text) (separator : Char) (content : List Line) (place : Line × Nat)
    (cell : TableCell) : Prop :=
  ∃ behind segment raw, place.1 :: behind <:+ content ∧ segment.column = place.2 ∧
    SegmentCell separator place.1 behind segment raw ∧ CellOf commentMarker raw cell

/-- The segments of some lines begin at the places of their cells. -/
theorem map_cellSites (separator : Char) (content : List Line) :
    (cellSites separator content).map (fun site ↦ (site.1, site.2.2.column)) =
      cellPlaces separator content := by
  induction content with
  | nil => rfl
  | cons line rest ih =>
    rw [cellSites, List.map_append, ih, cellPlaces, cellPlaces, List.flatMap_cons]
    congr 1
    by_cases hblank : line.shape = .blank
    · simp [hblank]
    · rw [if_neg hblank, if_neg hblank, List.map_map]
      have hplaces := congrArg (List.map fun column ↦ (line, column))
        (columns_splitCellLine separator line.input)
      rw [List.map_map, List.map_map] at hplaces
      exact hplaces

/-- The cells that are read for some lines are read at the places of their cells, one by one. -/
theorem forall₂_readAt {cells : List TableCell}
    (h : List.Forall₂ (CellOf commentMarker) (gatherCells separator content).2 cells) :
    List.Forall₂ (ReadAt commentMarker separator content) (cellPlaces separator content) cells := by
  rw [← map_cellSites, List.forall₂_map_left_iff]
  have hsites := forall₂_cellSites separator content
  have hlength := hsites.length_eq
  rw [List.forall₂_iff_get] at h hsites ⊢
  refine ⟨hlength.trans h.1, fun i hsite hcell ↦ ?_⟩
  have hraw : i < (gatherCells separator content).2.length := hlength ▸ hsite
  obtain ⟨hsuffix, -, hsegment⟩ := hsites.2 i hsite hraw
  exact ⟨_, _, _, hsuffix, rfl, hsegment, h.2 i hraw hcell⟩

end Cells

/-! ### Tables -/

section Tables

variable {info : ElementInfo} {headRows bodyRows : List (List TableCell)}

/-- A table that stands in a text has the cells of its lines, each of them once and in order, in
rows that are filled; its cells and the table itself take up columns, at most one row is in its
head, and its rows and columns are counted. -/
structure TableStructured (commentMarker : Text) (written : List Text) (info : ElementInfo)
    (columns : Nat) (headRows bodyRows : List (List TableCell)) : Prop where
  cells : ∃ index column line rest separator delimiter,
    Sited commentMarker written index column (line :: rest) ∧
    line.shape = .tableDelimiter separator delimiter ∧ (separator = '|' ∨ separator = '!') ∧
    info.lineno = line.number ∧
    List.Forall₂ (ReadAt commentMarker separator (tableContent separator rest))
      (cellPlaces separator (tableContent separator rest)) (headRows ++ bodyRows).flatten
  rows : RowsFilled columns (headRows ++ bodyRows)
  spans : ∀ cell ∈ (headRows ++ bodyRows).flatten, 1 ≤ cell.colspan
  wide : 1 ≤ columns
  head : headRows.length ≤ 1
  colcount : info.attributes.get? "colcount".toList = some (ofInt columns)
  rowcount : info.attributes.get? "rowcount".toList = some (ofInt (headRows ++ bodyRows).length)

/-- An element is structured if it is a table. -/
def StructuredIfTable (commentMarker : Text) (written : List Text) : Element → Prop
  | .table info columns headRows bodyRows =>
    TableStructured commentMarker written info columns headRows bodyRows
  | _ => True

theorem tableStructured_of_formed
    (h : Formed commentMarker (BeginIn commentMarker written)
      (.table info columns headRows bodyRows)) :
    TableStructured commentMarker written info columns headRows bodyRows := by
  obtain ⟨metadata, line, rest, content, separator, delimiter, cells, waits, shape, -, read, made,
    known, closed⟩ := h.table_cases
  obtain ⟨index, column, hsited⟩ := waits.here lasting_beginIn
  obtain ⟨_, _, _, _, hmade, hnumber, hwide, hhead, hrows, hcolcount, hrowcount⟩ :=
    exists_makeTable line.number separator content metadata.attributes cells
  rw [hmade] at made
  cases made
  have hcells : (headRows ++ bodyRows).flatten = cells := by
    rw [hrows, flatten_groupRows, List.nil_append]
  have hplaced : List.Forall₂ (ReadAt commentMarker separator (tableContent separator rest))
      (cellPlaces separator (tableContent separator rest)) (headRows ++ bodyRows).flatten := by
    rw [hcells, tableContent, ← closed]
    exact forall₂_readAt read
  have hfilled : RowsFilled columns (headRows ++ bodyRows) := by
    rw [hrows]
    exact rowsFilled_groupRows [] cells hwide
  have hspans : ∀ cell ∈ (headRows ++ bodyRows).flatten, 1 ≤ cell.colspan := by
    intro cell hcell
    rw [hcells] at hcell
    obtain ⟨raw, -, hof⟩ := exists_of_forall₂_of_mem read.flip hcell
    exact (cellRead_of_cellOf hof).wide
  exact ⟨⟨index, column, line, rest, separator, delimiter, hsited, shape, known, hnumber, hplaced⟩,
    hfilled, hspans, hwide, hhead, hcolcount, hrowcount⟩

/-- Every table of a document, and of the documents inside its cells, is structured. -/
theorem tablesStructured_of_ofText {text : Text} {document : Document}
    (h : (Document.ofText commentMarker text).1 = .ok document) :
    AllEverywhere (StructuredIfTable commentMarker text.lines) document.blocks := by
  intro element helement held hheld
  have hformed := formed_of_ofText lasting_beginIn ⟨0, 0, .text⟩ h element helement held hheld
  cases held with
  | table info columns headRows bodyRows => exact tableStructured_of_formed hformed
  | _ => trivial

/-- The number of columns of a table, and those that the cells of its rows take up. -/
def spansOfTable? : Element → Option (Nat × List (List Nat))
  | .table _ columns headRows bodyRows =>
    some (columns, (headRows ++ bodyRows).map fun row ↦ row.map (·.colspan))
  | _ => none

/-- A row may be wider than the table, and the last one may be narrower; a table inside a cell has
rows of its own, and a separator behind a backslash begins no cell. -/
theorem tablesStructured_wide_and_nested :
    let text : Text := "|===\n|a |b\n\n|c 3+|d\na|!===\n!p \\! q 2+!r\n!s\n!===\n|===".toList
    ∃ document, (Document.ofText "//".toList text).1 = .ok document ∧
      (Element.document document).preorder.filterMap spansOfTable? =
        [(2, [[1, 1], [1, 3], [1]]), (3, [[1, 2], [1]])] ∧
      AllEverywhere (StructuredIfTable "//".toList text.lines) document.blocks := by
  intro text
  obtain ⟨document, hdocument, hspans⟩ := exists_of_okAnd (show okAnd
      (Document.ofText "//".toList text).1 (fun document ↦
        decide ((Element.document document).preorder.filterMap spansOfTable? =
          [(2, [[1, 1], [1, 3], [1]]), (3, [[1, 2], [1]])])) = true by decide +kernel)
  exact ⟨document, hdocument, of_decide_eq_true hspans, tablesStructured_of_ofText hdocument⟩

end Tables

end AsciidocSpans.Blocks
