import AsciidocSpans.Proofs.Blocks.Formation
import AsciidocSpans.Proofs.Span.Matched

/-!
Documents inside table cells. However deep a cell lies in the elements of a document, it was read
from what stands for it behind the line of a table (`exists_raw_of_hasCell`), and its document was
read like the blocks of a whole text: from the lines of the cell's own text, numbered from the
cell's line on (`ReadFromCell`, `readFromCell_of_ofText`).
-/

set_option autoImplicit false
set_option relaxedAutoImplicit false

namespace AsciidocSpans.Blocks

open Element

variable {commentMarker : Text} {cell : TableCell} {raw : RawCell}

/-- The document inside a cell, if there is one, was read from the lines of the cell's text. -/
def ReadFromCell (commentMarker : Text) (cell : TableCell) : Prop :=
  ∀ document ∈ cell.inner, ∃ (texts : List Text) (steps : Nat) (before behind : ReadState),
    Text.unlines texts = cell.text ∧
    before.lines = Line.classifyAll commentMarker document.info.lineno texts ∧
    readBlocks commentMarker steps none none .empty before = .ok document.blocks behind

theorem readFromCell_of_cellOf (h : CellOf commentMarker raw cell) :
    ReadFromCell commentMarker cell := by
  intro document hdocument
  cases (cellRead_of_cellOf h).content with
  | plain _ empty =>
    rw [empty] at hdocument
    cases hdocument
  | document text holds stands starts read =>
    rw [holds] at hdocument
    cases hdocument
    rw [stands]
    exact ⟨_, _, _, _, text.symm, starts, read⟩

/-- A cell somewhere in an element was read from what stands for it behind the line of a table. -/
theorem exists_raw_of_hasCell {I : List Line → Prop} {element : Element}
    (h : element.Everywhere (Origin commentMarker I)) (hcell : element.HasCell cell) :
    ∃ separator line rest content raw, I (line :: rest) ∧ content <+: rest ∧
      raw ∈ (gatherCells separator content).2 ∧ CellOf commentMarker raw cell := by
  induction hcell with
  | here mem =>
    obtain ⟨⟨separator, line, rest, content, hline, -, hcontent, hcells⟩, -⟩ :=
      h.here.rows _ _ _ _ rfl
    obtain ⟨raw, hraw, hread⟩ := exists_of_forall₂_of_mem hcells.flip mem
    exact ⟨separator, line, rest, content, raw, hline, hcontent, hraw, hread⟩
  | inside mem has ih => exact ih (h.parts _ mem)

/-- The documents inside the table cells of a document that is made of a text were read from the
texts of the cells. -/
theorem readFromCell_of_ofText {text : Text} {document : Document}
    (h : (Document.ofText commentMarker text).1 = .ok document)
    (hcell : (Element.document document).HasCell cell) : ReadFromCell commentMarker cell := by
  have horigin := origin_of_ofText lasting_true trivial h
  cases hcell with
  | inside mem has =>
    obtain ⟨_, _, _, _, raw, -, -, -, hread⟩ := exists_raw_of_hasCell (horigin _ mem) has
    exact readFromCell_of_cellOf hread

end AsciidocSpans.Blocks
