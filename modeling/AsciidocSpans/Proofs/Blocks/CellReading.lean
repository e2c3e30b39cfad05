import AsciidocSpans.Proofs.Blocks.Lines

/-!
How a cell is read. It stands on the line on which its text begins, takes up a column at least, and
shows its lines or holds a document that is read from them, as its style asks for (`CellRead`,
`cellRead_of_cellOf`).
-/

set_option autoImplicit false
set_option relaxedAutoImplicit false

namespace AsciidocSpans.Blocks

open Text

/-- The lines of the document inside a cell, if the cell is of AsciiDoc style. -/
def cellLines (commentMarker : Text) (raw : RawCell) : List Line :=
  let (lineno, started) := dropBlankStart raw.lineno raw.lines
  Line.classifyAll commentMarker lineno (documentLines (dropBlankEnd started))

/-- A cell was read from what stands in the source for it. -/
def CellOf (commentMarker : Text) (raw : RawCell) (cell : TableCell) : Prop :=
  ∃ (steps : Nat) (before behind : ReadState),
    readCell commentMarker steps raw before = .ok cell behind

/-- What a cell shows of its lines: their text, or the document that is read from them. -/
inductive CellContent (commentMarker : Text) (raw : RawCell) (cell : TableCell) : Prop
  | plain (text : cell.text = plainCellText (dropBlankEnd (dropBlankStart raw.lineno raw.lines).2))
      (empty : cell.inner = none) : CellContent commentMarker raw cell
  | document {inner : Document} {steps : Nat} {before behind : ReadState}
      (text : cell.text =
        unlines (documentLines (dropBlankEnd (dropBlankStart raw.lineno raw.lines).2)))
      (holds : cell.inner = some inner)
      (stands : inner.info.lineno = (dropBlankStart raw.lineno raw.lines).1)
      (starts : before.lines = cellLines commentMarker raw)
      (read : readBlocks commentMarker steps none none .empty before = .ok inner.blocks behind) :
      CellContent commentMarker raw cell

/-- A cell stands on the line on which its text begins, it takes up a column, and it shows its lines
without the blank ones at the start and at the end. -/
structure CellRead (commentMarker : Text) (raw : RawCell) (cell : TableCell) : Prop where
  lineno : cell.info.lineno = (dropBlankStart raw.lineno raw.lines).1
  wide : 1 ≤ cell.colspan
  content : CellContent commentMarker raw cell

/-- A specifier that does not ask for no columns asks for one at least. -/
theorem one_le_getD_of_ne {span : Option Nat} (h : span ≠ some 0) : 1 ≤ span.getD 1 := by
  cases span with
  | none => exact Nat.le_refl 1
  | some count => exact Nat.one_le_iff_ne_zero.mpr fun hzero ↦ h (congrArg some hzero)

/-- A cell that was read. -/
theorem cellRead_of_cellOf {commentMarker : Text} {raw : RawCell} {cell : TableCell}
    (h : CellOf commentMarker raw cell) : CellRead commentMarker raw cell := by
  obtain ⟨steps, before, behind, hread⟩ := h
  cases steps with
  | zero =>
    rw [readCell] at hread
    cases hread
  | succ steps =>
    rw [readCell] at hread
    dsimp only at hread
    obtain ⟨style, styled, -, hrest⟩ := bind_eq_ok.mp hread
    split at hrest
    · obtain ⟨_, _, hthrow, -⟩ := bind_eq_ok.mp hrest
      cases hthrow
    · next hspan =>
      split at hrest
      · obtain ⟨blocks, final, hwith, hmade⟩ := bind_eq_ok.mp hrest
        obtain ⟨last, hblocks⟩ := exists_ok_of_withLines hwith
        cases hmade
        exact ⟨rfl, one_le_getD_of_ne hspan, .document rfl rfl rfl rfl hblocks⟩
      · cases hrest
        exact ⟨rfl, one_le_getD_of_ne hspan, .plain rfl rfl⟩

end AsciidocSpans.Blocks
