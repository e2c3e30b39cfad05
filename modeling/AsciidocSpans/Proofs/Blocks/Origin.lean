import AsciidocSpans.Proofs.Blocks.CellReading
import AsciidocSpans.Proofs.Element.Parts
import Mathlib.Data.List.Forall2

/-!
Where elements come from. Every element that was read stands on a line that was still to be read
when its reading began, and the cells of a table were read, in order, from the lines behind that
(`Origin`). What is known of these lines is a property that reading keeps (`Lasting`): it passes on
to what is left of the lines and to the lines of the document inside a cell.
-/

set_option autoImplicit false
set_option relaxedAutoImplicit false

namespace AsciidocSpans.Blocks

open Element

variable {commentMarker : Text} {I : List Line → Prop}

/-- A property of the lines to be read that reading keeps. -/
structure Lasting (commentMarker : Text) (I : List Line → Prop) : Prop where
  suffix : ∀ {rest lines}, rest <:+ lines → I lines → I rest
  cell : ∀ {separator content lines raw}, content <+: lines → I lines →
    raw ∈ (gatherCells separator content).2 → I (cellLines commentMarker raw)

theorem lasting_true : Lasting commentMarker fun _ ↦ True where
  suffix _ _ := trivial
  cell _ _ _ := trivial

/-- A number is that of a line, the first one of some lines that were to be read. -/
def StandsOn (I : List Line → Prop) (number : Int) : Prop :=
  ∃ line rest, I (line :: rest) ∧ number = line.number

/-- Cells were read, in order, from the lines behind the line of a table. -/
def CellsOf (commentMarker : Text) (I : List Line → Prop) (number : Int)
    (cells : List TableCell) : Prop :=
  ∃ separator line rest content, I (line :: rest) ∧ number = line.number ∧ content <+: rest ∧
    List.Forall₂ (CellOf commentMarker) (gatherCells separator content).2 cells

/-- An element stands on a line that was to be read, and the rows of a table are made of the cells
that were read from the lines behind it. -/
structure Origin (commentMarker : Text) (I : List Line → Prop) (element : Element) : Prop where
  stands : StandsOn I element.lineno
  rows : ∀ info columns headRows bodyRows, element = .table info columns headRows bodyRows →
    CellsOf commentMarker I info.lineno (headRows ++ bodyRows).flatten ∧
      ∀ row ∈ headRows ++ bodyRows, row ≠ []

end AsciidocSpans.Blocks
