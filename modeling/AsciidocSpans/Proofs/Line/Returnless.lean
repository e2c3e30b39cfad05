import AsciidocSpans.Proofs.Line.Captured

/-!
Lines without carriage returns. What a line carries is written in it, so that nothing by which an
element is looked for holds a carriage return if its line does not (`returnless_classifyAll`).
-/

set_option autoImplicit false
set_option relaxedAutoImplicit false

namespace AsciidocSpans.Line

open Text

variable {marker text : Text}

/-- No part of a line by which an element is looked for holds a carriage return. -/
def Shape.Returnless : Shape → Prop
  | .sectionTitle _ shown | .blockTitle shown | .blockAnchor shown _ | .blockAttributes shown
  | .listItem _ _ shown _ | .admonition _ shown => '\r' ∉ shown
  | .term shown _ description => '\r' ∉ shown ∧ ∀ described ∈ description, '\r' ∉ described
  | _ => True

/-- Neither a line nor a part of it by which an element is looked for holds a carriage return. -/
structure Returnless (line : Line) : Prop where
  input : '\r' ∉ line.input
  shape : line.shape.Returnless

theorem returnless_shapeOf (h : '\r' ∉ text) : (shapeOf marker text).Returnless := by
  have hvalue := infix_value_shapeOf marker text
  have hstands := standsIn_shapeOf marker text
  have hpart : ∀ {shown : Text}, shown <:+: text → '\r' ∉ shown :=
    fun hshown hreturn ↦ h (hshown.subset hreturn)
  cases hshape : shapeOf marker text with
  | sectionTitle | blockTitle | blockAnchor | blockAttributes | listItem | admonition =>
    rw [hshape] at hvalue
    exact hpart (hvalue rfl)
  | term shown delimiter description =>
    rw [hshape] at hvalue hstands
    obtain ⟨-, before, behind, rfl, hdescription⟩ := hstands
    refine ⟨hpart (hvalue rfl), fun described hdescribed ↦ hpart ?_⟩
    exact (hdescription described hdescribed).trans
      (List.suffix_append (before ++ shown) behind).isInfix
  | _ => trivial

theorem returnless_classify (h : '\r' ∉ text) (number : Int) :
    (classify marker text number).Returnless := by
  have hinput : '\r' ∉ (classify marker text number).input :=
    fun hreturn ↦ h ((isPrefix_input_classify marker text number).subset hreturn)
  exact ⟨hinput, returnless_shapeOf hinput⟩

/-- The lines of a text without carriage returns hold none. -/
theorem returnless_classifyAll {texts : List Text} (h : ∀ text ∈ texts, '\r' ∉ text)
    (first : Int) : ∀ line ∈ classifyAll marker first texts, line.Returnless := by
  induction texts generalizing first with
  | nil => exact nofun
  | cons text rest ih =>
    obtain ⟨htext, hrest⟩ := List.forall_mem_cons.mp h
    exact List.forall_mem_cons.mpr ⟨returnless_classify htext first, ih hrest _⟩

end AsciidocSpans.Line
