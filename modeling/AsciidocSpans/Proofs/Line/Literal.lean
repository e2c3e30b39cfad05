import AsciidocSpans.Proofs.Line.Captured

/-!
What a line captures, literally. The line as it is classified is the line without the carriage
returns at its end. The payload of every shape but that of a delimited block is a stretch of it, and
so are the reference text of an anchor, the attributes of a macro and the description behind a term.
The payloads of titles, entries, admonitions, items and indented text have no white space at either
end (`Stripped`), and that of an unordered item has lost the box that it starts with (`BoxTaken`).
All of this is put together in `capturesLiterally_classify`.
-/

set_option autoImplicit false
set_option relaxedAutoImplicit false

namespace AsciidocSpans.Line

open Text

variable {marker text : Text}

/-- Whether the payload of a line is shown without the white space around it. -/
def Shape.isStripped : Shape → Bool
  | .sectionTitle .. | .blockTitle _ | .attributeEntry .. | .admonition .. | .listItem ..
  | .indentedText .. => true
  | _ => false

/-- The names of the further parts of a line that are written in it. -/
def literalExtras : List Text :=
  ["reftext".toList, "attributes".toList, "text".toList]

/-- A line that was classified captures its parts literally: it is the text without carriage returns
at the end, its payload and its further parts are stretches of it, the payloads of titles, entries,
admonitions, items and indented text have no white space at either end, and an unordered item has
lost its box. -/
structure CapturesLiterally (text : Text) (line : Line) : Prop where
  returns : ∃ count, text = line.input ++ List.replicate count '\r'
  returnless : line.input.getLast? ≠ some '\r'
  value : line.shape.isBlockDelimiter = false → line.shape.value <:+: line.input
  extras : ∀ name ∈ literalExtras, ∀ part ∈ line.shape.extras.get? name, part <:+: line.input
  stripped : line.shape.isStripped → Stripped line.shape.value
  box : ∀ itemMarker shown checkbox,
    line.shape = .listItem .unordered itemMarker shown checkbox →
      BoxTaken line.input shown checkbox

/-- The further parts of a shape are written in its line. -/
theorem infix_extras_shapeOf : ∀ name ∈ literalExtras,
    ∀ part ∈ (shapeOf marker text).extras.get? name, part <:+: text := by
  have hrecognised := recognised_shapeOf marker text
  have hstands := standsIn_shapeOf marker text
  intro name hname part hpart
  have hsingle : ∀ {key value : Text}, part ∈ (⟨[(key, value)]⟩ : Attributes).get? name →
      name = key ∧ part = value := by
    intro key value hget
    change List.lookup name [(key, value)] = some part at hget
    rw [List.lookup_cons] at hget
    split at hget
    · next heq => exact ⟨beq_iff_eq.mp heq, (Option.some.inj hget).symm⟩
    · cases hget
  cases hshape : shapeOf marker text with
  | blockAnchor id reftext =>
    rw [hshape] at hpart hrecognised
    obtain ⟨behind, rfl, hreftext⟩ := hrecognised
    cases reftext with
    | none => cases hpart
    | some shown =>
      rw [(hsingle hpart).2]
      exact (hreftext shown rfl).trans (List.suffix_append ('[' :: '[' :: id) behind).isInfix
  | blockMacro macroName target body =>
    rw [hshape] at hpart hrecognised
    obtain ⟨behind, -, htext⟩ := hrecognised
    rw [(hsingle hpart).2]
    refine ⟨macroName ++ ':' :: ':' :: target ++ ['['], ']' :: behind, ?_⟩
    simp [htext]
  | term shown delimiter description =>
    rw [hshape] at hpart hstands
    obtain ⟨-, before, behind, rfl, hdescription⟩ := hstands
    cases description with
    | none => cases hpart
    | some described =>
      rw [(hsingle hpart).2]
      exact (hdescription described rfl).trans (List.suffix_append _ _).isInfix
  | listItem kind itemMarker shown checkbox =>
    rw [hshape] at hpart
    cases checkbox with
    | none => cases hpart
    | some box =>
      rw [(hsingle hpart).1] at hname
      exact absurd hname (by decide)
  | indentedText shown indent =>
    rw [hshape] at hpart
    rw [(hsingle hpart).1] at hname
    exact absurd hname (by decide)
  | _ =>
    rw [hshape] at hpart
    cases hpart

/-- The payload of a shape that is stripped has no white space at either end. -/
theorem stripped_value_shapeOf (h : (shapeOf marker text).isStripped) :
    Stripped (shapeOf marker text).value := by
  have hrecognised := recognised_shapeOf marker text
  cases hshape : shapeOf marker text with
  | attributeEntry | sectionTitle | admonition | listItem =>
    rw [hshape] at hrecognised
    exact hrecognised.1
  | blockTitle =>
    rw [hshape] at hrecognised
    exact hrecognised.2.1
  | indentedText =>
    rw [hshape] at hrecognised
    exact hrecognised ▸ stripped_trim text
  | _ =>
    rw [hshape] at h
    cases h

/-- Whatever the marker of comments and the number of the line, a line captures its parts
literally. -/
theorem capturesLiterally_classify (marker text : Text) (number : Int) :
    CapturesLiterally text (classify marker text number) := by
  constructor
  · obtain ⟨dropped, htext, hdropped⟩ := exists_dropped (· == '\r') text
    refine ⟨dropped.length, ?_⟩
    rw [← List.eq_replicate_of_mem fun c hc ↦ beq_iff_eq.mp (hdropped c hc)]
    exact htext
  · intro hlast
    have hreturn := getLast?_dropRightWhile (· == '\r') text '\r' hlast
    cases hreturn
  · exact infix_value_shapeOf _ _
  · exact infix_extras_shapeOf
  · exact stripped_value_shapeOf
  · intro itemMarker shown checkbox hshape
    have hrecognised := recognised_shapeOf marker (text.dropRightWhile (· == '\r'))
    change shapeOf marker (text.dropRightWhile (· == '\r')) = _ at hshape
    rw [hshape] at hrecognised
    exact hrecognised.2.1 rfl

end AsciidocSpans.Line
