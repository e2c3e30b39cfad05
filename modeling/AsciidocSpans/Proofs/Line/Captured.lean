import AsciidocSpans.Proofs.Line.Recognised

/-!
What is captured from a line stands in the line. The payload of every shape but that of a delimited
block is a stretch of the line (`infix_value_shapeOf`). A description stands behind its term, a
comment starts with the comment marker, and a block title is the whole of its line behind a full
stop, without the white space at the end (`standsIn_shapeOf`). The other way round, a line that
starts with the marker is white space, a comment, or the delimiter of a comment block
(`isPassedOver_of_isPrefix`).
-/

set_option autoImplicit false
set_option relaxedAutoImplicit false

namespace AsciidocSpans.Line

open Text

variable {marker text : Text}

/-- What a shape shows of a line is written in it, a description behind its term; a comment starts
with the comment marker, and a block title makes up its line together with a full stop. -/
def Shape.StandsIn (marker input : Text) : Shape → Prop
  | .comment _ => marker <+: input
  | .sectionTitle _ shown | .listItem _ _ shown _ => shown <:+: input
  | .term shown _ description => shown ≠ [] ∧ ∃ before behind, input = before ++ shown ++ behind ∧
    ∀ described ∈ description, described <:+: behind
  | .blockTitle title => title ≠ [] ∧ trimRight input = '.' :: title
  | _ => True

/-- Whether a line is passed over between the parts of a document: white space, a comment, or the
delimiter of a comment block. -/
def Shape.isPassedOver : Shape → Bool
  | .blank | .comment _ | .commentDelimiter _ => true
  | _ => false

/-- Whether a line opens or closes a delimited block, whose payload is the kind of the block. -/
def Shape.isBlockDelimiter : Shape → Bool
  | .blockDelimiter .. => true
  | _ => false

/-- The payload of a shape is written in its line. -/
theorem infix_value_shapeOf (marker text : Text)
    (h : (shapeOf marker text).isBlockDelimiter = false) :
    (shapeOf marker text).value <:+: text := by
  have hrecognised := recognised_shapeOf marker text
  cases hshape : shapeOf marker text with
  | blank | thematicBreak | pageBreak => exact List.nil_infix
  | blockDelimiter =>
    rw [hshape] at h
    cases h
  | comment shown =>
    rw [hshape] at hrecognised
    exact ⟨marker, [], by simpa [Shape.value] using hrecognised.symm⟩
  | commentDelimiter | tableDelimiter =>
    rw [hshape] at hrecognised
    exact hrecognised ▸ (isPrefix_trimRight text).isInfix
  | listContinuation =>
    rw [hshape] at hrecognised
    have hline : trimRight text = ['+'] := hrecognised
    have hsign : ['+'] <:+: text := hline ▸ (isPrefix_trimRight text).isInfix
    exact hsign
  | plainText shown =>
    rw [hshape] at hrecognised
    exact hrecognised ▸ (isPrefix_trimRight text).isInfix
  | indentedText shown =>
    rw [hshape] at hrecognised
    exact hrecognised ▸ isInfix_trim text
  | blockTitle title =>
    rw [hshape] at hrecognised
    have hline : '.' :: title <:+: text := hrecognised.2.2 ▸ (isPrefix_trimRight text).isInfix
    exact (List.suffix_cons '.' title).isInfix.trans hline
  | fence language =>
    rw [hshape] at hrecognised
    obtain ⟨behind, -, htext⟩ := hrecognised
    exact ⟨_, _, htext.symm⟩
  | blockAnchor id =>
    rw [hshape] at hrecognised
    obtain ⟨behind, htext, -⟩ := hrecognised
    exact ⟨['[', '['], behind, htext.symm⟩
  | blockAttributes body =>
    rw [hshape] at hrecognised
    obtain ⟨behind, -, htext⟩ := hrecognised
    exact ⟨['['], ']' :: behind, htext.symm⟩
  | blockMacro name target body =>
    rw [hshape] at hrecognised
    obtain ⟨behind, -, htext⟩ := hrecognised
    refine ⟨name ++ [':', ':'], '[' :: body ++ ']' :: behind, ?_⟩
    simp [htext, Shape.value]
  | attributeEntry | sectionTitle | admonition =>
    rw [hshape] at hrecognised
    obtain ⟨-, blanks, behind, -, htext⟩ := hrecognised
    exact ⟨_, _, htext.symm⟩
  | listItem =>
    rw [hshape] at hrecognised
    obtain ⟨-, -, lead, written, blanks, box, behind, -, -, -, -, htext⟩ := hrecognised
    exact ⟨_, _, htext.symm⟩
  | term shown delimiter =>
    rw [hshape] at hrecognised
    obtain ⟨-, lead, rest, -, htext, -⟩ := hrecognised
    exact ⟨lead, delimiter ++ rest, by simp [htext, Shape.value]⟩

/-- Whatever the shape of a line shows is written in the line. -/
theorem standsIn_shapeOf (marker text : Text) : (shapeOf marker text).StandsIn marker text := by
  have hrecognised := recognised_shapeOf marker text
  have hvalue := infix_value_shapeOf marker text
  cases hshape : shapeOf marker text with
  | comment shown =>
    rw [hshape] at hrecognised
    exact ⟨shown, hrecognised.symm⟩
  | sectionTitle | listItem =>
    rw [hshape] at hvalue
    exact hvalue rfl
  | term shown delimiter description =>
    rw [hshape] at hrecognised
    obtain ⟨hne, lead, rest, -, htext, hdescription⟩ := hrecognised
    refine ⟨hne, lead, delimiter ++ rest, by rw [htext, List.append_assoc], ?_⟩
    intro described hdescribed
    obtain ⟨blanks, behind, -, hrest⟩ := hdescription described hdescribed
    have hinside : described <:+: rest := ⟨blanks, behind, hrest.symm⟩
    exact hinside.trans (List.suffix_append delimiter rest).isInfix
  | blockTitle =>
    rw [hshape] at hrecognised
    exact ⟨hrecognised.1, hrecognised.2.2⟩
  | _ => trivial

/-- A line that starts with the comment marker is passed over. -/
theorem isPassedOver_of_isPrefix (h : marker <+: text) :
    (shapeOf marker text).isPassedOver = true := by
  have hcomment : comment? marker text = some (.comment (text.drop marker.length)) := by
    rw [comment?, if_pos (List.isPrefixOf_iff_prefix.mpr h)]
  rw [shapeOf, hcomment, blank?, commentDelimiter?]
  split
  · rfl
  · split
    · rfl
    · rfl

section Lines

variable {number : Int}

/-- The line as it is classified is the line without carriage returns at its end. -/
theorem isPrefix_input_classify (marker text : Text) (number : Int) :
    (classify marker text number).input <+: text :=
  isPrefix_dropRightWhile _ text

/-- A comment starts with the marker. -/
theorem isPrefix_of_comment {shown : Text}
    (h : (classify marker text number).shape = .comment shown) : marker <+: text := by
  have hstands := standsIn_shapeOf marker (classify marker text number).input
  change (classify marker text number).shape.StandsIn marker _ at hstands
  rw [h] at hstands
  exact List.IsPrefix.trans hstands (isPrefix_input_classify marker text number)

/-- The line of a block title is the title behind a full stop, but for white space at the end. -/
theorem trimRight_eq_of_blockTitle {title : Text}
    (h : (classify marker text number).shape = .blockTitle title) :
    title ≠ [] ∧ trimRight text = '.' :: title := by
  have hstands := standsIn_shapeOf marker (classify marker text number).input
  change (classify marker text number).shape.StandsIn marker _ at hstands
  rw [h] at hstands
  refine ⟨hstands.1, ?_⟩
  rw [← hstands.2]
  exact (trimRight_dropRightWhile (fun c hc ↦ by rw [beq_iff_eq.mp hc]; decide) text).symm

/-- A marker that holds no carriage return stands at the start of a line as it is classified if it
stands at the start of the line. -/
theorem isPrefix_input_of_isPrefix (hmarker : '\r' ∉ marker) (h : marker <+: text) :
    marker <+: (classify marker text number).input := by
  rcases List.prefix_or_prefix_of_prefix h (isPrefix_input_classify marker text number) with
    hshorter | hlonger
  · exact hshorter
  · -- What the marker holds beyond the line as classified are carriage returns.
    obtain ⟨dropped, htext, hdropped⟩ := exists_dropped (· == '\r') text
    obtain ⟨further, hmarkerEq⟩ := hlonger
    have hjoined : (classify marker text number).input ++ dropped = text := htext.symm
    have hfurther : further <+: dropped := by
      refine (List.prefix_append_right_inj (classify marker text number).input).mp ?_
      rw [hmarkerEq, hjoined]
      exact h
    cases further with
    | nil =>
      rw [List.append_nil] at hmarkerEq
      simp only [hmarkerEq, List.prefix_refl]
    | cons c others =>
      have hc := hdropped c (hfurther.subset List.mem_cons_self)
      rw [beq_iff_eq.mp hc] at hmarkerEq
      rw [← hmarkerEq] at hmarker
      exact absurd (List.mem_append_right _ List.mem_cons_self) hmarker

/-- A line that is not passed over does not start with the marker, provided that the marker holds
no carriage return. -/
theorem not_isPrefix_of_not_isPassedOver (hmarker : '\r' ∉ marker)
    (h : (classify marker text number).shape.isPassedOver = false) : ¬ marker <+: text := by
  intro hprefix
  have hshort : marker <+: (classify marker text number).input :=
    isPrefix_input_of_isPrefix hmarker hprefix
  rw [show (classify marker text number).shape = shapeOf marker (classify marker text number).input
    from rfl, isPassedOver_of_isPrefix hshort] at h
  cases h

/-- A line as it is classified stands in another line if and only if it stands in that line as it is
classified. -/
theorem isInfix_input_iff {above : Text} {other : Int} :
    (classify marker text number).input <:+: (classify marker above other).input ↔
      (classify marker text number).input <:+: above := by
  constructor
  · exact fun h ↦ h.trans (isPrefix_input_classify marker above other).isInfix
  · exact isInfix_dropRightWhile (getLast?_dropRightWhile _ text)

end Lines

end AsciidocSpans.Line
