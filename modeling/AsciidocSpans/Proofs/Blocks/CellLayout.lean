import AsciidocSpans.Proofs.Blocks.Formation
import AsciidocSpans.Proofs.Line.Captured
import AsciidocSpans.Proofs.Span.Matched
import AsciidocSpans.Proofs.Span.Passages
import AsciidocSpans.Proofs.Text.Trimmed
import Mathlib.Data.List.DropRight

/-!
Where the cells of a table stand. The lines of a text are written in it one below the other, and so
are the lines of the document inside a cell, each of them on its own line of the text
(`lasting_sourced`). A line of a table is cut into segments that stand on it one behind the other
(`segmentsIn_splitCellLine`), and what stands on the lines below, up to the next segment, goes on
with the last one of them; so the cells of a table as written are passages of the text, laid one
behind the other (`laid_gatherCells`). Reading a cell leaves out blank lines at its start, which
moves it down, blank lines at its end, and white space, so it stands inside what was written
(`between_of_cellOf`), and the cells of any table of a text are laid in reading order
(`laid_cells_of_ofText`).
-/

set_option autoImplicit false
set_option relaxedAutoImplicit false

namespace AsciidocSpans.Blocks

open Text Element

variable {commentMarker : Text} {written : List Text} {separator : Char}

section Sourced

/-- Lines are written one below the other, from a line on, which is counted from zero. -/
inductive Sourced (written : List Text) : Nat → List Line → Prop
  | nil {index : Nat} : Sourced written index []
  | cons {index : Nat} {text : Text} {line : Line} {rest : List Line}
      (here : written[index]? = some text) (number : line.number = index + 1)
      (occurs : line.input <:+: text) (behind : Sourced written (index + 1) rest) :
      Sourced written index (line :: rest)

variable {index : Nat} {lines rest content : List Line}

theorem Sourced.of_suffix (h : Sourced written index lines) (hrest : rest <:+ lines) :
    ∃ later, Sourced written later rest := by
  induction h with
  | nil => exact ⟨index, List.suffix_nil.mp hrest ▸ .nil⟩
  | cons here number occurs behind ih =>
    rcases List.suffix_cons_iff.mp hrest with rfl | hsuffix
    · exact ⟨_, .cons here number occurs behind⟩
    · exact ih hsuffix

theorem Sourced.of_prefix (h : Sourced written index lines) (hcontent : content <+: lines) :
    Sourced written index content := by
  induction h generalizing content with
  | nil => exact List.prefix_nil.mp hcontent ▸ .nil
  | cons here number occurs behind ih =>
    cases content with
    | nil => exact .nil
    | cons first others =>
      obtain ⟨rfl, hothers⟩ := List.cons_prefix_cons.mp hcontent
      exact .cons here number occurs (ih hothers)

/-- The lines of a text are written in it. -/
theorem sourced_classifyAll {texts : List Text} (h : written.drop index = texts) :
    Sourced written index (Line.classifyAll commentMarker (index + 1) texts) := by
  induction texts generalizing index with
  | nil => exact .nil
  | cons text others ih =>
    have hhere : written[index]? = some text := by
      rw [← List.head?_drop, h]
      rfl
    have hbehind : written.drop (index + 1) = others := by
      rw [← List.drop_drop, h]
      rfl
    exact .cons hhere rfl (Line.isPrefix_input_classify commentMarker text _).isInfix (ih hbehind)

/-- Texts that stand in a text on consecutive lines are written in it. -/
theorem sourced_classifyAll_of_occupies {start stop : Position} {texts : List Text}
    (h : Occupies written start stop texts) (hstart : start.line = index + 1) :
    Sourced written index (Line.classifyAll commentMarker start.line texts) := by
  have hstep : ∀ {start stop : Position} {text : Text} {index : Nat} {rest : List Line},
      StandsBetween written start stop text → start.line = index + 1 →
      Sourced written (index + 1) rest →
      Sourced written index (Line.classify commentMarker text start.line :: rest) := by
    intro start stop text index rest hstands hstart hrest
    obtain ⟨other, column, line, hother, -, hline, -, -, -, hoccurs, -⟩ := hstands
    obtain rfl : other = index := by omega
    exact .cons hline hstart ((Line.isPrefix_input_classify commentMarker text _).isInfix.trans
      (hoccurs.isInfix.trans (List.drop_suffix column line).isInfix)) hrest
  induction h generalizing index with
  | last here => exact hstep here hstart .nil
  | more here behind ih => exact hstep here hstart (ih (by push_cast; omega))

end Sourced

section Segments

theorem cutCells_ne_nil (separator : Char) (escaped : Bool) (text : Text) :
    cutCells separator escaped text ≠ [] := by
  cases text with
  | nil => exact List.cons_ne_nil _ _
  | cons c rest =>
    rw [cutCells]
    split
    · exact List.cons_ne_nil _ _
    · split <;> exact List.cons_ne_nil _ _

/-- A line that is cut at its separators is made of the parts. -/
theorem joinWith_cutCells (separator : Char) (escaped : Bool) (text : Text) :
    joinWith [separator] (cutCells separator escaped text) = text := by
  induction text generalizing escaped with
  | nil => rfl
  | cons c rest ih =>
    have hsome := cutCells_ne_nil separator (c == '\\') rest
    rw [cutCells]
    split
    · next hc =>
      rw [joinWith_cons _ _ hsome, ih, hc.1]
      rfl
    · have hparts := ih (c == '\\')
      split
      · next hrest => exact absurd hrest hsome
      · next part others hrest =>
        rw [hrest] at hparts
        rw [← hparts]
        cases others <;> rfl

/-- Segments stand on a line one behind the other, from a column on. -/
def SegmentsIn (input : Text) : Nat → List CellSegment → Prop
  | _, [] => True
  | low, segment :: rest =>
    low ≤ segment.column ∧ segment.column ≤ input.length ∧
      segment.content <+: input.drop segment.column ∧
      SegmentsIn input (segment.column + segment.content.length) rest

theorem SegmentsIn.mono {input : Text} {low high : Nat} {segments : List CellSegment}
    (h : SegmentsIn input high segments) (hle : low ≤ high) : SegmentsIn input low segments := by
  cases segments with
  | nil => trivial
  | cons segment rest => exact ⟨Nat.le_trans hle h.1, h.2⟩

/-- A segment without the specifier of the next cell is the beginning of it. -/
theorem isPrefix_splitNextSpec (segment : Text) : (splitNextSpec segment).1 <+: segment := by
  rw [splitNextSpec]
  split
  · next c before hbefore =>
    split
    · have hsuffix := List.dropWhile_suffix (l := segment.reverse) fun c ↦ !isBlank c
      rw [hbefore] at hsuffix
      have hreversed := List.reverse_prefix.mpr ((List.suffix_cons c before).trans hsuffix)
      rwa [List.reverse_reverse] at hreversed
    · exact List.prefix_rfl
  · exact List.prefix_rfl

/-- The segments of the parts of a line stand where the parts do. -/
theorem segmentsIn_cellSegments {input : Text} {column : Nat} (spec : Text) {parts : List Text}
    (hcolumn : column ≤ input.length) (h : joinWith [separator] parts = input.drop column) :
    SegmentsIn input column (cellSegments column spec parts) := by
  induction parts generalizing column spec with
  | nil => trivial
  | cons part rest ih =>
    cases rest with
    | nil => exact ⟨Nat.le_refl _, hcolumn, h ▸ List.prefix_rfl, trivial⟩
    | cons next others =>
      rw [joinWith_cons _ _ (List.cons_ne_nil _ _), List.append_assoc] at h
      have hlength := congrArg List.length h
      rw [List.length_append, List.length_append, List.length_singleton, List.length_drop]
        at hlength
      have hbehind : joinWith [separator] (next :: others) =
          input.drop (column + part.length + 1) := by
        rw [Nat.add_assoc, ← List.drop_drop, ← h, ← List.drop_drop, List.drop_left]
        rfl
      have hcontent := isPrefix_splitNextSpec part
      have hcontentLength := hcontent.length_le
      refine ⟨Nat.le_refl _, hcolumn, hcontent.trans (h ▸ List.prefix_append _ _), ?_⟩
      exact (ih (splitNextSpec part).2 (by omega) hbehind).mono (by
        change column + (splitNextSpec part).1.length ≤ _
        omega)

/-- What continues the cell before a line stands at the start of the line, and the segments of the
line stand behind it. -/
theorem segmentsIn_splitCellLine (separator : Char) (text : Text) :
    (splitCellLine separator text).1 <+: text ∧
      SegmentsIn text (splitCellLine separator text).1.length (splitCellLine separator text).2 := by
  have hjoined := joinWith_cutCells separator false text
  rw [splitCellLine]
  split
  · next lead part parts hparts =>
    rw [hparts, joinWith_cons _ _ (List.cons_ne_nil _ _), List.append_assoc] at hjoined
    have hlength := congrArg List.length hjoined
    rw [List.length_append, List.length_append, List.length_singleton] at hlength
    have hbehind : joinWith [separator] (part :: parts) = text.drop (lead.length + 1) := by
      rw [← hjoined, ← List.drop_drop, List.drop_left]
      rfl
    have hsegments := fun spec ↦ segmentsIn_cellSegments spec (by omega) hbehind
    dsimp only
    split
    · exact ⟨List.nil_prefix, (hsegments _).mono (Nat.zero_le _)⟩
    · exact ⟨hjoined ▸ List.prefix_append _ _, (hsegments _).mono (Nat.le_succ _)⟩
  · exact ⟨List.prefix_rfl, trivial⟩

end Segments

section Cells

variable {index : Nat}

/-- A cell as it is written is a passage. -/
def RawCell.passage (raw : RawCell) : Passage :=
  ⟨raw.lineno, raw.lines⟩

/-- What stands in a part of a line stands on the line. -/
theorem standsBetween_of_part {text input content : Text} {offset column : Nat}
    (htext : written[index]? = some text) (hoffset : offset ≤ text.length)
    (hinput : input <+: text.drop offset) (hcolumn : column ≤ input.length)
    (hcontent : content <+: input.drop column) :
    StandsBetween written ⟨index + 1, (offset + column : Nat)⟩
      ⟨index + 1, (offset + column + content.length : Nat)⟩ content := by
  obtain ⟨behind, hbehind⟩ := hinput
  have hlength := congrArg List.length hbehind
  rw [List.length_append, List.length_drop] at hlength
  refine ⟨index, offset + column, text, rfl, rfl, htext, Int.natCast_nonneg _, Int.le_refl _,
    by omega, ?_, Int.le_refl _⟩
  rw [← List.drop_drop, ← hbehind, List.drop_append_of_le_length hcolumn]
  exact hcontent.trans (List.prefix_append _ _)

/-- What goes on with a text that ends at a position: nothing, or texts on the lines from a given
one on. -/
def GoesOn (written : List Text) (number : Int) (low high : Position) (further : List Text) :
    Prop :=
  (further = [] ∧ high = low) ∨ Occupies written ⟨number, 0⟩ high further

theorem GoesOn.occupies {start stop high : Position} {text : Text} {further : List Text}
    (h : GoesOn written (start.line + 1) stop high further)
    (hstands : StandsBetween written start stop text) :
    Occupies written start high (text :: further) := by
  rcases h with ⟨rfl, rfl⟩ | hfurther
  · exact .last hstands
  · have hhere : StandsBetween written start ⟨start.line, stop.column⟩ text := by
      rw [← hstands.line_eq]
      exact hstands
    exact .more hhere hfurther

/-- The cells of a line are laid as its segments are, if the cells behind it are laid behind the
last one of them and what goes on with it. -/
theorem laid_rawCells {text input : Text} {offset low : Nat} {segments : List CellSegment}
    {further : List Text} {cells : List RawCell} (htext : written[index]? = some text)
    (hoffset : offset ≤ text.length) (hinput : input <+: text.drop offset)
    (hsome : segments ≠ []) (hsegments : SegmentsIn input low segments)
    (hbehind : ∀ stop : Position, stop.line = index + 1 →
      ∃ high, GoesOn written (index + 1 + 1) stop high further ∧
        LaidOut written high (cells.map RawCell.passage)) :
    LaidOut written ⟨index + 1, (offset + low : Nat)⟩
      ((rawCells (index + 1) further segments ++ cells).map RawCell.passage) := by
  induction segments generalizing low with
  | nil => exact absurd rfl hsome
  | cons segment rest ih =>
    obtain ⟨hlow, hcolumn, hcontent, hrest⟩ := hsegments
    have hstands := standsBetween_of_part htext hoffset hinput hcolumn hcontent
    have hfirst : (⟨index + 1, (offset + low : Nat)⟩ : Position) ≤
        ⟨index + 1, (offset + segment.column : Nat)⟩ := Or.inr ⟨rfl, by dsimp only; omega⟩
    cases rest with
    | nil =>
      obtain ⟨high, hfurther, hlaid⟩ :=
        hbehind ⟨index + 1, (offset + segment.column + segment.content.length : Nat)⟩ rfl
      exact .cons ⟨_, high, hfirst, Position.le_refl _, rfl, hfurther.occupies hstands⟩ hlaid
    | cons next others =>
      have hothers := ih (List.cons_ne_nil _ _) hrest
      rw [← Nat.add_assoc] at hothers
      exact .cons ⟨_, _, hfirst, Position.le_refl _, rfl, .last hstands⟩ hothers

/-- The cells of a table as written are laid in it, behind what stands before the first of them and
goes on with the cell above. -/
theorem laid_gatherCells (separator : Char) {content : List Line} (low : Position)
    (h : Sourced written index content) (hlow : low.line ≤ index) :
    ∃ high, GoesOn written (index + 1) low high (gatherCells separator content).1 ∧
      LaidOut written high ((gatherCells separator content).2.map RawCell.passage) := by
  induction content generalizing index low with
  | nil => exact ⟨low, .inl ⟨rfl, rfl⟩, .nil⟩
  | cons line rest ih =>
    obtain _ | ⟨hhere, hnumber, hoccurs, hrest⟩ := h
    obtain ⟨offset, hoffset, hinput⟩ := exists_column_of_infix hoccurs
    have hbegin : ∀ {continuation : Text}, continuation <+: line.input →
        StandsBetween written ⟨index + 1, 0⟩
          ⟨index + 1, (offset + continuation.length : Nat)⟩ continuation := by
      intro continuation hcontinuation
      obtain ⟨other, column, shown, hother, hstop, hline, -, -, hlength, hstands, hfits⟩ :=
        standsBetween_of_part hhere hoffset hinput (Nat.zero_le _) hcontinuation
      exact ⟨other, column, shown, hother, hstop, hline, Int.le_refl 0, Int.natCast_nonneg _,
        hlength, hstands, hfits⟩
    have hbehind : ∀ stop : Position, stop.line = index + 1 →
        ∃ high, GoesOn written (index + 1 + 1) stop high (gatherCells separator rest).1 ∧
          LaidOut written high ((gatherCells separator rest).2.map RawCell.passage) :=
      fun stop hstop ↦ ih stop hrest (Int.le_of_eq hstop)
    -- A line without cells goes on with the cell above as a whole.
    have hmore : ∀ {continuation : Text}, continuation <+: line.input →
        ∃ high, GoesOn written (index + 1) low high
            (continuation :: (gatherCells separator rest).1) ∧
          LaidOut written high ((gatherCells separator rest).2.map RawCell.passage) := by
      intro continuation hcontinuation
      obtain ⟨high, hfurther, hlaid⟩ :=
        hbehind ⟨index + 1, (offset + continuation.length : Nat)⟩ rfl
      exact ⟨high, .inr (hfurther.occupies (hbegin hcontinuation)), hlaid⟩
    obtain ⟨hcontinuation, hsegments⟩ := segmentsIn_splitCellLine separator line.input
    rw [gatherCells]
    dsimp only
    split
    · exact hmore List.nil_prefix
    · split
      · next continuation hsplit =>
        rw [hsplit] at hcontinuation
        exact hmore hcontinuation
      · next continuation segments hsome hsplit =>
        rw [hsplit] at hcontinuation hsegments
        have hlaid := laid_rawCells hhere hoffset hinput hsome hsegments hbehind
        rw [hnumber]
        split
        · exact ⟨low, .inl ⟨rfl, rfl⟩,
            hlaid.mono (Position.le_of_line_lt (by dsimp only; omega))⟩
        · exact ⟨_, .inr (.last (hbegin hcontinuation)), hlaid⟩

end Cells

section Reading

variable {raw : RawCell} {cell : TableCell} {low high : Position}

/-- A cell that was read is a passage. -/
def cellPassage (cell : TableCell) : Passage :=
  ⟨cell.info.lineno, cell.text.lines⟩

/-- A cell that was read has its lines from what stands in the source for it, without the blank ones
at the start and at the end. -/
theorem text_of_cellOf (h : CellOf commentMarker raw cell) :
    cell.info.lineno = (dropBlankStart raw.lineno raw.lines).1 ∧
      (cell.text = unlines (documentLines (dropBlankEnd (dropBlankStart raw.lineno raw.lines).2)) ∨
        cell.text = plainCellText (dropBlankEnd (dropBlankStart raw.lineno raw.lines).2)) := by
  have hread := cellRead_of_cellOf h
  refine ⟨hread.lineno, ?_⟩
  cases hread.content with
  | plain text => exact .inr text
  | document text => exact .inl text

/-- Blank lines that are dropped at the start leave a passage that stands in the one there was. -/
theorem between_dropBlankStart {number : Int} {texts : List Text}
    (h : Passage.Between written low high ⟨number, texts⟩) :
    Passage.Between written low high
      ⟨(dropBlankStart number texts).1, (dropBlankStart number texts).2⟩ := by
  induction texts generalizing number with
  | nil => exact h
  | cons first rest ih =>
    cases rest with
    | nil => exact h
    | cons second others =>
      rw [dropBlankStart]
      split
      · obtain ⟨start, stop, hstart, hstop, hline, hoccupies⟩ := h
        refine ih ⟨⟨start.line + 1, 0⟩, stop, ?_, hstop, ?_, hoccupies.tail (List.cons_ne_nil _ _)⟩
        · exact Position.le_trans hstart (Position.le_of_line_lt (by dsimp only; omega))
        · exact congrArg (· + 1) hline
      · exact h

theorem allBlank_of_dropBlankStart {number : Int} {texts rest : List Text} {first second : Text}
    (h : (dropBlankStart number texts).2 = first :: second :: rest) : allBlank first = false := by
  induction texts generalizing number with
  | nil => cases h
  | cons start others ih =>
    cases others with
    | nil => cases h
    | cons next more =>
      rw [dropBlankStart] at h
      split at h
      · exact ih h
      · next hblank =>
        cases h
        exact Bool.eq_false_iff.mpr hblank

/-- Each line of a document in a cell stands in the line that it comes from. -/
theorem forall₂_documentLines (texts : List Text) :
    List.Forall₂ (· <:+: ·) (documentLines texts) texts := by
  cases texts with
  | nil => exact .nil
  | cons first rest =>
    exact .cons (isInfix_trim first) (List.forall₂_same.mpr fun _ _ ↦ List.infix_rfl)

/-- The text of a cell is made of the lines that are kept of it, of which the first one or each one
is trimmed. -/
theorem text_eq_unlines {texts : List Text} {text : Text} (hkept : dropBlankEnd texts ≠ [])
    (hfirst : ∀ first second rest, texts = first :: second :: rest → allBlank first = false)
    (h : text = unlines (documentLines (dropBlankEnd texts)) ∨
      text = plainCellText (dropBlankEnd texts)) :
    text = unlines (documentLines (dropBlankEnd texts)) ∨
      text = unlines ((dropBlankEnd texts).map trim) := by
  refine h.imp_right fun h ↦ h.trans ?_
  have hkeeps : dropBlankEnd texts <+: texts := List.rdropWhile_prefix allBlank texts
  obtain ⟨first, rest, hends⟩ := List.exists_cons_of_ne_nil hkept
  have hlast : allBlank ((dropBlankEnd texts).getLast hkept) = false :=
    Bool.eq_false_iff.mpr (List.rdropWhile_last_not allBlank texts hkept)
  have hhead : (dropBlankEnd texts).head? = some first := by
    rw [hends]
    rfl
  refine trim_unlines hhead (List.getLast?_eq_some_getLast hkept) ?_ hlast
  cases rest with
  | nil => simpa only [hends, List.getLast_singleton] using hlast
  | cons second others =>
    obtain ⟨behind, hbehind⟩ := hends ▸ hkeeps
    exact hfirst first second (others ++ behind) hbehind.symm

/-- The lines of a cell's text stand in the first of the lines that the cell has; at least one of
these is kept. -/
theorem exists_kept_of_text {texts : List Text} {text : Text} (hsome : texts ≠ [])
    (hfirst : ∀ first second rest, texts = first :: second :: rest → allBlank first = false)
    (hlines : ∀ line ∈ texts, '\n' ∉ line)
    (h : text = unlines (documentLines (dropBlankEnd texts)) ∨
      text = plainCellText (dropBlankEnd texts)) :
    ∃ kept, kept ≠ [] ∧ kept <+: texts ∧ List.Forall₂ (· <:+: ·) text.lines kept := by
  have hkeeps : dropBlankEnd texts <+: texts := List.rdropWhile_prefix allBlank texts
  by_cases hnil : dropBlankEnd texts = []
  · obtain ⟨first, rest, rfl⟩ := List.exists_cons_of_ne_nil hsome
    have htext : text = [] := by
      rw [hnil] at h
      rcases h with rfl | rfl <;> rfl
    rw [htext]
    exact ⟨[first], List.cons_ne_nil _ _, List.prefix_append [first] rest,
      .cons (List.nil_infix) .nil⟩
  · -- The text is what the parts of the lines that are kept make.
    obtain ⟨parts, hparts, htext⟩ : ∃ parts,
        List.Forall₂ (· <:+: ·) parts (dropBlankEnd texts) ∧ text = unlines parts := by
      rcases text_eq_unlines hnil hfirst h with h | h
      · exact ⟨_, forall₂_documentLines _, h⟩
      · refine ⟨(dropBlankEnd texts).map trim, ?_, h⟩
        rw [List.forall₂_map_left_iff]
        exact List.forall₂_same.mpr fun line _ ↦ isInfix_trim line
    have hsomeParts : parts ≠ [] := by
      rintro rfl
      exact hnil (List.forall₂_nil_left_iff.mp hparts)
    refine ⟨dropBlankEnd texts, hnil, hkeeps, ?_⟩
    rw [htext, lines_unlines hsomeParts]
    · exact hparts
    · intro part hpart hnewline
      obtain ⟨line, hline, hstands⟩ := exists_of_forall₂_of_mem hparts hpart
      exact hlines line (hkeeps.subset hline) (hstands.subset hnewline)

/-- A cell that was read stands where it is written. -/
theorem between_of_cellOf (hwritten : ∀ line ∈ written, '\n' ∉ line)
    (h : CellOf commentMarker raw cell) (hraw : raw.passage.Between written low high) :
    (cellPassage cell).Between written low high := by
  obtain ⟨hlineno, htext⟩ := text_of_cellOf h
  obtain ⟨start, stop, hstart, hstop, hline, hoccupies⟩ := between_dropBlankStart hraw
  obtain ⟨kept, hkept, hprefix, hlines⟩ := exists_kept_of_text hoccupies.ne_nil
    (fun _ _ _ heq ↦ allBlank_of_dropBlankStart heq) (fun text hmem hnewline ↦ by
      obtain ⟨line, hline, hstands⟩ := hoccupies.exists_isInfix text hmem
      exact hwritten line hline (hstands.subset hnewline)) htext
  obtain ⟨earlier, hearlier, hinitial⟩ := hoccupies.initial hprefix hkept
  exact ⟨start, earlier, hstart, Position.le_trans hearlier hstop, hline.trans hlineno.symm,
    hinitial.inside hlines⟩

end Reading

/-- Reading keeps lines that are written one below the other. -/
theorem lasting_sourced :
    Lasting commentMarker fun lines ↦ ∃ index, Sourced written index lines where
  suffix hsuffix h := h.elim fun _ h ↦ h.of_suffix hsuffix
  cell := by
    rintro separator content lines raw hcontent ⟨index, h⟩ hraw
    obtain ⟨high, -, hlaid⟩ := laid_gatherCells separator ⟨0, 0⟩ (h.of_prefix hcontent)
      (Int.natCast_nonneg index)
    obtain ⟨first, last, hbetween⟩ := hlaid.exists_between (List.mem_map_of_mem hraw)
    obtain ⟨start, stop, -, -, hline, hoccupies⟩ := between_dropBlankStart hbetween
    obtain ⟨own, hown, -⟩ := hoccupies.exists_index
    by_cases hnil : dropBlankEnd (dropBlankStart raw.lineno raw.lines).2 = []
    · refine ⟨0, ?_⟩
      rw [cellLines]
      dsimp only
      rw [hnil]
      exact .nil
    · obtain ⟨earlier, -, hinitial⟩ :=
        hoccupies.initial (List.rdropWhile_prefix allBlank _) hnil
      refine ⟨own, ?_⟩
      rw [cellLines]
      dsimp only at hline ⊢
      rw [← hline]
      exact sourced_classifyAll_of_occupies (hinitial.inside (forall₂_documentLines _)) hown

/-- The cells of a table that was read are laid in reading order. -/
theorem laid_of_cellsOf (hwritten : ∀ line ∈ written, '\n' ∉ line) {number : Int}
    {cells : List TableCell}
    (h : CellsOf commentMarker (fun lines ↦ ∃ index, Sourced written index lines) number cells) :
    LaidOut written ⟨0, 0⟩ (cells.map cellPassage) := by
  obtain ⟨separator, line, rest, content, ⟨index, hsourced⟩, -, hcontent, hcells⟩ := h
  obtain ⟨later, hrest⟩ := hsourced.of_suffix (List.suffix_cons line rest)
  obtain ⟨high, hfurther, hlaid⟩ := laid_gatherCells separator ⟨0, 0⟩ (hrest.of_prefix hcontent)
    (Int.natCast_nonneg later)
  have hhigh : (⟨0, 0⟩ : Position) ≤ high := by
    rcases hfurther with ⟨-, rfl⟩ | hoccupies
    · exact Position.le_refl _
    · exact Position.le_trans (Position.le_of_line_lt (by dsimp only; omega)) hoccupies.le
  refine (hlaid.refine ?_).mono hhigh
  rw [List.forall₂_map_left_iff, List.forall₂_map_right_iff]
  exact hcells.flip.imp fun cell raw hcell low high hbetween ↦
    between_of_cellOf hwritten hcell hbetween

/-- The cells of every table in a text are laid in the text in reading order, and no row is
empty. -/
theorem laid_cells_of_ofText {text : Text} {document : Document}
    (h : (Document.ofText commentMarker text).1 = .ok document) :
    AllEverywhere (fun element ↦ ∀ info columns headRows bodyRows,
      element = .table info columns headRows bodyRows →
        LaidOut text.lines ⟨0, 0⟩ ((headRows ++ bodyRows).flatten.map cellPassage) ∧
          ∀ row ∈ headRows ++ bodyRows, row ≠ []) document.blocks := by
  intro element helement held hheld info columns headRows bodyRows heq
  have horigin := origin_of_ofText lasting_sourced
    ⟨0, sourced_classifyAll (show text.lines.drop 0 = text.lines from rfl)⟩ h element helement held
    hheld
  obtain ⟨hcells, hrows⟩ := horigin.rows info columns headRows bodyRows heq
  exact ⟨laid_of_cellsOf (fun _ hline ↦ not_mem_of_mem_lines hline) hcells, hrows⟩

end AsciidocSpans.Blocks
