import AsciidocSpans.Proofs.Blocks.CellLayout
import AsciidocSpans.Proofs.Line.Recognised

/-!
Where lines begin. The lines of a text begin at column zero. The lines of the document inside a cell
begin where the cell does, and from the second line on at column zero again: behind the separator of
the cell and the white space there, or further down if the cell starts with blank lines
(`Sited`). Each line stands in the text where it begins (`Sited.stands`). Reading keeps lines
that begin somewhere (`lasting_beginIn`), so whatever is made of lines is made where they begin.

The cells of a table belong, in order, to the segments into which its lines are cut
(`forall₂_cellSites`).
-/

set_option autoImplicit false
set_option relaxedAutoImplicit false

namespace AsciidocSpans

/-- How many characters of white space a text starts with. -/
def Text.indentation (text : Text) : Nat :=
  (text.takeWhile Text.isBlank).length

theorem Text.drop_indentation (text : Text) : text.drop text.indentation = Text.trimLeft text := by
  have h : (text.takeWhile Text.isBlank ++ text.dropWhile Text.isBlank).drop text.indentation =
      text.dropWhile Text.isBlank := List.drop_left
  rwa [List.takeWhile_append_dropWhile] at h

/-- A trimmed text stands behind the white space that the text starts with. -/
theorem Text.isPrefix_trim (text : Text) : Text.trim text <+: text.drop text.indentation := by
  rw [Text.drop_indentation]
  exact Text.isPrefix_trimRight _

namespace Blocks

open Text

variable {commentMarker : Text} {written : List Text} {separator : Char}

/-! ### Cells and segments -/

/-- A cell belongs to a segment of a line, given the lines behind it. -/
def SegmentCell (separator : Char) (line : Line) (behind : List Line) (segment : CellSegment)
    (raw : RawCell) : Prop :=
  (segment, raw) ∈ (splitCellLine separator line.input).2.zip
    (rawCells line.number (gatherCells separator behind).1 (splitCellLine separator line.input).2)

/-- The segments into which the lines of a table are cut, each with its line and the lines behind
it. -/
def cellSites (separator : Char) : List Line → List (Line × List Line × CellSegment)
  | [] => []
  | line :: rest =>
    (if line.shape = .blank then []
      else (splitCellLine separator line.input).2.map fun segment ↦ (line, rest, segment)) ++
      cellSites separator rest

section Segments

variable {line : Line} {rest behind content : List Line} {segment : CellSegment} {raw : RawCell}

theorem length_rawCells (lineno : Int) (further : List Text) (segments : List CellSegment) :
    (rawCells lineno further segments).length = segments.length := by
  induction segments with
  | nil => rfl
  | cons segment rest ih =>
    cases rest with
    | nil => rfl
    | cons next others => exact congrArg (· + 1) ih

/-- A cell has the line and the specifier of its segment, and it starts with what the segment holds.
Only the last one of a line goes on below. -/
theorem parts_of_mem_zip_rawCells {lineno : Int} {further : List Text}
    {segments : List CellSegment} (h : (segment, raw) ∈ segments.zip
      (rawCells lineno further segments)) :
    raw.lineno = lineno ∧ raw.spec = segment.spec ∧
      (raw.lines = [segment.content] ∨ raw.lines = segment.content :: further) := by
  induction segments with
  | nil => cases h
  | cons first others ih =>
    cases others with
    | nil =>
      rw [rawCells, List.zip_cons_cons, List.zip_nil_left, List.mem_singleton] at h
      cases h
      exact ⟨rfl, rfl, .inr rfl⟩
    | cons next more =>
      have hcells : rawCells lineno further (first :: next :: more) =
          { lineno, spec := first.spec, lines := [first.content] } ::
            rawCells lineno further (next :: more) := rfl
      rw [hcells, List.zip_cons_cons] at h
      rcases List.mem_cons.mp h with heq | hmem
      · cases heq
        exact ⟨rfl, rfl, .inl rfl⟩
      · exact ih hmem

/-- A segment stands on its line at its column. -/
theorem isPrefix_of_mem_segments {input : Text} {low : Nat} {segments : List CellSegment}
    (h : SegmentsIn input low segments) (hmem : segment ∈ segments) :
    segment.column ≤ input.length ∧ segment.content <+: input.drop segment.column := by
  induction segments generalizing low with
  | nil => cases hmem
  | cons first others ih =>
    obtain ⟨-, hcolumn, hcontent, hothers⟩ := h
    rcases List.mem_cons.mp hmem with rfl | hrest
    · exact ⟨hcolumn, hcontent⟩
    · exact ih hothers hrest

theorem SegmentCell.segment_mem (h : SegmentCell separator line behind segment raw) :
    segment ∈ (splitCellLine separator line.input).2 :=
  (List.of_mem_zip h).1

theorem SegmentCell.parts (h : SegmentCell separator line behind segment raw) :
    raw.lineno = line.number ∧ raw.spec = segment.spec ∧
      (raw.lines = [segment.content] ∨
        raw.lines = segment.content :: (gatherCells separator behind).1) :=
  parts_of_mem_zip_rawCells h

/-- What goes on with the cell before some lines is the beginning of these lines, one by one. -/
theorem forall₂_continuation (separator : Char) (content : List Line) :
    ∃ taken, taken <+: content ∧
      List.Forall₂ (fun text line ↦ text <+: line.input) (gatherCells separator content).1
        taken := by
  induction content with
  | nil => exact ⟨[], List.prefix_rfl, .nil⟩
  | cons line rest ih =>
    obtain ⟨taken, htaken, hall⟩ := ih
    have hmore : ∀ {text : Text}, text <+: line.input → ∃ more, more <+: line :: rest ∧
        List.Forall₂ (fun text line ↦ text <+: line.input)
          (text :: (gatherCells separator rest).1) more := fun htext ↦
      ⟨line :: taken, (List.prefix_cons_inj line).mpr htaken, .cons htext hall⟩
    have hsplit := (segmentsIn_splitCellLine separator line.input).1
    rw [gatherCells]
    dsimp only
    split
    · exact hmore List.nil_prefix
    · split
      · next continuation heq =>
        rw [heq] at hsplit
        exact hmore hsplit
      · next continuation segments hsome heq =>
        rw [heq] at hsplit
        split
        · exact ⟨[], List.nil_prefix, .nil⟩
        · exact ⟨[line], List.prefix_append [line] rest, .cons hsplit .nil⟩

/-- The cells of some lines belong, in order, to the segments of these lines. -/
theorem forall₂_cellSites (separator : Char) (content : List Line) :
    List.Forall₂ (fun site raw ↦ site.1 :: site.2.1 <:+ content ∧ site.1.shape ≠ .blank ∧
        SegmentCell separator site.1 site.2.1 site.2.2 raw)
      (cellSites separator content) (gatherCells separator content).2 := by
  induction content with
  | nil => exact .nil
  | cons line rest ih =>
    have hrest := ih.imp fun site raw h ↦
      (⟨h.1.trans (List.suffix_cons line rest), h.2⟩ :
        site.1 :: site.2.1 <:+ line :: rest ∧ site.1.shape ≠ .blank ∧
          SegmentCell separator site.1 site.2.1 site.2.2 raw)
    have hline : line.shape ≠ .blank → List.Forall₂ (fun site raw ↦
        site.1 :: site.2.1 <:+ line :: rest ∧ site.1.shape ≠ .blank ∧
          SegmentCell separator site.1 site.2.1 site.2.2 raw)
        ((splitCellLine separator line.input).2.map fun segment ↦ (line, rest, segment))
        (rawCells line.number (gatherCells separator rest).1
          (splitCellLine separator line.input).2) := by
      intro hshape
      rw [List.forall₂_map_left_iff, List.forall₂_iff_zip]
      exact ⟨(length_rawCells _ _ _).symm, fun hmem ↦ ⟨List.suffix_rfl, hshape, hmem⟩⟩
    rw [gatherCells, cellSites]
    dsimp only
    by_cases hblank : line.shape = .blank
    · rw [if_pos hblank, if_pos hblank]
      exact hrest
    · rw [if_neg hblank, if_neg hblank]
      have hall := List.rel_append (hline hblank) hrest
      split
      · next continuation heq =>
        rw [heq] at hall ⊢
        exact hall
      · next continuation segments hsome heq =>
        rw [heq] at hall ⊢
        exact hall

/-- Every cell of some lines belongs to a segment of one of these lines. -/
theorem exists_segment_of_mem_gatherCells (h : raw ∈ (gatherCells separator content).2) :
    ∃ line behind segment, line :: behind <:+ content ∧
      SegmentCell separator line behind segment raw := by
  obtain ⟨site, -, hsuffix, -, hsegment⟩ :=
    exists_of_forall₂_of_mem (forall₂_cellSites separator content).flip h
  exact ⟨site.1, site.2.1, site.2.2, hsuffix, hsegment⟩

end Segments

/-! ### Lines and where they begin -/

/-- The column at which the document inside a cell begins, given the column at which the line of the
cell does: where the text of the cell starts, on its own line or, if it starts with blank lines,
further down. -/
def cellColumn (column : Nat) (segment : CellSegment) (raw : RawCell) : Nat :=
  let (lineno, started) := dropBlankStart raw.lineno raw.lines
  (if lineno = raw.lineno then column + segment.column else 0) + indentation (started.headD [])

/-- Lines begin in a text, the first of them on the line with an index and at a column: those of the
text itself, what is left of lines behind the first of them, and those of the document inside a
cell. -/
inductive Sited (commentMarker : Text) (written : List Text) : Nat → Nat → List Line → Prop
  | text : Sited commentMarker written 0 0 (Line.classifyAll commentMarker 1 written)
  | nil {index column : Nat} : Sited commentMarker written index column []
  | behind {index column : Nat} {line : Line} {rest : List Line}
      (lines : Sited commentMarker written index column (line :: rest)) :
      Sited commentMarker written (index + 1) 0 rest
  | cell {index column own : Nat} {line : Line} {rest content : List Line} {separator : Char}
      {segment : CellSegment} {raw : RawCell}
      (lines : Sited commentMarker written index column (line :: rest)) (within : content <+: rest)
      (cell : SegmentCell separator line content segment raw)
      (begins : (dropBlankStart raw.lineno raw.lines).1 = own + 1) :
      Sited commentMarker written own (cellColumn column segment raw)
        (cellLines commentMarker raw)

/-- Lines begin somewhere in a text. -/
def BeginIn (commentMarker : Text) (written : List Text) (lines : List Line) : Prop :=
  ∃ index column, Sited commentMarker written index column lines

/-- A line stands in a text, on the line with an index and from a column on. -/
def StandsFrom (written : List Text) (index column : Nat) (input : Text) : Prop :=
  ∃ text, written[index]? = some text ∧ column ≤ text.length ∧ input <+: text.drop column

/-- A line is what stands in a text on the line with an index, from a column on, and it is spelled
as its shape says. -/
structure LineAt (written : List Text) (index column : Nat) (line : Line) : Prop where
  number : line.number = index + 1
  stands : StandsFrom written index column line.input
  spelled : line.shape.Spelled line.input

section Sited

variable {index column : Nat} {line : Line} {lines rest content : List Line} {raw : RawCell}

theorem StandsFrom.of_isPrefix {input part : Text} (h : StandsFrom written index column input)
    (hpart : part <+: input) : StandsFrom written index column part := by
  obtain ⟨text, htext, hcolumn, hinput⟩ := h
  exact ⟨text, htext, hcolumn, hpart.trans hinput⟩

/-- What stands in a part of a line stands on the line. -/
theorem StandsFrom.part {input part : Text} {low : Nat} (h : StandsFrom written index column input)
    (hlow : low ≤ input.length) (hpart : part <+: input.drop low) :
    StandsFrom written index (column + low) part := by
  obtain ⟨text, htext, hcolumn, further, hfurther⟩ := h
  have hlength := congrArg List.length hfurther
  rw [List.length_append, List.length_drop] at hlength
  refine ⟨text, htext, by omega, ?_⟩
  rw [← List.drop_drop, ← hfurther, List.drop_append_of_le_length hlow]
  exact hpart.trans (List.prefix_append _ _)

theorem getElem?_classifyAll (commentMarker : Text) (first : Int) (texts : List Text) (i : Nat) :
    (Line.classifyAll commentMarker first texts)[i]? =
      texts[i]?.map fun text ↦ Line.classify commentMarker text (first + i) := by
  induction texts generalizing first i with
  | nil => rfl
  | cons text rest ih =>
    cases i with
    | zero => simp [Line.classifyAll]
    | succ j =>
      rw [Line.classifyAll, List.getElem?_cons_succ, List.getElem?_cons_succ, ih]
      congr 2
      funext text
      congr 1
      push_cast
      omega

/-- Blank lines are dropped from the start of a cell. -/
theorem exists_drop_of_dropBlankStart (number : Int) {texts : List Text} (h : texts ≠ []) :
    ∃ count, count < texts.length ∧ (dropBlankStart number texts).1 = number + count ∧
      (dropBlankStart number texts).2 = texts.drop count := by
  induction texts generalizing number with
  | nil => exact absurd rfl h
  | cons first others ih =>
    cases others with
    | nil => exact ⟨0, Nat.zero_lt_one, (Int.add_zero number).symm, rfl⟩
    | cons second more =>
      rw [dropBlankStart]
      split
      · obtain ⟨count, hcount, hnumber, hlines⟩ := ih (number + 1) (List.cons_ne_nil _ _)
        exact ⟨count + 1, Nat.succ_lt_succ hcount, by rw [hnumber]; push_cast; omega, hlines⟩
      · exact ⟨0, Nat.succ_pos _, (Int.add_zero number).symm, rfl⟩

/-- The column at which one of some consecutive lines begins: only the first one may begin behind
the start of its line. -/
def columnOf (column i : Nat) : Nat :=
  if i = 0 then column else 0

/-- Texts stand in a text one below the other, the first of them from a column on. -/
def StandBelow (written : List Text) (index column : Nat) (texts : List Text) : Prop :=
  ∀ (i : Nat) (part : Text), texts[i]? = some part →
    StandsFrom written (index + i) (columnOf column i) part

/-- What is written for a cell stands where its segment does and on the lines below. -/
theorem standBelow_of_segmentCell {segment : CellSegment}
    (hlines : ∀ (i : Nat) (other : Line), (line :: rest)[i]? = some other →
      StandsFrom written (index + i) (columnOf column i) other.input)
    (hcontent : content <+: rest) (h : SegmentCell separator line content segment raw) :
    StandBelow written index (column + segment.column) raw.lines := by
  have hfirst : StandsFrom written index (column + segment.column) segment.content := by
    obtain ⟨hcolumn, hprefix⟩ := isPrefix_of_mem_segments
      (segmentsIn_splitCellLine separator line.input).2 h.segment_mem
    exact (hlines 0 line rfl).part hcolumn hprefix
  intro i part hpart
  obtain ⟨-, -, hraw | hraw⟩ := h.parts
  · rw [hraw] at hpart
    cases i with
    | zero =>
      cases hpart
      exact hfirst
    | succ j => cases hpart
  · rw [hraw] at hpart
    cases i with
    | zero =>
      cases hpart
      exact hfirst
    | succ j =>
      obtain ⟨taken, htaken, hall⟩ := forall₂_continuation separator content
      obtain ⟨hindex, hvalue⟩ := List.getElem?_eq_some_iff.mp hpart
      rw [List.getElem_cons_succ] at hvalue
      have hbound : j < taken.length := by
        rw [← hall.length_eq]
        exact Nat.lt_of_succ_lt_succ hindex
      have hsource : (line :: rest)[j + 1]? = some taken[j] := by
        rw [List.getElem?_cons_succ]
        exact List.prefix_iff_getElem?.mp (htaken.trans hcontent) j hbound
      have hprefix := (List.forall₂_iff_get.mp hall).2 j (Nat.lt_of_succ_lt_succ hindex) hbound
      simp only [List.get_eq_getElem, hvalue] at hprefix
      exact (hlines (j + 1) _ hsource).of_isPrefix hprefix

/-- The lines of the document in a cell stand where the cell does, without the blank lines that the
cell starts with. -/
theorem standBelow_documentLines {lines : List Text} (count : Nat)
    (h : StandBelow written index column lines) :
    StandBelow written (index + count)
      (columnOf column count + indentation ((lines.drop count).headD []))
      (documentLines (dropBlankEnd (lines.drop count))) := by
  have hkept : dropBlankEnd (lines.drop count) <+: lines.drop count :=
    List.rdropWhile_prefix allBlank _
  have hget : ∀ {i part}, (dropBlankEnd (lines.drop count))[i]? = some part →
      lines[count + i]? = some part := by
    intro i part hpart
    obtain ⟨hindex, hvalue⟩ := List.getElem?_eq_some_iff.mp hpart
    rw [← List.getElem?_drop, List.prefix_iff_getElem?.mp hkept i hindex, hvalue]
  intro i part hpart
  cases hkeptLines : dropBlankEnd (lines.drop count) with
  | nil =>
    rw [hkeptLines] at hpart
    cases hpart
  | cons first others =>
    rw [hkeptLines] at hpart hget
    cases i with
    | zero =>
      cases hpart
      have hfirst := hget (i := 0) rfl
      have hstands := h count first hfirst
      have hhead : (lines.drop count).headD [] = first := by
        rw [List.headD_eq_head?_getD, List.head?_drop]
        exact congrArg (·.getD []) hfirst
      rw [hhead]
      exact hstands.part (List.takeWhile_prefix _).length_le (isPrefix_trim first)
    | succ j =>
      have hstands := h (count + (j + 1)) part (hget (i := j + 1) hpart)
      rw [← Nat.add_assoc] at hstands
      exact hstands

/-- The lines of the document in a cell stand from the column of the cell on, below lines that stand
in a text. -/
theorem standBelow_cell {own : Nat} {segment : CellSegment}
    (hlines : ∀ (i : Nat) (other : Line), (line :: rest)[i]? = some other →
      LineAt written (index + i) (columnOf column i) other)
    (hcontent : content <+: rest) (hcell : SegmentCell separator line content segment raw)
    (hbegins : (dropBlankStart raw.lineno raw.lines).1 = own + 1) :
    StandBelow written own (cellColumn column segment raw)
      (documentLines (dropBlankEnd (dropBlankStart raw.lineno raw.lines).2)) := by
  have hraw := standBelow_of_segmentCell (fun i other hother ↦ (hlines i other hother).stands)
    hcontent hcell
  have hsome : raw.lines ≠ [] := by
    obtain ⟨-, -, heq | heq⟩ := hcell.parts <;> rw [heq] <;> exact List.cons_ne_nil _ _
  obtain ⟨count, -, hlineno, hstarted⟩ := exists_drop_of_dropBlankStart raw.lineno hsome
  have hnumber : raw.lineno = index + 1 := hcell.parts.1.trans (hlines 0 line rfl).number
  obtain rfl : own = index + count := by omega
  have hcolumn : cellColumn column segment raw =
      columnOf (column + segment.column) count + indentation ((raw.lines.drop count).headD []) := by
    rw [cellColumn, columnOf]
    dsimp only
    rw [hstarted]
    congr 1
    by_cases hzero : count = 0
    · rw [if_pos hzero, if_pos (by omega)]
    · rw [if_neg hzero, if_neg (by omega)]
  rw [hcolumn, hstarted]
  exact standBelow_documentLines count hraw

/-- Lines that begin in a text are consecutive lines of it, and each stands where it begins. -/
theorem Sited.stands (h : Sited commentMarker written index column lines) :
    ∀ (i : Nat) (line : Line), lines[i]? = some line →
      LineAt written (index + i) (columnOf column i) line := by
  induction h with
  | text =>
    intro i line hline
    rw [getElem?_classifyAll] at hline
    obtain ⟨text, htext, rfl⟩ := Option.map_eq_some_iff.mp hline
    have hcolumn : columnOf 0 i = 0 := ite_self 0
    refine ⟨?_, ⟨text, ?_, ?_, ?_⟩, Line.spelled_shapeOf commentMarker _⟩
    · change (1 : Int) + i = ((0 + i : Nat) : Int) + 1
      omega
    · rw [Nat.zero_add, htext]
    · rw [hcolumn]
      exact Nat.zero_le _
    · rw [hcolumn]
      exact Line.isPrefix_input_classify commentMarker text _
  | nil =>
    intro i line hline
    cases hline
  | @behind index column first rest _ ih =>
    intro i line hline
    have hbelow := ih (i + 1) line hline
    rw [Nat.add_comm i 1, ← Nat.add_assoc] at hbelow
    rwa [show columnOf 0 i = columnOf column (1 + i) from
      (ite_self 0).trans (if_neg (by omega)).symm]
  | @cell index column own line rest content separator segment raw _ within cell begins ih =>
    intro i other hother
    rw [cellLines] at hother
    dsimp only at hother
    rw [getElem?_classifyAll] at hother
    obtain ⟨text, htext, rfl⟩ := Option.map_eq_some_iff.mp hother
    have hstands := standBelow_cell ih within cell begins i text htext
    refine ⟨?_, hstands.of_isPrefix (Line.isPrefix_input_classify commentMarker text _),
      Line.spelled_shapeOf commentMarker _⟩
    change (dropBlankStart raw.lineno raw.lines).1 + i = _
    rw [begins]
    push_cast
    omega

/-- The first one of lines that begin in a text stands there. -/
theorem Sited.head (h : Sited commentMarker written index column (line :: rest)) :
    LineAt written index column line :=
  h.stands 0 line rfl

theorem Sited.of_suffix (h : Sited commentMarker written index column lines)
    (hrest : rest <:+ lines) : ∃ later low, Sited commentMarker written later low rest := by
  induction lines generalizing index column with
  | nil => exact ⟨0, 0, List.suffix_nil.mp hrest ▸ .nil⟩
  | cons line others ih =>
    rcases List.suffix_cons_iff.mp hrest with rfl | hsuffix
    · exact ⟨index, column, h⟩
    · exact ih h.behind hsuffix

/-- Reading keeps lines that begin in a text. -/
theorem lasting_beginIn : Lasting commentMarker (BeginIn commentMarker written) where
  suffix hsuffix h := by
    obtain ⟨index, column, h⟩ := h
    exact h.of_suffix hsuffix
  cell := by
    rintro separator content lines raw ⟨after, rfl⟩ ⟨index, column, h⟩ hraw
    obtain ⟨line, behind, segment, ⟨before, rfl⟩, hcell⟩ := exists_segment_of_mem_gatherCells hraw
    have hsuffix : line :: (behind ++ after) <:+ before ++ line :: behind ++ after :=
      ⟨before, by simp⟩
    obtain ⟨later, low, hlater⟩ := h.of_suffix hsuffix
    have hnumber : raw.lineno = later + 1 := hcell.parts.1.trans hlater.head.number
    have hsome : raw.lines ≠ [] := by
      obtain ⟨-, -, heq | heq⟩ := hcell.parts <;> rw [heq] <;> exact List.cons_ne_nil _ _
    obtain ⟨count, -, hlineno, -⟩ := exists_drop_of_dropBlankStart raw.lineno hsome
    exact ⟨later + count, _, .cell hlater (List.prefix_append _ _) hcell (by omega)⟩

end Sited

end Blocks

end AsciidocSpans
