import AsciidocSpans.Proofs.Blocks.Formation
import AsciidocSpans.Proofs.Blocks.Sites
import AsciidocSpans.Proofs.Span.Admissible

/-!
Where own texts are captured. A line introduces a text by the markup before it (`Line.Introduces`):
a title by its equals signs, an item by its marker and its box, a paragraph by the label of an
admonition, a description by its term. So the text is captured at a column of the line, and where
the line stands in a source, at a column there (`Captured`). A cell is captured where its segment
starts, behind white space, or further down if it starts with blank lines (`CellCaptured`).

The title of every section, the first line of every item and of every admonition with a label, and
the first line of every cell are captured somewhere (`exists_captured_title` and the theorems
beside it).
-/

set_option autoImplicit false
set_option relaxedAutoImplicit false

namespace AsciidocSpans

open Text

/-- The first of some lines without a newline is the first line of what they make. -/
theorem Text.head?_lines_unlines {first : Text} (h : '\n' ∉ first) (rest : List Text) :
    (unlines (first :: rest)).lines.head? = some first := by
  cases rest with
  | nil => exact congrArg List.head? (cutAt_of_not_mem h)
  | cons next others =>
    rw [unlines, joinWith_cons _ _ (List.cons_ne_nil _ _), List.append_assoc,
      List.singleton_append, lines, cutAt_append h]
    rfl

/-- A line introduces a text by what stands before it. -/
def Line.Introduces (line : Line) (before text : Text) : Prop :=
  match line.shape with
  | .sectionTitle marker title =>
    text = title ∧ ∃ blanks, allBlank blanks ∧ before = marker ++ blanks
  | .admonition style shown =>
    text = shown ∧ ∃ blanks, allBlank blanks ∧ before = style ++ ':' :: blanks
  | .listItem kind marker shown checkbox =>
    text = shown ∧ ∃ lead written blanks box, allBlank lead ∧ allBlank blanks ∧
      kind.Writes marker written ∧ writesBox box checkbox ∧
      before = lead ++ written ++ blanks ++ box
  | .term shown delimiter description =>
    (text = shown ∧ allBlank before) ∨
      (description = some text ∧ ∃ lead blanks, allBlank lead ∧ allBlank blanks ∧
        before = lead ++ shown ++ delimiter ++ blanks)
  | .plainText _ | .indentedText .. => text = trim line.input ∧ allBlank before
  | _ => False

/-- A line captures a text at a column. -/
def Line.Captures (line : Line) (text : Text) (column : Nat) : Prop :=
  ∃ before behind, line.Introduces before text ∧ line.input = before ++ text ++ behind ∧
    column = before.length

namespace Blocks

variable {commentMarker : Text} {written : List Text} {line : Line} {rest : List Line}
  {text : Text} {index low column : Nat}

/-! ### Texts that a line captures -/

section Lines

/-- A text is captured in a source at a column of the line with an index. -/
def Captured (commentMarker : Text) (written : List Text) (text : Text) (index column : Nat) :
    Prop :=
  ∃ low offset line rest, Sited commentMarker written index low (line :: rest) ∧
    line.Captures text offset ∧ column = low + offset

theorem StandsFrom.occursAt (h : StandsFrom written index column text) :
    ∃ raw, written[index]? = some raw ∧ OccursAt text raw column :=
  h

/-- A text stands where it is captured. -/
theorem Captured.standsFrom (h : Captured commentMarker written text index column) :
    StandsFrom written index column text := by
  obtain ⟨low, offset, line, rest, hsited, ⟨before, behind, -, hinput, rfl⟩, rfl⟩ := h
  refine hsited.head.stands.part ?_ ?_
  · rw [hinput, List.append_assoc, List.length_append]
    exact Nat.le_add_right _ _
  · rw [hinput, List.append_assoc, List.drop_left]
    exact List.prefix_append _ _

/-- What stands in a source without newlines has none. -/
theorem StandsFrom.not_mem {c : Char} (h : StandsFrom written index column text)
    (hwritten : ∀ line ∈ written, c ∉ line) : c ∉ text := by
  obtain ⟨raw, hraw, -, hpart⟩ := h
  exact fun hmem ↦ hwritten raw (List.mem_of_getElem? hraw)
    (List.mem_of_mem_drop (hpart.subset hmem))

theorem Sited.captured_title {marker title : Text}
    (h : Sited commentMarker written index low (line :: rest))
    (hshape : line.shape = .sectionTitle marker title) :
    ∃ column, Captured commentMarker written title index column := by
  have hspelled := h.head.spelled
  rw [hshape] at hspelled
  obtain ⟨blanks, behind, hblanks, hinput⟩ := hspelled
  refine ⟨_, low, _, line, rest, h, ⟨marker ++ blanks, behind, ?_, hinput, rfl⟩, rfl⟩
  rw [Line.Introduces, hshape]
  exact ⟨rfl, blanks, hblanks, rfl⟩

theorem Sited.captured_label {style shown : Text}
    (h : Sited commentMarker written index low (line :: rest))
    (hshape : line.shape = .admonition style shown) :
    ∃ column, Captured commentMarker written shown index column := by
  have hspelled := h.head.spelled
  rw [hshape] at hspelled
  obtain ⟨blanks, behind, hblanks, hinput⟩ := hspelled
  refine ⟨_, low, _, line, rest, h, ⟨style ++ ':' :: blanks, behind, ?_, hinput, rfl⟩, rfl⟩
  rw [Line.Introduces, hshape]
  exact ⟨rfl, blanks, hblanks, rfl⟩

theorem Sited.captured_item {kind : ListKind} {marker shown : Text} {checkbox : Option Checkbox}
    (h : Sited commentMarker written index low (line :: rest))
    (hshape : line.shape = .listItem kind marker shown checkbox) :
    ∃ column, Captured commentMarker written shown index column := by
  have hspelled := h.head.spelled
  rw [hshape] at hspelled
  obtain ⟨lead, own, blanks, box, behind, hlead, hblanks, hwrites, hbox, hinput⟩ := hspelled
  refine ⟨_, low, _, line, rest, h, ⟨lead ++ own ++ blanks ++ box, behind, ?_, hinput, rfl⟩, rfl⟩
  rw [Line.Introduces, hshape]
  exact ⟨rfl, lead, own, blanks, box, hlead, hblanks, hwrites, hbox, rfl⟩

theorem Sited.captured_term {shown delimiter : Text} {description : Option Text}
    (h : Sited commentMarker written index low (line :: rest))
    (hshape : line.shape = .term shown delimiter description) :
    ∃ column, Captured commentMarker written shown index column := by
  have hspelled := h.head.spelled
  rw [hshape] at hspelled
  obtain ⟨lead, behind, hlead, hinput, -⟩ := hspelled
  refine ⟨_, low, _, line, rest, h, ⟨lead, delimiter ++ behind, ?_, ?_, rfl⟩, rfl⟩
  · rw [Line.Introduces, hshape]
    exact .inl ⟨rfl, hlead⟩
  · rw [hinput, List.append_assoc _ delimiter]

theorem Sited.captured_onTerm {shown delimiter described : Text}
    (h : Sited commentMarker written index low (line :: rest))
    (hshape : line.shape = .term shown delimiter (some described)) :
    ∃ column, Captured commentMarker written described index column := by
  have hspelled := h.head.spelled
  rw [hshape] at hspelled
  obtain ⟨lead, behind, hlead, hinput, hdescribed⟩ := hspelled
  obtain ⟨blanks, further, hblanks, rfl⟩ := hdescribed described rfl
  refine ⟨_, low, _, line, rest, h, ⟨lead ++ shown ++ delimiter ++ blanks, further, ?_, ?_, rfl⟩,
    rfl⟩
  · rw [Line.Introduces, hshape]
    exact .inr ⟨rfl, lead, blanks, hlead, hblanks, rfl⟩
  · rw [hinput]
    simp only [List.append_assoc]

theorem Sited.captured_below (h : Sited commentMarker written index low (line :: rest))
    (hshape : line.shape.isUnmarked) :
    ∃ column, Captured commentMarker written (trim line.input) index column := by
  obtain ⟨before, behind, hbefore, -, hinput⟩ := exists_trim line.input
  refine ⟨_, low, _, line, rest, h, ⟨before, behind, ?_, hinput, rfl⟩, rfl⟩
  rw [Line.Introduces]
  cases heq : line.shape with
  | plainText _ => exact ⟨rfl, hbefore⟩
  | indentedText _ _ => exact ⟨rfl, hbefore⟩
  | _ =>
    rw [heq] at hshape
    cases hshape

end Lines

/-! ### Own texts of elements -/

section Elements

variable {info : ElementInfo}

/-- The first line of a text of an element is captured at a column of the element's line. -/
structure CapturedOn (commentMarker : Text) (written : List Text) (info : ElementInfo)
    (first : Text) (index column : Nat) : Prop where
  lineno : info.lineno = index + 1
  captured : Captured commentMarker written first index column

/-- The title of every section is captured on its line. -/
theorem exists_captured_title {level : Int} {blocks : List Element}
    (h : Formed commentMarker (BeginIn commentMarker written) (.titledSection info level blocks)) :
    ∃ (title : Text) (index column : Nat), info.title = some title ∧
      CapturedOn commentMarker written info title index column := by
  generalize helement : Element.titledSection info level blocks = element at h
  cases h with
  | @opened metadata line rest marker title inner waits shape =>
    obtain ⟨index, low, hsited⟩ := waits.here lasting_beginIn
    cases helement
    obtain ⟨column, hcaptured⟩ := hsited.captured_title shape
    exact ⟨title, index, column, rfl, hsited.head.number, hcaptured⟩
  | plain isPlain =>
    subst helement
    cases isPlain
  | _ => cases helement

/-- An element stands on a line that is no admonition by itself. -/
def Unlabelled (commentMarker : Text) (written : List Text) (info : ElementInfo) : Prop :=
  ∃ index low line rest, Sited commentMarker written index low (line :: rest) ∧
    info.lineno = index + 1 ∧ ∀ style shown, line.shape ≠ .admonition style shown

/-- The first line of an admonition without blocks is captured behind its label, or the admonition
stands on a line without a label. -/
theorem exists_captured_label {style : Text} {lines : List Text} (hlines : lines ≠ [])
    (h : Formed commentMarker (BeginIn commentMarker written) (.admonition info style lines [])) :
    (∃ first more index column, lines = first :: more ∧
      CapturedOn commentMarker written info first index column) ∨
    Unlabelled commentMarker written info := by
  generalize helement : Element.admonition info style lines [] = element at h
  cases h with
  | @labelled metadata line rest own shown attached waits shape =>
    obtain ⟨index, low, hsited⟩ := waits.here lasting_beginIn
    cases helement
    obtain ⟨column, hcaptured⟩ := hsited.captured_label shape
    exact .inl ⟨shown, _, index, column, rfl, hsited.head.number, hcaptured⟩
  | @styled metadata line rest own texts waits shape =>
    obtain ⟨index, low, hsited⟩ := waits.here lasting_beginIn
    cases helement
    exact .inr ⟨index, low, line, rest, hsited, hsited.head.number, shape⟩
  | delimited =>
    cases helement
    exact absurd rfl hlines
  | plain isPlain =>
    subst helement
    cases isPlain
  | _ => cases helement

/-- The items of every list are made of lines. -/
theorem items_of_formed {I : List Line → Prop} {kind : ListKind} {marker : Text}
    {items : List ListItem} (h : Formed commentMarker I (.list info kind marker items)) :
    ∀ item ∈ items, ItemFormed I item := by
  generalize helement : Element.list info kind marker items = element at h
  cases h with
  | list formed =>
    cases helement
    exact formed
  | plain isPlain =>
    subst helement
    cases isPlain
  | _ => cases helement

/-- The terms and the descriptions of every description list are made of lines. -/
theorem entries_of_formed {I : List Line → Prop} {delimiter : Text}
    {entries : List DescriptionEntry}
    (h : Formed commentMarker I (.descriptionList info delimiter entries)) :
    ∀ entry ∈ entries, ∀ item ∈ entry.terms ++ entry.description.toList, ItemFormed I item := by
  generalize helement : Element.descriptionList info delimiter entries = element at h
  cases h with
  | descriptionList formed =>
    cases helement
    exact formed
  | plain isPlain =>
    subst helement
    cases isPlain
  | _ => cases helement

/-- The first line of every item that has a text is captured. -/
theorem exists_captured_item {item : ListItem} {first : Text}
    (hwritten : ∀ line ∈ written, '\n' ∉ line)
    (h : ItemFormed (BeginIn commentMarker written) item) (htext : item.text = some text)
    (hfirst : text.lines.head? = some first) :
    ∃ index column, CapturedOn commentMarker written item.info first index column := by
  have hitem : ∀ {shown : Text} {rest : List Line} {index column : Nat},
      Captured commentMarker written shown index column →
      some (itemText shown rest).1 = some text → shown = first := by
    intro shown rest index column hcaptured heq
    cases heq
    rw [itemText] at hfirst
    exact Option.some.inj ((head?_lines_unlines
      (hcaptured.standsFrom.not_mem hwritten) _).symm.trans hfirst)
  cases h with
  | marked here shape =>
    obtain ⟨index, low, hsited⟩ := here
    obtain ⟨column, hcaptured⟩ := hsited.captured_item shape
    exact ⟨index, column, hsited.head.number, hitem hcaptured htext ▸ hcaptured⟩
  | term here shape =>
    obtain ⟨index, low, hsited⟩ := here
    obtain ⟨column, hcaptured⟩ := hsited.captured_term shape
    cases htext
    have hnewline := hcaptured.standsFrom.not_mem hwritten
    rw [show text.lines = [text] from cutAt_of_not_mem hnewline] at hfirst
    cases hfirst
    exact ⟨index, column, hsited.head.number, hcaptured⟩
  | onTerm here shape =>
    obtain ⟨index, low, hsited⟩ := here
    obtain ⟨column, hcaptured⟩ := hsited.captured_onTerm shape
    exact ⟨index, column, hsited.head.number, hitem hcaptured htext ▸ hcaptured⟩
  | below here shape =>
    obtain ⟨index, low, hsited⟩ := here
    obtain ⟨column, hcaptured⟩ := hsited.captured_below shape
    exact ⟨index, column, hsited.head.number, hitem hcaptured htext ▸ hcaptured⟩
  | textless => cases htext

end Elements

/-! ### Texts of cells -/

section Cells

variable {cell : TableCell}

/-- The text of a cell is captured at a column of the line that the cell begins on: where the
segment of the cell starts behind white space, or further down if it starts with blank lines. -/
structure CellCaptured (commentMarker : Text) (written : List Text) (cell : TableCell)
    (index column : Nat) : Prop where
  lineno : cell.info.lineno = index + 1
  captured : ∃ outer low line rest content separator segment raw,
    Sited commentMarker written outer low (line :: rest) ∧ content <+: rest ∧
      SegmentCell separator line content segment raw ∧ CellOf commentMarker raw cell ∧
      column = cellColumn low segment raw

/-- The first line of a cell stands where the text of the cell is captured. -/
theorem CellCaptured.standsFrom {first : Text}
    (h : CellCaptured commentMarker written cell index column)
    (hwritten : ∀ line ∈ written, '\n' ∉ line) (hfirst : cell.text.lines.head? = some first)
    (hsome : first ≠ []) : StandsFrom written index column first := by
  obtain ⟨hlineno, outer, low, line, rest, content, separator, segment, raw, hsited, hcontent,
    hsegment, hcell, rfl⟩ := h
  obtain ⟨hnumber, htext⟩ := text_of_cellOf hcell
  have hbelow := standBelow_cell hsited.stands hcontent hsegment (hnumber.symm.trans hlineno)
  generalize hstarted : (dropBlankStart raw.lineno raw.lines).2 = started at hbelow htext
  have hkept : dropBlankEnd started ≠ [] := by
    intro hnil
    rw [hnil] at htext
    rcases htext with heq | heq
    · rw [heq] at hfirst
      exact hsome (Option.some.inj hfirst).symm
    · rw [heq] at hfirst
      exact hsome (Option.some.inj hfirst).symm
  obtain ⟨start, more, hends⟩ := List.exists_cons_of_ne_nil hkept
  rw [hends] at hbelow
  have hstart : StandsFrom written index (cellColumn low segment raw) (trim start) :=
    hbelow 0 _ rfl
  have hnewline : '\n' ∉ trim start := hstart.not_mem hwritten
  have hhead : cell.text.lines.head? = some (trim start) := by
    rcases text_eq_unlines hkept
      (fun _ _ _ heq ↦ allBlank_of_dropBlankStart (hstarted.trans heq)) htext with heq | heq
    · rw [heq, hends]
      exact head?_lines_unlines hnewline _
    · rw [heq, hends]
      exact head?_lines_unlines hnewline _
  cases hhead.symm.trans hfirst
  exact hstart

/-- The text of every cell of a table is captured. -/
theorem exists_cellCaptured {info : ElementInfo} {columns : Nat}
    {headRows bodyRows : List (List TableCell)}
    (h : Formed commentMarker (BeginIn commentMarker written)
      (.table info columns headRows bodyRows))
    (hcell : cell ∈ (headRows ++ bodyRows).flatten) :
    ∃ index column, CellCaptured commentMarker written cell index column := by
  obtain ⟨metadata, opening, rest, content, separator, -, cells, waits, -, within, read, made, -⟩ :=
    h.table_cases
  obtain ⟨_, _, _, _, hmade, -, -, -, hrows, -⟩ := exists_makeTable opening.number separator
    content metadata.attributes cells
  rw [hmade] at made
  cases made
  rw [hrows, flatten_groupRows, List.nil_append] at hcell
  obtain ⟨raw, hraw, hof⟩ := exists_of_forall₂_of_mem read.flip hcell
  obtain ⟨line, behind, segment, ⟨before, rfl⟩, hsegment⟩ :=
    exists_segment_of_mem_gatherCells hraw
  obtain ⟨after, rfl⟩ := within
  obtain ⟨first, low, hsited⟩ := waits.here lasting_beginIn
  have hsuffix : line :: (behind ++ after) <:+ opening :: (before ++ line :: behind ++ after) :=
    ⟨opening :: before, by simp⟩
  obtain ⟨outer, start, hline⟩ := hsited.of_suffix hsuffix
  have hnumber : raw.lineno = outer + 1 := hsegment.parts.1.trans hline.head.number
  have hsome : raw.lines ≠ [] := by
    obtain ⟨-, -, heq | heq⟩ := hsegment.parts <;> rw [heq] <;> exact List.cons_ne_nil _ _
  obtain ⟨count, -, hbegins, -⟩ := exists_drop_of_dropBlankStart raw.lineno hsome
  refine ⟨outer + count, _, ?_, outer, start, line, _, behind, separator, segment, raw, hline,
    List.prefix_append _ _, hsegment, hof, rfl⟩
  rw [(text_of_cellOf hof).1, hbegins, hnumber]
  push_cast
  omega

end Cells

end Blocks

end AsciidocSpans
