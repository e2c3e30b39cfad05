import AsciidocSpans.Proofs.Blocks.Adequacy
import AsciidocSpans.Proofs.Blocks.LineNumbers
import AsciidocSpans.Proofs.Element.Preorder

/-!
Elements in document order. The lines of a text are numbered one by one up to the last one
(`Numbered`), so the lines that are left tell the number of the next one (`firstNumber`). What is
read of some lines stands between the first of them and the first one left behind, in the order in
which it is written, and what is read next stands behind that (`MetBetween`, `BlocksBetween`).
`BlocksMade.between` and the theorems beside it say so of the whole grammar of blocks, by induction
on what was read.

The cells of a table are the exception to counting by lines: several of them may stand on one line,
and a cell may start on the line where the cell before it ends (`CellsLaid`).

So the elements of a document, in the order in which they are met, stand on lines of the text that
never go back, and the blocks of each container on lines that always go on
(`documentOrder_of_ofText`).
-/

set_option autoImplicit false
set_option relaxedAutoImplicit false

namespace AsciidocSpans.Blocks

open Element

variable {commentMarker : Text} {last low high : Int} {lines rest middle behind : List Line}

/-- Lines are numbered one by one up to a last number. -/
def Numbered (last : Int) (lines : List Line) : Prop :=
  ∀ line rest, line :: rest <:+ lines → line.number + rest.length = last

/-- The number of the first of some lines, or of the next one if none is left. -/
def firstNumber (last : Int) (lines : List Line) : Int :=
  last + 1 - lines.length

section Numbers

theorem Numbered.of_suffix (h : Numbered last lines) (hrest : rest <:+ lines) :
    Numbered last rest :=
  fun line others hline ↦ h line others (hline.trans hrest)

theorem Numbered.number_eq {line : Line} (h : Numbered last (line :: rest)) :
    line.number = firstNumber last (line :: rest) := by
  have hline := h line rest List.suffix_rfl
  rw [firstNumber, List.length_cons]
  omega

theorem firstNumber_cons (last : Int) (line : Line) (rest : List Line) :
    firstNumber last (line :: rest) + 1 = firstNumber last rest := by
  rw [firstNumber, firstNumber, List.length_cons]
  omega

theorem firstNumber_le (last : Int) (h : rest <:+ lines) :
    firstNumber last lines ≤ firstNumber last rest := by
  have hlength := h.length_le
  rw [firstNumber, firstNumber]
  omega

/-- Lines that are classified are numbered one by one. -/
theorem numbered_classifyAll {first : Int} {texts : List Text}
    (hlast : last + 1 = first + texts.length) :
    Numbered last (Line.classifyAll commentMarker first texts) := by
  intro line rest h
  have hline := (number_of_suffix_classifyAll h).2
  omega

theorem firstNumber_classifyAll {first : Int} {texts : List Text}
    (hlast : last + 1 = first + texts.length) :
    firstNumber last (Line.classifyAll commentMarker first texts) = first := by
  rw [firstNumber, length_classifyAll]
  omega

/-- The first lines of lines that are numbered one by one are numbered so. -/
theorem Numbered.initial {content : List Line} (h : Numbered last lines)
    (hcontent : content <+: lines) :
    Numbered (firstNumber last lines + content.length - 1) content := by
  obtain ⟨others, rfl⟩ := hcontent
  intro line rest ⟨before, hline⟩
  have hnumber := h line (rest ++ others) ⟨before, by rw [← hline, List.append_assoc]; rfl⟩
  rw [firstNumber, ← hline]
  simp only [List.length_append, List.length_cons] at hnumber ⊢
  omega

end Numbers

/-- Elements that are met in turn stand on some lines before the ones that are left. -/
structure MetBetween (last : Int) (lines behind : List Line) (visited : List Element) : Prop where
  left : behind <:+ lines
  order : InOrder (firstNumber last lines) (firstNumber last behind - 1) visited

/-- The blocks of a container stand on some lines before the ones that are left. -/
structure BlocksBetween (last : Int) (lines behind : List Line) (blocks : List Element) : Prop where
  left : behind <:+ lines
  order : BlocksInOrder (firstNumber last lines) (firstNumber last behind - 1) blocks

section Between

variable {element : Element} {visited others blocks : List Element}

theorem metBetween_nil : MetBetween last lines lines [] :=
  ⟨List.suffix_rfl, inOrder_nil⟩

theorem blocksBetween_nil (h : behind <:+ lines) : BlocksBetween last lines behind [] :=
  ⟨h, blocksInOrder_nil⟩

theorem MetBetween.of_suffix (h : MetBetween last rest behind visited) (hrest : rest <:+ lines) :
    MetBetween last lines behind visited :=
  ⟨h.left.trans hrest, h.order.mono (firstNumber_le last hrest) (Int.le_refl _)⟩

theorem BlocksBetween.of_suffix (h : BlocksBetween last rest behind blocks)
    (hrest : rest <:+ lines) : BlocksBetween last lines behind blocks :=
  ⟨h.left.trans hrest, h.order.mono (firstNumber_le last hrest) (Int.le_refl _)⟩

theorem MetBetween.append (h : MetBetween last lines middle visited)
    (hothers : MetBetween last middle behind others) :
    MetBetween last lines behind (visited ++ others) := by
  have hmiddle := firstNumber_le last h.left
  have hbehind := firstNumber_le last hothers.left
  exact ⟨hothers.left.trans h.left,
    h.order.append hothers.order hmiddle (by omega) (by omega)⟩

theorem BlocksBetween.append (h : BlocksBetween last lines middle blocks)
    (hothers : BlocksBetween last middle behind others) :
    BlocksBetween last lines behind (blocks ++ others) := by
  have hmiddle := firstNumber_le last h.left
  have hbehind := firstNumber_le last hothers.left
  exact ⟨hothers.left.trans h.left,
    h.order.append hothers.order hmiddle (by omega) (by omega)⟩

theorem MetBetween.blocksBetween (h : MetBetween last lines behind element.preorder) :
    BlocksBetween last lines behind [element] :=
  ⟨h.left, blocksInOrder_singleton h.order⟩

end Between

section Elements

variable {element : Element} {number : Int} {blocks : List Element}

theorem innerBlocks_of_isChildless (h : element.isChildless) :
    element.preorder = [element] ∧ element.innerBlocks = [] := by
  cases element with
  | admonition info style lines blocks =>
    cases blocks with
    | nil => exact ⟨rfl, rfl⟩
    | cons => cases h
  | paragraph | listing | image | tableOfContents | «unhandled» => exact ⟨rfl, rfl⟩
  | _ => cases h

theorem inOrder_of_isLeaf (h : IsLeaf number element) (hhigh : number ≤ high) :
    InOrder number high element.preorder := by
  cases h with
  | childless stands childless =>
    obtain ⟨hpreorder, hinner⟩ := innerBlocks_of_isChildless childless
    rw [hpreorder]
    exact inOrder_singleton (Int.le_of_eq stands.symm) (stands ▸ hhigh) hinner
  | quoted stands =>
    exact .cons stands hhigh (List.pairwise_singleton _ _)
      (inOrder_singleton (Int.le_refl _) hhigh rfl)

/-- An element is met before its blocks, none of which stands further up. -/
theorem inOrder_holding (hpreorder : element.preorder = element :: preorderOf blocks)
    (hinner : element.innerBlocks = blocks) (hline : element.lineno = number)
    (hhigh : number ≤ high) (h : BlocksInOrder number high blocks) :
    InOrder number high element.preorder := by
  rw [hpreorder]
  exact .cons hline hhigh (hinner ▸ h.rising) h.visited

theorem inOrder_makeDelimited {metadata : Metadata} {kind : DelimitedKind}
    (hhigh : number ≤ high) (h : BlocksInOrder number high blocks) :
    InOrder number high (makeDelimited metadata number kind blocks).preorder := by
  rcases makeDelimited_cases metadata number kind blocks with ⟨_, heq⟩ | ⟨_, -, heq⟩ | heq
  · rw [heq]
    exact inOrder_holding rfl rfl rfl hhigh h
  · rw [heq]
    exact inOrder_holding rfl rfl rfl hhigh h
  · rw [heq]
    exact inOrder_singleton (Int.le_refl _) hhigh rfl

theorem inOrder_list {kind : ListKind} {marker : Text} {items : List ListItem}
    (h : InOrder number high (preorderOfItems items)) (hsome : items ≠ []) :
    InOrder number high (makeList number kind marker items).preorder := by
  obtain ⟨item, others, rfl⟩ := List.exists_cons_of_ne_nil hsome
  have hitem := h.within (.listItem item) (by
    cases item
    exact List.mem_cons_self)
  exact .cons rfl (by omega) .nil h

theorem inOrder_descriptionList {delimiter : Text} {entries : List DescriptionEntry}
    (h : InOrder number high (preorderOfEntries entries))
    (hsome : ∃ first others, entries = first :: others ∧ first.terms ≠ []) :
    InOrder number high
      (Element.descriptionList { lineno := number } delimiter entries).preorder := by
  obtain ⟨⟨terms, description⟩, others, rfl, hterms⟩ := hsome
  obtain ⟨term, more, rfl⟩ := List.exists_cons_of_ne_nil hterms
  have hterm := h.within (.listItem term) (by
    cases term
    cases description <;> exact List.mem_cons_self)
  exact .cons rfl (by omega) .nil h

theorem inOrder_makeTable {separator : Char} {content : List Line} {given : Attributes}
    {cells : List TableCell} (hhigh : number ≤ high)
    (h : InOrder number high (preorderOfCells cells)) :
    InOrder number high (makeTable number separator content given cells).preorder := by
  obtain ⟨info, columns, headRows, bodyRows, hmade, hline, -, -, hrows, -⟩ :=
    exists_makeTable number separator content given cells
  have hmet : (Element.table info columns headRows bodyRows).preorder =
      .table info columns headRows bodyRows :: preorderOfCells cells := by
    rw [preorder, preorderOfRows_eq, preorderOfRows_eq, List.cons_append,
      ← preorderOfCells_append, ← List.flatten_append, hrows, flatten_groupRows, List.nil_append]
  rw [hmade, hmet]
  exact .cons hline hhigh .nil h

end Elements

/-- Cells begin on lines that never go back, each no further up than the line on which the one
before it ends. -/
def CellsLaid (high : Int) : (low : Int) → List RawCell → Prop
  | _, [] => True
  | low, raw :: rest => low ≤ raw.lineno ∧ raw.lines ≠ [] ∧
    raw.lineno + raw.lines.length - 1 ≤ high ∧
    CellsLaid high (raw.lineno + raw.lines.length - 1) rest

section Cells

variable {number : Int} {further : List Text} {raws : List RawCell}

theorem CellsLaid.mono (h : CellsLaid high low raws) (hlow : number ≤ low) :
    CellsLaid high number raws := by
  cases raws with
  | nil => trivial
  | cons raw rest => exact ⟨Int.le_trans hlow h.1, h.2⟩

/-- The cells of one line, of which the last one goes on with further lines, before other cells. -/
theorem cellsLaid_rawCells (hhigh : number + further.length ≤ high)
    (h : CellsLaid high (number + further.length) raws) (segments : List CellSegment) :
    CellsLaid high number (rawCells number further segments ++ raws) := by
  induction segments with
  | nil => exact h.mono (by omega)
  | cons segment rest ih =>
    cases rest with
    | nil =>
      refine ⟨Int.le_refl _, List.cons_ne_nil _ _, ?_, h.mono ?_⟩
      · simp only [List.length_cons]
        omega
      · simp only [List.length_cons]
        omega
    | cons next others =>
      refine ⟨Int.le_refl _, List.cons_ne_nil _ _, ?_, ih.mono ?_⟩
      · simp only [List.length_singleton]
        omega
      · simp only [List.length_singleton]
        omega

/-- The cells of lines that are numbered one by one begin no further up than the lines before them
that continue an earlier cell. -/
theorem cellsLaid_gatherCells (separator : Char) {content : List Line}
    (h : Numbered last content) :
    CellsLaid last (firstNumber last content + (gatherCells separator content).1.length - 1)
      (gatherCells separator content).2 := by
  induction content with
  | nil => trivial
  | cons line rest ih =>
    have hmore := ih (h.of_suffix (List.suffix_cons line rest))
    have hnext := firstNumber_cons last line rest
    have hline := h.number_eq
    have hlength := (length_of_gatherCells separator rest).1
    have hfurther : line.number + (gatherCells separator rest).1.length ≤ last := by
      have hlast := h line rest List.suffix_rfl
      omega
    rw [gatherCells]
    dsimp only
    split
    · refine hmore.mono ?_
      rw [List.length_cons]
      omega
    · split
      · refine hmore.mono ?_
        rw [List.length_cons]
        omega
      · refine (cellsLaid_rawCells hfurther (hmore.mono (by omega)) _).mono ?_
        split
        · rw [List.length_nil]
          omega
        · rw [List.length_singleton]
          omega

theorem dropBlankStart_ne_nil (number : Int) {texts : List Text} (h : texts ≠ []) :
    (dropBlankStart number texts).2 ≠ [] := by
  induction texts generalizing number with
  | nil => exact absurd rfl h
  | cons first rest ih =>
    cases rest with
    | nil => exact List.cons_ne_nil _ _
    | cons second others =>
      rw [dropBlankStart]
      split
      · exact ih (number + 1) (List.cons_ne_nil _ _)
      · exact List.cons_ne_nil _ _

/-- A cell stands on one of its own lines. -/
theorem lineno_dropBlankStart_within {raw : RawCell} (hsome : raw.lines ≠ []) :
    raw.lineno ≤ (dropBlankStart raw.lineno raw.lines).1 ∧
      (dropBlankStart raw.lineno raw.lines).1 ≤ raw.lineno + raw.lines.length - 1 := by
  obtain ⟨hnumber, hlength⟩ := lineno_dropBlankStart raw.lineno raw.lines
  have hpositive := List.length_pos_iff.mpr (dropBlankStart_ne_nil raw.lineno hsome)
  omega

/-- The lines of the document inside a cell are lines of the cell. -/
theorem length_cellLines_le (commentMarker : Text) (raw : RawCell) :
    (dropBlankStart raw.lineno raw.lines).1 + (cellLines commentMarker raw).length ≤
      raw.lineno + raw.lines.length := by
  have hlength := (lineno_dropBlankStart raw.lineno raw.lines).2
  have hdropped := length_dropBlankEnd (dropBlankStart raw.lineno raw.lines).2
  have hlines := length_cellLines commentMarker raw
  omega

end Cells

section Entries

variable {delimiter : Text}

theorem rest_of_no_terms (h : (termRun delimiter lines).terms = []) :
    (termRun delimiter lines).rest = lines := by
  revert h
  cases lines with
  | nil => exact fun _ ↦ rfl
  | cons line rest =>
    rw [termRun]
    split
    · split
      · split
        · exact fun h ↦ absurd h (List.cons_ne_nil _ _)
        · exact fun h ↦ absurd h (List.cons_ne_nil _ _)
      · exact fun _ ↦ rfl
    · exact fun _ ↦ rfl

/-- Terms stand on the lines before the ones that are left, and the last of them on the last of
these lines. -/
theorem metBetween_termRun (delimiter : Text) (h : Numbered last lines) :
    MetBetween last lines (termRun delimiter lines).rest
        (preorderOfItems (termRun delimiter lines).terms) ∧
      (∀ term, (termRun delimiter lines).terms.getLast? = some term →
        term.info.lineno + 1 = firstNumber last (termRun delimiter lines).rest) ∧
      ∀ number first, (termRun delimiter lines).description = some (number, first) →
        number + 1 = firstNumber last (termRun delimiter lines).rest := by
  induction lines with
  | nil =>
    refine ⟨metBetween_nil, ?_, ?_⟩
    · rintro term ⟨⟩
    · rintro number first ⟨⟩
  | cons line rest ih =>
    have hline := h.number_eq
    have hnext := firstNumber_cons last line rest
    obtain ⟨hmore, hlastTerm, hdescription⟩ := ih (h.of_suffix (List.suffix_cons line rest))
    have hnone : MetBetween last (line :: rest) (line :: rest) [] := metBetween_nil
    have hterm : ∀ text, MetBetween last (line :: rest) rest
        (preorderOfItem (plainItem line.number text)) := fun text ↦
      ⟨List.suffix_cons line rest, inOrder_singleton (Int.le_of_eq hline.symm)
        (show line.number ≤ _ by omega) rfl⟩
    rw [termRun]
    split
    · split
      · split
        · refine ⟨?_, ?_, ?_⟩
          · exact (hterm _).append metBetween_nil
          · rintro term ⟨⟩
            exact hline ▸ hnext
          · rintro number first ⟨⟩
            exact hline ▸ hnext
        · refine ⟨(hterm _).append hmore, ?_, hdescription⟩
          intro term hlast
          cases hterms : (termRun delimiter rest).terms with
          | nil =>
            dsimp only at hlast
            rw [hterms] at hlast
            cases hlast
            dsimp only
            rw [rest_of_no_terms hterms]
            exact hline ▸ hnext
          | cons next others =>
            refine hlastTerm term ?_
            dsimp only at hlast
            rwa [hterms, List.getLast?_cons_cons, ← hterms] at hlast
      · exact ⟨hnone, by simp, by simp⟩
    · exact ⟨hnone, by simp, by simp⟩

/-- A description stands on the line of the last term or further down, and what is attached to it
stands behind it. -/
theorem between_descriptionMade {number : Int} {text : Option Text}
    (h : DescriptionMade (termRun delimiter lines) number text behind)
    (hlines : Numbered last lines) :
    firstNumber last (termRun delimiter lines).rest ≤ number + 1 ∧
      number + 1 ≤ firstNumber last behind := by
  obtain ⟨hterms, hlastTerm, hdescription⟩ := metBetween_termRun delimiter hlines
  cases h with
  | onTerm given =>
    have hline := hdescription _ _ given
    exact ⟨by omega, hline ▸ firstNumber_le last (itemText_suffix _ _)⟩
  | @below candidate following here =>
    have hcandidate : candidate :: following <:+ (termRun delimiter lines).rest :=
      here ▸ significant_suffix _
    have hline := (hlines.of_suffix (hcandidate.trans hterms.left)).number_eq
    have hnext := firstNumber_cons last candidate following
    have hfirst := firstNumber_le last hcandidate
    have hbehind := firstNumber_le last (itemText_suffix (Text.trim candidate.input) following)
    exact ⟨by omega, by omega⟩
  | missing isLast =>
    have hline := hlastTerm _ isLast
    exact ⟨by omega, by omega⟩

end Entries

/-- What is left behind a line stands below it. -/
theorem Numbered.number_lt {line : Line} (h : Numbered last (line :: rest))
    (hleft : behind <:+ rest) : line.number + 1 ≤ firstNumber last behind := by
  have hnext := firstNumber_le last hleft
  have hfirst := firstNumber_cons last line rest
  have hline := h.number_eq
  omega

section Blocks

variable {line : Line} {element : Element} {blocks : List Element} {metadata : Metadata}

theorem metBetween_of_isLeaf (hlines : Numbered last (line :: rest))
    (h : IsLeaf line.number element) (hleft : behind <:+ rest) :
    MetBetween last (line :: rest) behind element.preorder := by
  have hbelow := hlines.number_lt hleft
  exact ⟨hleft.trans (List.suffix_cons line rest),
    hlines.number_eq ▸ inOrder_of_isLeaf h (by omega)⟩

/-- An indented paragraph that is attached to an item. -/
theorem metBetween_paragraph (hlines : Numbered last (line :: rest)) :
    MetBetween last (line :: rest) (paragraphLines true line rest).2
      (Element.paragraph { lineno := line.number } true
        (dedent (paragraphLines true line rest).1)).preorder :=
  metBetween_of_isLeaf hlines (.childless rfl rfl) (paragraphLines_suffix true line rest)

/-- A block that holds the blocks behind its first line. -/
theorem metBetween_holding (hlines : Numbered last (line :: rest))
    (h : BlocksBetween last rest behind blocks)
    (hholding : ∀ high, line.number ≤ high → BlocksInOrder line.number high blocks →
      InOrder line.number high element.preorder) :
    MetBetween last (line :: rest) behind element.preorder := by
  have hbelow := hlines.number_lt h.left
  have hnext := firstNumber_cons last line rest
  have hline := hlines.number_eq
  refine ⟨h.left.trans (List.suffix_cons line rest), hline ▸ ?_⟩
  exact hholding _ (by omega) (h.order.mono (by omega) (Int.le_refl _))

/-- An item and what is attached to it. -/
theorem metBetween_item (hlines : Numbered last (line :: rest))
    (h : BlocksBetween last (itemTail rest).2 behind blocks) (text : Option Text)
    (checkbox : Option Checkbox) : MetBetween last (line :: rest) behind
      (Element.listItem { info := { lineno := line.number }, text, checkbox, blocks }).preorder :=
  metBetween_holding hlines (h.of_suffix (itemTail_suffix rest)) fun _ hhigh hblocks ↦
    inOrder_holding rfl rfl rfl hhigh hblocks

/-- The terms of an entry, its description and what is attached to that. -/
theorem metBetween_entry {delimiter : Text} {number : Int} {text : Option Text}
    {left : List Line} (hlines : Numbered last (line :: rest)) (hterm : IsTerm delimiter line)
    (hdescription : DescriptionMade (termRun delimiter (line :: rest)) number text left)
    (h : BlocksBetween last left behind blocks) (isKept : Bool) :
    MetBetween last (line :: rest) behind
      (preorderOfEntry {
        terms := (termRun delimiter (line :: rest)).terms
        description := if isKept then some { plainItem number text with blocks } else none }) := by
  obtain ⟨hterms, -⟩ := metBetween_termRun delimiter hlines
  obtain ⟨hlow, hhigh⟩ := between_descriptionMade hdescription hlines
  have hleft := hdescription.suffix
  have hmore := firstNumber_le last (h.left.trans hleft)
  have hbehind := firstNumber_le last h.left
  refine ⟨(h.left.trans hleft).trans hterms.left, ?_⟩
  cases isKept with
  | false => exact hterms.order.mono (Int.le_refl _) (by omega)
  | true =>
    obtain ⟨_, _, hshape⟩ := hterm
    obtain ⟨term, others, heq⟩ := List.exists_cons_of_ne_nil (terms_termRun_ne_nil hshape rest)
    have hfirst := hterms.order.within (.listItem term) (by
      rw [heq]
      cases term
      exact List.mem_cons_self)
    have hitem : InOrder number (firstNumber last behind - 1)
        (Element.listItem { plainItem number text with blocks }).preorder :=
      inOrder_holding rfl rfl rfl (by omega) (h.order.mono (by omega) (Int.le_refl _))
    exact hterms.order.append hitem (by omega) (by omega) (by omega)

theorem metBetween_list {items : List ListItem} (hlines : Numbered last (line :: rest))
    (h : MetBetween last (line :: rest) behind (preorderOfItems items)) (hsome : items ≠ [])
    (kind : ListKind) (marker : Text) :
    MetBetween last (line :: rest) behind (makeList line.number kind marker items).preorder :=
  ⟨h.left, hlines.number_eq ▸ inOrder_list (hlines.number_eq ▸ h.order) hsome⟩

theorem metBetween_descriptionList {entries : List DescriptionEntry}
    (hlines : Numbered last (line :: rest))
    (h : MetBetween last (line :: rest) behind (preorderOfEntries entries))
    (hsome : ∃ first others, entries = first :: others ∧ first.terms ≠ []) (delimiter : Text) :
    MetBetween last (line :: rest) behind
      (Element.descriptionList { lineno := line.number } delimiter entries).preorder :=
  ⟨h.left, hlines.number_eq ▸ inOrder_descriptionList (hlines.number_eq ▸ h.order) hsome⟩

/-- A table and the cells in it, which stand on the lines of its content. -/
theorem metBetween_table {separator : Char} {given : Attributes} {cells : List TableCell}
    (hlines : Numbered last (line :: rest))
    (h : ∀ {low high : Int},
      CellsLaid high low (gatherCells separator (tableContent separator rest)).2 →
        InOrder low high (preorderOfCells cells)) :
    MetBetween last (line :: rest) (behindTable separator rest) (makeTable line.number separator
      (tableContent separator rest) given cells).preorder := by
  have hbehind : behindTable separator rest <:+ rest := (splitAtClosing_suffix _ rest).1
  have hcontent : tableContent separator rest <+: rest := (splitAtClosing_suffix _ rest).2
  have hlength : (tableContent separator rest).length + (behindTable separator rest).length ≤
      rest.length := length_contentBefore_add_le (closesTable separator) rest
  have hlaid := cellsLaid_gatherCells separator
    ((hlines.of_suffix (List.suffix_cons line rest)).initial hcontent)
  have hstart : firstNumber (firstNumber last rest + (tableContent separator rest).length - 1)
      (tableContent separator rest) = firstNumber last rest := by
    rw [firstNumber]
    omega
  have hstop : firstNumber last rest + (tableContent separator rest).length - 1 ≤
      firstNumber last (behindTable separator rest) - 1 := by
    rw [firstNumber, firstNumber]
    omega
  have hbelow := hlines.number_lt hbehind
  have hfirst := firstNumber_cons last line rest
  have hline := hlines.number_eq
  have hlow : line.number ≤ firstNumber last rest +
      (gatherCells separator (tableContent separator rest)).1.length - 1 := by omega
  rw [hstart] at hlaid
  exact ⟨hbehind.trans (List.suffix_cons line rest), hline ▸
    inOrder_makeTable (by omega) ((h (hlaid.mono hlow)).mono (Int.le_refl _) hstop)⟩

/-- A cell that holds text stands on one of its own lines. -/
theorem inOrder_plainCell {raw : RawCell} {cell : TableCell} (hsome : raw.lines ≠ [])
    (h : CellOf commentMarker raw cell) (hplain : cell.inner = none) :
    InOrder raw.lineno (raw.lineno + raw.lines.length - 1) (preorderOfCell cell) := by
  obtain ⟨hlow, hhigh⟩ := lineno_dropBlankStart_within hsome
  rw [← (cellRead_of_cellOf h).lineno] at hlow hhigh
  rw [preorderOfCell_of_none hplain]
  exact inOrder_singleton hlow hhigh rfl

/-- A cell that holds a document stands on one of its own lines, and the document on the lines from
there on. -/
theorem inOrder_documentCell {raw : RawCell} {cell : TableCell} {info : ElementInfo}
    (hsome : raw.lines ≠ [])
    (hcell : CellOf commentMarker raw cell)
    (hinner : cell.inner = some { info, header := none, blocks })
    (hinnerStands : info.lineno = cell.info.lineno)
    (h : ∀ {last : Int}, Numbered last (cellLines commentMarker raw) →
      BlocksBetween last (cellLines commentMarker raw) behind blocks) :
    InOrder raw.lineno (raw.lineno + raw.lines.length - 1) (preorderOfCell cell) := by
  have hstands := (cellRead_of_cellOf hcell).lineno
  obtain ⟨hlow, hhigh⟩ := lineno_dropBlankStart_within hsome
  have hend := length_cellLines_le commentMarker raw
  obtain ⟨texts, htexts⟩ : ∃ texts, cellLines commentMarker raw =
      Line.classifyAll commentMarker cell.info.lineno texts := ⟨_, by rw [hstands]; rfl⟩
  rw [← hstands] at hlow hhigh hend
  rw [htexts] at hend h
  have hnumbers : cell.info.lineno + texts.length - 1 + 1 = cell.info.lineno + texts.length := by
    omega
  have hblocks := (h (numbered_classifyAll hnumbers)).order
  rw [firstNumber_classifyAll hnumbers] at hblocks
  rw [length_classifyAll] at hend
  have hstop : firstNumber (cell.info.lineno + texts.length - 1) behind - 1 ≤
      raw.lineno + raw.lines.length - 1 := by
    rw [firstNumber]
    omega
  have hdocument : InOrder cell.info.lineno (raw.lineno + raw.lines.length - 1)
      (Element.document { info, header := none, blocks }).preorder :=
    inOrder_holding rfl rfl hinnerStands hhigh (hblocks.mono (Int.le_refl _) hstop)
  rw [preorderOfCell_of_some hinner]
  exact InOrder.mono (.cons rfl hhigh .nil hdocument) hlow (Int.le_refl _)

theorem MetBetween.attach (h : MetBetween last lines behind element.preorder) :
    MetBetween last lines behind (metadata.attach element).preorder :=
  ⟨h.left, h.order.mapInfo fun _ ↦ rfl⟩

end Blocks

mutual

/-- The blocks of a container stand on the lines that they are made of, in order. -/
theorem BlocksMade.between {last : Int} {terminator : Option Text} {level : Option Nat}
    {metadata : Metadata} {blocks : List Element} {lines behind : List Line}
    (h : BlocksMade commentMarker terminator level metadata lines blocks behind)
    (hlines : Numbered last lines) : BlocksBetween last lines behind blocks := by
  match h with
  | .ended => exact blocksBetween_nil List.suffix_rfl
  | .closed _ => exact blocksBetween_nil (List.suffix_cons _ _)
  | .left _ => exact blocksBetween_nil List.suffix_rfl
  | .passed passes others =>
    exact (others.between (hlines.of_suffix passes.suffix)).of_suffix passes.suffix
  | .block _ first others =>
    have hfirst := first.between hlines
    exact hfirst.blocksBetween.append (others.between (hlines.of_suffix hfirst.left))
termination_by structural h

/-- A block starts on its first line, and everything in it stands on the lines that it is made
of. -/
theorem BlockMade.between {last : Int} {place : Place} {metadata : Metadata} {line : Line}
    {element : Element} {rest behind : List Line}
    (h : BlockMade commentMarker place metadata line rest element behind)
    (hlines : Numbered last (line :: rest)) :
    MetBetween last (line :: rest) behind element.preorder := by
  have hrest : Numbered last rest := hlines.of_suffix (List.suffix_cons line rest)
  match h with
  | .leaf made => exact (metBetween_of_isLeaf hlines made.isLeaf made.suffix).attach
  | .opened _ _ _ read =>
    refine (metBetween_holding hlines (read.between hrest) fun high hhigh hblocks ↦ ?_).attach
    exact inOrder_holding rfl rfl rfl hhigh hblocks
  | .delimited _ _ read =>
    refine (metBetween_holding hlines (read.between hrest) fun high hhigh hblocks ↦ ?_).attach
    exact inOrder_makeDelimited hhigh hblocks
  | .list shape read =>
    exact (metBetween_list hlines (read.between hlines) (read.ne_nil ⟨_, _, _, shape⟩) _ _).attach
  | .descriptionList shape read =>
    exact (metBetween_descriptionList hlines (read.between hlines)
      (read.exists_term ⟨_, _, shape⟩) _).attach
  | .table _ _ read => exact (metBetween_table hlines fun hlaid ↦ read.inOrder hlaid).attach
termination_by structural h

/-- The items of a list, each before what is attached to it, stand on the lines that they are made
of. -/
theorem ItemsMade.between {last : Int} {markers : List Text} {marker : Text}
    {items : List ListItem} {lines behind : List Line}
    (h : ItemsMade commentMarker markers marker lines items behind)
    (hlines : Numbered last lines) :
    MetBetween last lines behind (preorderOfItems items) := by
  match h with
  | .ended _ => exact metBetween_nil
  | .item here shape attached others =>
    have hhere := here ▸ significant_suffix _
    have hnumbered := hlines.of_suffix hhere
    have hattached := attached.between (hnumbered.of_suffix
      ((itemTail_suffix _).trans (List.suffix_cons _ _)))
    have hitem := metBetween_item hnumbered hattached
    have hleft := (hitem none none).left
    exact ((hitem _ _).append (others.between (hnumbered.of_suffix hleft))).of_suffix hhere
termination_by structural h

/-- What is attached to an item stands on the lines that it is made of. -/
theorem AttachmentsMade.between {last : Int} {markers : List Text} {blocks : List Element}
    {lines behind : List Line} (h : AttachmentsMade commentMarker markers lines blocks behind)
    (hlines : Numbered last lines) : BlocksBetween last lines behind blocks := by
  match h with
  | .ended _ => exact blocksBetween_nil List.suffix_rfl
  | .attached shape block others =>
    have hblock := block.between (hlines.of_suffix (List.suffix_cons _ _))
    have hothers := others.between (hlines.of_suffix (hblock.left.trans (List.suffix_cons _ _)))
    exact (hblock.append hothers).of_suffix (List.suffix_cons _ _)
  | .list here shape fresh read others =>
    have hhere := here ▸ significant_suffix _
    have hnumbered := hlines.of_suffix hhere
    have hitems := read.between hnumbered
    have hlist := metBetween_list hnumbered hitems (read.ne_nil ⟨_, _, _, shape⟩)
    have hothers := others.between (hnumbered.of_suffix hitems.left)
    exact ((hlist _ _).blocksBetween.append hothers).of_suffix hhere
  | .paragraph here _ others =>
    have hhere := here ▸ significant_suffix _
    have hnumbered := hlines.of_suffix hhere
    have hparagraph := metBetween_paragraph hnumbered
    have hothers := others.between (hnumbered.of_suffix hparagraph.left)
    exact (hparagraph.blocksBetween.append hothers).of_suffix hhere
termination_by structural h

theorem AttachedMade.between {last : Int} {metadata : Metadata} {found : Option Element}
    {lines behind : List Line} (h : AttachedMade commentMarker metadata lines found behind)
    (hlines : Numbered last lines) : BlocksBetween last lines behind found.toList := by
  match h with
  | .ended => exact blocksBetween_nil List.suffix_rfl
  | .passed passes more =>
    exact (more.between (hlines.of_suffix passes.suffix)).of_suffix passes.suffix
  | .block block => exact (block.between hlines).blocksBetween
termination_by structural h

/-- The entries of a description list, the terms of each before its description, stand on the lines
that they are made of. -/
theorem EntriesMade.between {last : Int} {delimiter : Text} {entries : List DescriptionEntry}
    {lines behind : List Line} (h : EntriesMade commentMarker delimiter lines entries behind)
    (hlines : Numbered last lines) :
    MetBetween last lines behind (preorderOfEntries entries) := by
  match h with
  | .ended _ => exact metBetween_nil
  | .entry here shape description attached others =>
    have hhere := here ▸ significant_suffix _
    have hnumbered := hlines.of_suffix hhere
    have hleft := description.suffix.trans (termRun_suffix _ _)
    have hattached := attached.between (hnumbered.of_suffix hleft)
    have hentry := metBetween_entry hnumbered ⟨_, _, shape⟩ description hattached
    have hmiddle := hattached.left.trans hleft
    exact ((hentry _).append (others.between (hnumbered.of_suffix hmiddle))).of_suffix hhere
termination_by structural h

/-- What is attached to a description stands on the lines that it is made of. -/
theorem DescriptionAttachmentsMade.between {last : Int} {delimiter : Text} {blocks : List Element}
    {lines behind : List Line}
    (h : DescriptionAttachmentsMade commentMarker delimiter lines blocks behind)
    (hlines : Numbered last lines) : BlocksBetween last lines behind blocks := by
  match h with
  | .ended => exact blocksBetween_nil List.suffix_rfl
  | .attached shape block others =>
    have hblock := block.between (hlines.of_suffix (List.suffix_cons _ _))
    have hothers := others.between (hlines.of_suffix (hblock.left.trans (List.suffix_cons _ _)))
    exact (hblock.append hothers).of_suffix (List.suffix_cons _ _)
  | .list here shape read others =>
    have hhere := here ▸ significant_suffix _
    have hnumbered := hlines.of_suffix hhere
    have hitems := read.between hnumbered
    have hlist := metBetween_list hnumbered hitems (read.ne_nil ⟨_, _, _, shape⟩)
    have hothers := others.between (hnumbered.of_suffix hitems.left)
    exact ((hlist _ _).blocksBetween.append hothers).of_suffix hhere
  | .descriptionList here shape longer read others =>
    have hhere := here ▸ significant_suffix _
    have hnumbered := hlines.of_suffix hhere
    have hentries := read.between hnumbered
    have hlist := metBetween_descriptionList hnumbered hentries (read.exists_term ⟨_, _, shape⟩)
    have hothers := others.between (hnumbered.of_suffix hentries.left)
    exact ((hlist _).blocksBetween.append hothers).of_suffix hhere
termination_by structural h

/-- Cells stand on their own lines, and the document inside a cell on the lines of that cell. -/
theorem CellsMade.inOrder {raws : List RawCell} {cells : List TableCell} {low high : Int}
    (h : CellsMade commentMarker raws cells) (hlaid : CellsLaid high low raws) :
    InOrder low high (preorderOfCells cells) := by
  match h with
  | .nil => exact inOrder_nil
  | .plain cellOf plain others =>
    obtain ⟨hlow, hsome, hhigh, hrest⟩ := hlaid
    have hlines := List.length_pos_iff.mpr hsome
    exact (inOrder_plainCell hsome cellOf plain).append (others.inOrder hrest) (by omega)
      (Int.le_refl _) hhigh |>.mono hlow (Int.le_refl _)
  | .document cellOf inner innerStands read others =>
    obtain ⟨hlow, hsome, hhigh, hrest⟩ := hlaid
    have hlines := List.length_pos_iff.mpr hsome
    have hcell := inOrder_documentCell hsome cellOf inner innerStands fun hnumbered ↦
      read.between hnumbered
    exact (hcell.append (others.inOrder hrest) (by omega) (Int.le_refl _) hhigh).mono hlow
      (Int.le_refl _)
termination_by structural h

end

section Documents

variable {text : Text} {document : Document}

/-- A preamble is met before the blocks in it, on the line of the first of them. -/
theorem blocksInOrder_wrapPreamble (hasHeader : Bool) {blocks : List Element}
    (h : BlocksInOrder low high blocks) :
    BlocksInOrder low high (wrapPreamble hasHeader blocks) := by
  rcases wrapPreamble_cases hasHeader blocks with heq | ⟨first, rest, sections, rfl, -, heq⟩
  · rwa [heq]
  · rw [heq]
    exact h.wrap rfl rfl rfl

/-- The authors stand on the first line behind the title. -/
theorem metBetween_authorLines {lines : List Line} (hlines : Numbered last lines) :
    MetBetween last lines (authorLines lines).2.2 ((authorLines lines).1.map .author) := by
  cases lines with
  | nil => exact metBetween_nil
  | cons first rest =>
    have hauthors : ∀ behind, behind <:+ rest →
        MetBetween last (first :: rest) behind ((authorsOf first).map .author) := by
      intro behind hbehind
      have hbelow := hlines.number_lt hbehind
      refine ⟨hbehind.trans (List.suffix_cons first rest), ?_⟩
      refine (inOrder_of_same_line first.number fun element helement ↦ ?_).mono
        (Int.le_of_eq hlines.number_eq.symm) (by omega)
      obtain ⟨author, hauthor, rfl⟩ := List.mem_map.mp helement
      obtain ⟨entry, -, hentry⟩ := List.mem_filterMap.mp hauthor
      obtain ⟨parts, -, rfl⟩ := Option.map_eq_some_iff.mp hentry
      exact ⟨rfl, rfl⟩
    rw [authorLines.eq_def]
    dsimp only
    split
    · cases rest with
      | nil => exact hauthors _ List.suffix_rfl
      | cons second behind =>
        dsimp only
        split
        · exact hauthors _ (List.suffix_cons second behind)
        · exact hauthors _ List.suffix_rfl
    · exact metBetween_nil

/-- The header and the authors in it stand on the lines before the ones that are left. -/
theorem metBetween_readHeader {s : ReadState} (hlines : Numbered last s.lines) :
    Comes readHeader s fun head behind ↦
      MetBetween last s.lines behind (preorderOfHeader (head.map (·.header))) := by
  rw [readHeader]
  refine Runs.bind_of_eq (x := get) rfl ?_
  refine (runs_scanHeader none .empty s.lines s).bind fun metadata scanned hscanned ↦ ?_
  refine Runs.bind_of_eq (x := get) rfl ?_
  cases hleft : scanned.lines with
  | nil => exact metBetween_nil
  | cons line rest =>
    rw [hleft] at hscanned
    have hnumbered := hlines.of_suffix hscanned
    have hauthors := metBetween_authorLines (hnumbered.of_suffix (List.suffix_cons line rest))
    dsimp only
    split
    · next title hshape =>
      refine (runs_readHeaderEntries _ scanned).bind fun _ final hfinal ↦ runs_pure ?_
      have hentries : final.lines <:+ (authorLines rest).2.2 := hfinal
      have hleftover := hentries.trans hauthors.left
      have hbelow := hnumbered.number_lt hleftover
      have hnext := firstNumber_cons last line rest
      have hline := hnumbered.number_eq
      refine MetBetween.of_suffix ⟨hleftover.trans (List.suffix_cons line rest), ?_⟩ hscanned
      refine hline ▸ .cons rfl (by omega) .nil (hauthors.order.mono (by omega) ?_)
      have hbehind := firstNumber_le last hentries
      omega
    · exact metBetween_nil

/-- The elements of a document, in the order in which they are met, stand on lines of the text that
never go back, and the blocks of each container on lines that always go on. -/
theorem documentOrder_of_ofText (h : (Document.ofText commentMarker text).1 = .ok document) :
    InOrder 1 text.lines.length (Element.document document).preorder := by
  obtain ⟨head, begun, before, blocks, behind, hbegun, hhead, hread, hheader, hdocument⟩ :=
    exists_blocksMade_of_ofText h
  have hnumbers : (text.lines.length : Int) + 1 = 1 + text.lines.length := Int.add_comm _ _
  have hlines : Numbered text.lines.length begun.lines := hbegun ▸ numbered_classifyAll hnumbers
  have hstart : firstNumber text.lines.length begun.lines = 1 :=
    hbegun ▸ firstNumber_classifyAll hnumbers
  have hhead := (metBetween_readHeader hlines).of_eq_ok hhead
  have hbody := hread.between (hlines.of_suffix hhead.left)
  have hfirst := firstNumber_le text.lines.length hhead.left
  have hlast := firstNumber_le text.lines.length hbody.left
  have hend : firstNumber text.lines.length behind - 1 ≤ text.lines.length := by
    rw [firstNumber]
    omega
  have hblocks : BlocksInOrder (firstNumber text.lines.length before.lines) text.lines.length
      document.blocks :=
    hdocument ▸ blocksInOrder_wrapPreamble _ (hbody.order.mono (Int.le_refl _) hend)
  have hpositive := List.length_pos_iff.mpr (Text.lines_ne_nil text)
  have hinside : InOrder 1 text.lines.length
      (preorderOfHeader document.header ++ preorderOf document.blocks) := by
    rw [hheader]
    rw [hstart] at hfirst
    exact (hstart ▸ hhead.order).append hblocks.visited (by omega) (by omega) (by omega)
  have hline := lineno_document_of_ofText h
  obtain ⟨info, header, inner⟩ := document
  exact .cons hline (by omega) hblocks.rising hinside

/-- Two authors share a line, and so do a term and its description; of two cells on one line, each
holds a document, and that of the second one goes on below. -/
theorem documentOrder_sharedLines :
    let text : Text :=
      "= T\nA; B\n\np\n\n== S\n* x\n+\ny\n\nt:: d\n\n|===\na|q a|r\n\ns\n|===".toList
    ∃ document, (Document.ofText "//".toList text).1 = .ok document ∧
      (Element.document document).preorder.map (·.lineno) =
        [1, 1, 2, 2, 4, 4, 6, 7, 7, 9, 11, 11, 11, 13, 14, 14, 14, 14, 14, 14, 16] ∧
      InOrder 1 text.lines.length (Element.document document).preorder := by
  intro text
  obtain ⟨document, hdocument, hlines⟩ := exists_of_okAnd (show okAnd
      (Document.ofText "//".toList text).1 (fun document ↦
        decide ((Element.document document).preorder.map (·.lineno) =
          [1, 1, 2, 2, 4, 4, 6, 7, 7, 9, 11, 11, 11, 13, 14, 14, 14, 14, 14, 14, 16])) = true by
    decide +kernel)
  exact ⟨document, hdocument, of_decide_eq_true hlines, documentOrder_of_ofText hdocument⟩

end Documents

end AsciidocSpans.Blocks
