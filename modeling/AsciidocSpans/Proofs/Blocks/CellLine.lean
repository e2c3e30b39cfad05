import AsciidocSpans.Proofs.Blocks.CellLayout
import AsciidocSpans.Proofs.Text.Trimmed

/-!
How a line of a table is cut into cells. It is cut at the separators that no backslash stands
before, and every such separator begins a cell (`separatorColumns`, `cutColumns_cutCells`). Behind
the content of a cell comes the next separator, or white space of one character and the specifier
of the next cell (`splitNextSpec_eq`); a specifier holds no white space, so there is only one place
where it may begin. What stands before the first separator is a specifier or goes on with the cell
of an earlier line.

So nothing of a line is lost but which white space stands before a specifier: `writeCells` puts the
cells together again, and `cutsFaithfully_splitCellLine` says how the line and what is put together
compare.
-/

set_option autoImplicit false
set_option relaxedAutoImplicit false

namespace AsciidocSpans.Blocks

open Text

variable {separator : Char} {text : Text}

/-! ### Separators -/

section Separators

/-- Whether the character at an index separates cells: it is the separator, and no backslash stands
before it. The state is whether the character before the text is a backslash. -/
def separatesAt (separator : Char) (escaped : Bool) (text : Text) : Nat → Bool
  | 0 => text[0]? == some separator && !escaped
  | i + 1 => text[i + 1]? == some separator && text[i]? != some '\\'

/-- The columns of a line at which a separator stands that no backslash stands before. -/
def separatorColumns (separator : Char) (text : Text) : List Nat :=
  (List.range text.length).filter (separatesAt separator false text)

/-- The columns between the parts of a line, of which the first one starts at a column. -/
def cutColumns (column : Nat) : List Text → List Nat
  | part :: next :: rest =>
    (column + part.length) :: cutColumns (column + part.length + 1) (next :: rest)
  | _ => []

theorem separatesAt_cons_succ (escaped : Bool) (c : Char) (rest : Text) (i : Nat) :
    separatesAt separator escaped (c :: rest) (i + 1) =
      separatesAt separator (c == '\\') rest i := by
  cases i with
  | zero => simp [separatesAt, bne]
  | succ j => simp [separatesAt]

/-- The separators of a line are those behind its first character, and that character if it is
one. -/
theorem filter_separatesAt_cons (escaped : Bool) (c : Char) (rest : Text) :
    (List.range (c :: rest).length).filter (separatesAt separator escaped (c :: rest)) =
      (if c = separator ∧ escaped = false then [0] else []) ++
        ((List.range rest.length).filter (separatesAt separator (c == '\\') rest)).map
          Nat.succ := by
  have hbehind : separatesAt separator escaped (c :: rest) ∘ Nat.succ =
      separatesAt separator (c == '\\') rest := by
    ext i
    exact separatesAt_cons_succ escaped c rest i
  rw [List.length_cons, List.range_succ_eq_map, List.filter_cons, List.filter_map, hbehind]
  by_cases h : c = separator ∧ escaped = false
  · simp [separatesAt, h]
  · rw [if_neg h, if_neg]
    · rfl
    · simpa [separatesAt] using h

theorem cutColumns_cons_cons (column : Nat) (c : Char) (part : Text) (others : List Text) :
    cutColumns column ((c :: part) :: others) = cutColumns (column + 1) (part :: others) := by
  cases others with
  | nil => rfl
  | cons next rest =>
    simp only [cutColumns, List.length_cons]
    congr 1
    · omega
    · congr 1
      omega

/-- A line is cut at its separators and nowhere else. -/
theorem cutColumns_cutCells (separator : Char) (escaped : Bool) (text : Text) (column : Nat) :
    cutColumns column (cutCells separator escaped text) =
      ((List.range text.length).filter (separatesAt separator escaped text)).map (column + ·) := by
  induction text generalizing escaped column with
  | nil => rfl
  | cons c rest ih =>
    have hparts := ih (c == '\\') (column + 1)
    obtain ⟨part, others, hrest⟩ :=
      List.exists_cons_of_ne_nil (cutCells_ne_nil separator (c == '\\') rest)
    rw [hrest] at hparts
    rw [filter_separatesAt_cons, List.map_append, List.map_map, cutCells, hrest]
    have hshift : (column + ·) ∘ Nat.succ = (column + 1 + ·) := by
      ext i
      simp only [Function.comp_apply]
      omega
    rw [hshift, ← hparts]
    by_cases h : c = separator ∧ escaped = false
    · rw [if_pos h, if_pos h]
      rfl
    · rw [if_neg h, if_neg h, cutColumns_cons_cons]
      rfl

/-- The cells of the parts of a line stand right behind the places at which it is cut. -/
theorem column_cellSegments (column : Nat) (spec part : Text) (parts : List Text) :
    (cellSegments column spec (part :: parts)).map (·.column) =
      column :: (cutColumns column (part :: parts)).map (· + 1) := by
  induction parts generalizing column spec part with
  | nil => rfl
  | cons next others ih =>
    simp only [cellSegments, cutColumns, List.map_cons]
    rw [ih]

end Separators

/-! ### Specifiers -/

section Specifiers

/-- A text is a cell specifier, and it says something. -/
def IsSpec (text : Text) : Prop :=
  text ≠ [] ∧ (CellSpec.parse? text).isSome

/-- A text ends with a cell specifier behind white space. -/
def EndsInSpec (text : Text) : Prop :=
  ∃ before blank spec, text = before ++ blank :: spec ∧ isBlank blank ∧ IsSpec spec

/-- The text behind a start that holds no white space. -/
def BehindDark (text rest : Text) : Prop :=
  ∃ start, text = start ++ rest ∧ ∀ c ∈ start, isBlank c = false

theorem behindDark_refl (text : Text) : BehindDark text text :=
  ⟨[], rfl, by simp⟩

theorem BehindDark.trans {middle rest : Text} (h : BehindDark text middle)
    (hrest : BehindDark middle rest) : BehindDark text rest := by
  obtain ⟨start, rfl, hstart⟩ := h
  obtain ⟨further, rfl, hfurther⟩ := hrest
  refine ⟨start ++ further, by simp, fun c hc ↦ ?_⟩
  rcases List.mem_append.mp hc with hc | hc
  · exact hstart c hc
  · exact hfurther c hc

theorem behindDark_cons {c : Char} (hc : isBlank c = false) (rest : Text) :
    BehindDark (c :: rest) rest :=
  ⟨[c], rfl, by simpa using hc⟩

theorem behindDark_digits (text : Text) : BehindDark text (text.dropWhile isDecimal) :=
  ⟨text.takeWhile isDecimal, (List.takeWhile_append_dropWhile).symm,
    fun _ hc ↦ isBlank_of_isDecimal (List.mem_takeWhile_imp hc)⟩

theorem isBlank_of_isAlignment {c : Char} (h : CellSpec.isAlignment c = true) :
    isBlank c = false := by
  simp only [CellSpec.isAlignment, Bool.or_eq_true, beq_iff_eq] at h
  rcases h with (rfl | rfl) | rfl <;> decide

theorem behindDark_dropRepetition (text : Text) :
    BehindDark text (CellSpec.dropRepetition text) := by
  rw [CellSpec.dropRepetition]
  split
  · next rest _ hrest =>
    exact (behindDark_digits text).trans (hrest ▸ behindDark_cons (by decide) rest)
  · exact behindDark_refl text

theorem behindDark_dropRowSpan (text : Text) : BehindDark text (CellSpec.dropRowSpan text) := by
  rw [CellSpec.dropRowSpan.eq_def]
  split
  · next rest =>
    split
    · exact behindDark_refl _
    · exact (behindDark_cons (by decide) rest).trans (behindDark_digits rest)
  · exact behindDark_refl _

theorem behindDark_takeSpan (text : Text) : BehindDark text (CellSpec.takeSpan text).2 := by
  rw [CellSpec.takeSpan]
  split
  · next rest hrest =>
    exact ((behindDark_digits text).trans (behindDark_dropRowSpan _)).trans
      (hrest ▸ behindDark_cons (by decide) rest)
  · exact behindDark_refl text

theorem behindDark_dropHorizontal (text : Text) :
    BehindDark text (CellSpec.dropHorizontal text) := by
  cases text with
  | nil => exact behindDark_refl _
  | cons c rest =>
    rw [CellSpec.dropHorizontal]
    split
    · next hc => exact behindDark_cons (isBlank_of_isAlignment hc) rest
    · exact behindDark_refl _

theorem behindDark_dropVertical (text : Text) : BehindDark text (CellSpec.dropVertical text) := by
  rw [CellSpec.dropVertical.eq_def]
  split
  · next c rest =>
    split
    · next hc =>
      exact (behindDark_cons (by decide) _).trans (behindDark_cons (isBlank_of_isAlignment hc) rest)
    · exact behindDark_refl _
  · exact behindDark_refl _

/-- A cell specifier holds no white space. -/
theorem isBlank_of_mem_spec (h : (CellSpec.parse? text).isSome) :
    ∀ c ∈ text, isBlank c = false := by
  have hread : BehindDark text (CellSpec.dropVertical (CellSpec.dropHorizontal
      (CellSpec.takeSpan (CellSpec.dropRepetition text)).2)) :=
    (((behindDark_dropRepetition text).trans (behindDark_takeSpan _)).trans
      (behindDark_dropHorizontal _)).trans (behindDark_dropVertical _)
  have hletter : ∀ letter, CellSpec.styleLetters.contains letter = true →
      isBlank letter = false := by
    intro letter hletter
    have hall : CellSpec.styleLetters.all fun letter ↦ !isBlank letter := by decide
    simpa using List.all_eq_true.mp hall letter (List.contains_iff_mem.mp hletter)
  rcases hspan : CellSpec.takeSpan (CellSpec.dropRepetition text) with ⟨colspan, afterSpan⟩
  rw [CellSpec.parse?, hspan] at h
  rw [hspan] at hread
  dsimp only at h hread
  obtain ⟨start, rfl, hdark⟩ := hread
  generalize CellSpec.dropVertical (CellSpec.dropHorizontal afterSpan) = kept at h ⊢
  intro c hmem
  rcases List.mem_append.mp hmem with hc | hc
  · exact hdark c hc
  · split at h
    · cases hc
    · next letter =>
      split at h
      · next hstyle => exact List.mem_singleton.mp hc ▸ hletter letter hstyle
      · cases h
    · cases h

/-- The specifier of the next cell is what follows the last white space of a segment, if that is a
specifier; otherwise the segment does not end in one. -/
theorem splitNextSpec_eq (segment : Text) :
    (splitNextSpec segment = (segment, []) ∧ ¬ EndsInSpec segment) ∨
      ∃ before blank spec, splitNextSpec segment = (before, spec) ∧
        segment = before ++ blank :: spec ∧ isBlank blank ∧ IsSpec spec := by
  have hcut : segment = (segment.reverse.dropWhile (!isBlank ·)).reverse ++
      (segment.reverse.takeWhile (!isBlank ·)).reverse := by
    rw [← List.reverse_append, List.takeWhile_append_dropWhile, List.reverse_reverse]
  -- Whatever stands behind white space without any itself is the last word of the segment.
  have hlast : ∀ before blank spec, segment = before ++ blank :: spec → isBlank blank = true →
      (CellSpec.parse? spec).isSome →
        segment.reverse.takeWhile (!isBlank ·) = spec.reverse ∧
          segment.reverse.dropWhile (!isBlank ·) = blank :: before.reverse := by
    rintro before blank spec rfl hblank hspec
    have hdark : ∀ c ∈ spec.reverse, (!isBlank c) = true := fun c hc ↦ by
      simp [isBlank_of_mem_spec hspec c (List.mem_reverse.mp hc)]
    rw [List.reverse_append, List.reverse_cons, List.append_assoc, List.singleton_append,
      List.takeWhile_append_of_pos hdark, List.dropWhile_append_of_pos hdark]
    simp [hblank]
  rw [splitNextSpec]
  split
  · next blank before hbefore =>
    have hblank : isBlank blank = true := by
      have hnot := List.head?_dropWhile_not (!isBlank ·) segment.reverse
      rw [hbefore] at hnot
      simpa using hnot
    split
    · next hspec =>
      refine .inr ⟨before.reverse, blank, _, rfl, ?_, hblank, hspec⟩
      rw [hbefore, List.reverse_cons, List.append_assoc, List.singleton_append] at hcut
      exact hcut
    · next hnone =>
      refine .inl ⟨rfl, ?_⟩
      rintro ⟨start, gap, spec, hsegment, hgap, hspec⟩
      refine hnone ?_
      rw [(hlast start gap spec hsegment hgap hspec.2).1, List.reverse_reverse]
      exact hspec
  · next hnil =>
    refine .inl ⟨rfl, ?_⟩
    rintro ⟨start, gap, spec, hsegment, hgap, hspec⟩
    rw [(hlast start gap spec hsegment hgap hspec.2).2] at hnil
    cases hnil

end Specifiers

/-! ### Cells -/

section Cells

/-- A stretch of a line between two columns. -/
def stretch (line : Text) (first last : Nat) : Text :=
  (line.take last).drop first

/-- A cell is followed by another one: right behind its content stands the separator of the next
cell, or one character of white space and the specifier of the next cell stand between. -/
structure FollowedBy (line : Text) (cell next : CellSegment) : Prop where
  order : cell.column + cell.content.length < next.column
  bare : next.spec = [] →
    stretch line (cell.column + cell.content.length) (next.column - 1) = [] ∧
      next.column = cell.column + cell.content.length + 1 ∧ ¬ EndsInSpec cell.content
  specified : next.spec ≠ [] → IsSpec next.spec ∧ ∃ blank, isBlank blank ∧
    stretch line (cell.column + cell.content.length) (next.column - 1) = blank :: next.spec

/-- What some cells are written as, from the separator of the first of them on; white space before a
specifier is a space. -/
def writeCells (separator : Char) : List CellSegment → Text
  | [] => []
  | [last] => separator :: last.content
  | cell :: next :: rest =>
    separator :: cell.content ++ (if next.spec = [] then [] else ' ' :: next.spec) ++
      writeCells separator (next :: rest)

/-- Two texts are the same but for white space that is a space in the second one. -/
def SameButBlanks (line shown : Text) : Prop :=
  List.Forall₂ (fun c d ↦ c = d ∨ isBlank c ∧ d = ' ') line shown

theorem sameButBlanks_refl (line : Text) : SameButBlanks line line :=
  List.forall₂_same.mpr fun _ _ ↦ .inl rfl

/-- What stands between two other parts of a line. -/
theorem stretch_of_append {line before part behind : Text} {first last : Nat}
    (hline : line = before ++ part ++ behind) (hfirst : first = before.length)
    (hlast : last = before.length + part.length) : stretch line first last = part := by
  subst hline hfirst hlast
  simp [stretch, List.take_append]

theorem exists_cellSegments_cons (column : Nat) (spec part : Text) (parts : List Text) :
    ∃ content rest, cellSegments column spec (part :: parts) = ⟨column, spec, content⟩ :: rest := by
  cases parts with
  | nil => exact ⟨part, [], rfl⟩
  | cons next others => exact ⟨_, _, rfl⟩

/-- Cells are laid on a line one behind the other up to its end, and they can be written again from
their contents and specifiers. -/
structure SegmentsLaid (separator : Char) (line behind : Text) (cells : List CellSegment) :
    Prop where
  contents : ∀ cell ∈ cells,
    stretch line cell.column (cell.column + cell.content.length) = cell.content
  followed : cells.IsChain (FollowedBy line)
  ends : ∀ last ∈ cells.getLast?, last.column + last.content.length = line.length
  shown : SameButBlanks (separator :: behind) (writeCells separator cells)

/-- A part of a line is the content of a cell, and what stands between that and the next separator:
the specifier of the next cell behind one character of white space, if there is one. -/
theorem exists_splitNextSpec (part : Text) : ∃ content own gap,
    splitNextSpec part = (content, own) ∧ part = content ++ gap ∧
    (own = [] → gap = [] ∧ ¬ EndsInSpec content) ∧
    (own ≠ [] → IsSpec own ∧ ∃ blank, isBlank blank ∧ gap = blank :: own) := by
  rcases splitNextSpec_eq part with
    ⟨hsplit, hends⟩ | ⟨content, blank, own, hsplit, hpart, hblank, hown⟩
  · exact ⟨part, [], [], hsplit, by simp, fun _ ↦ ⟨rfl, hends⟩, fun h ↦ absurd rfl h⟩
  · exact ⟨content, own, blank :: own, hsplit, hpart, fun h ↦ absurd h hown.1,
      fun _ ↦ ⟨hown, blank, hblank, rfl⟩⟩

/-- The only part of a line is a cell that is laid on it. -/
theorem segmentsLaid_singleton {line : Text} (before spec part : Text)
    (hline : line = before ++ part) :
    SegmentsLaid separator line part [⟨before.length, spec, part⟩] := by
  have hpart : line = before ++ part ++ [] := by simp [hline]
  constructor
  · intro cell hcell
    rw [List.mem_singleton] at hcell
    subst hcell
    exact stretch_of_append hpart rfl rfl
  · exact .singleton _
  · intro last hlast
    rw [List.getLast?_singleton, Option.mem_some_iff] at hlast
    subst hlast
    simp [hpart]
  · exact sameButBlanks_refl _

/-- A cell may be laid before others: its content stands on the line, and between it and the next
separator there is nothing, or the specifier of the first of the others behind white space. -/
theorem SegmentsLaid.cons {line before content gap own nextContent behind : Text} {column : Nat}
    {spec : Text} {rest : List CellSegment}
    (h : SegmentsLaid separator line behind (⟨column, own, nextContent⟩ :: rest))
    (hline : line = before ++ content ++ gap ++ separator :: behind)
    (hcolumn : column = before.length + content.length + gap.length + 1)
    (hbare : own = [] → gap = [] ∧ ¬ EndsInSpec content)
    (hspecified : own ≠ [] → IsSpec own ∧ ∃ blank, isBlank blank ∧ gap = blank :: own) :
    SegmentsLaid separator line (content ++ gap ++ separator :: behind)
      (⟨before.length, spec, content⟩ :: ⟨column, own, nextContent⟩ :: rest) := by
  have hcontent : stretch line before.length (before.length + content.length) = content :=
    stretch_of_append (hline.trans (List.append_assoc _ _ _)) rfl rfl
  have hgap : stretch line (before.length + content.length) (column - 1) = gap := by
    refine stretch_of_append hline (by simp) ?_
    simp only [List.length_append]
    omega
  constructor
  · exact List.forall_mem_cons.mpr ⟨hcontent, h.contents⟩
  · refine List.isChain_cons_cons.mpr ⟨?_, h.followed⟩
    constructor
    · dsimp only
      omega
    · intro hown
      obtain ⟨hnil, hends⟩ := hbare hown
      subst hnil
      exact ⟨hgap, by simpa using hcolumn, hends⟩
    · intro hown
      obtain ⟨hspec, blank, hblank, hgapped⟩ := hspecified hown
      exact ⟨hspec, blank, hblank, hgap.trans hgapped⟩
  · intro last hlast
    rw [List.getLast?_cons_cons] at hlast
    exact h.ends last hlast
  · have hshown : SameButBlanks gap (if own = [] then [] else ' ' :: own) := by
      by_cases hown : own = []
      · rw [if_pos hown, (hbare hown).1]
        exact .nil
      · obtain ⟨-, blank, hblank, rfl⟩ := hspecified hown
        rw [if_neg hown]
        exact .cons (.inr ⟨hblank, rfl⟩) (sameButBlanks_refl own)
    have hcell : SameButBlanks (separator :: content ++ gap)
        (separator :: content ++ if own = [] then [] else ' ' :: own) :=
      List.rel_append (sameButBlanks_refl _) hshown
    have hwhole : separator :: (content ++ gap ++ separator :: behind) =
        (separator :: content ++ gap) ++ separator :: behind := by
      simp
    rw [hwhole, writeCells]
    exact List.rel_append hcell h.shown

/-- The cells of the parts of a line are laid on it. -/
theorem segmentsLaid_cellSegments {line : Text} (before spec part : Text) (parts : List Text)
    (hline : line = before ++ joinWith [separator] (part :: parts)) :
    SegmentsLaid separator line (joinWith [separator] (part :: parts))
      (cellSegments before.length spec (part :: parts)) := by
  induction parts generalizing before spec part with
  | nil => exact segmentsLaid_singleton before spec part hline
  | cons next others ih =>
    obtain ⟨content, own, gap, hsplit, rfl, hbare, hspecified⟩ := exists_splitNextSpec part
    have hjoined : joinWith [separator] ((content ++ gap) :: next :: others) =
        content ++ gap ++ separator :: joinWith [separator] (next :: others) := by
      simp [joinWith]
    rw [hjoined] at hline ⊢
    have hnext : line =
        (before ++ (content ++ gap) ++ [separator]) ++ joinWith [separator] (next :: others) := by
      rw [hline]
      simp
    obtain ⟨nextContent, rest, hcells⟩ := exists_cellSegments_cons
      (before.length + (content ++ gap).length + 1) own next others
    have hlaid : SegmentsLaid separator line (joinWith [separator] (next :: others))
        (⟨before.length + (content ++ gap).length + 1, own, nextContent⟩ :: rest) := by
      rw [← hcells]
      simpa [Nat.add_assoc] using ih (before ++ (content ++ gap) ++ [separator]) own next hnext
    have hall : cellSegments before.length spec ((content ++ gap) :: next :: others) =
        ⟨before.length, spec, content⟩ ::
          ⟨before.length + (content ++ gap).length + 1, own, nextContent⟩ :: rest := by
      simp only [cellSegments, hsplit, hcells]
    rw [hall]
    refine hlaid.cons (by simp [hline]) ?_ hbare hspecified
    rw [List.length_append, ← Nat.add_assoc]

end Cells

/-! ### Lines -/

section Lines

/-- The specifier of the first of some cells. -/
def leadingSpec (cells : List CellSegment) : Text :=
  (cells.head?.map (·.spec)).getD []

/-- A line is cut into cells without loss. There is one cell for each separator that no backslash
stands before, and it starts right behind it; the contents of the cells stand on the line, and
between one and the next stands nothing but the specifier of the next cell behind one character of
white space, if that has one. What stands before the first separator is the first cell's specifier
or goes on with an earlier cell, as does a line without separators. So the line can be put together
again, but for the white space before a specifier and behind the leading one. -/
structure CutsFaithfully (separator : Char) (line continuation : Text) (cells : List CellSegment) :
    Prop where
  columns : cells.map (·.column) = (separatorColumns separator line).map (· + 1)
  contents : ∀ cell ∈ cells,
    stretch line cell.column (cell.column + cell.content.length) = cell.content
  followed : cells.IsChain (FollowedBy line)
  ends : ∀ last ∈ cells.getLast?, last.column + last.content.length = line.length
  leads : ∀ first ∈ cells.head?,
    if (CellSpec.parse? (trim (line.take (first.column - 1)))).isSome then
      first.spec = trim (line.take (first.column - 1)) ∧ continuation = []
    else first.spec = [] ∧ continuation = line.take (first.column - 1)
  whole : cells = [] → continuation = line
  rebuilt : ∃ before behind, allBlank before ∧ allBlank behind ∧
    (continuation ≠ [] → before = [] ∧ behind = []) ∧
    SameButBlanks line
      (continuation ++ (before ++ leadingSpec cells ++ behind) ++ writeCells separator cells)

/-- The columns at which a line is cut are those of its separators. -/
theorem separatorColumns_eq (separator : Char) (line : Text) :
    separatorColumns separator line = cutColumns 0 (cutCells separator false line) := by
  rw [cutColumns_cutCells, separatorColumns]
  simp

/-- A line has one part if it has no separator, and then it goes on with an earlier cell. -/
theorem splitCellLine_eq_or (separator : Char) (line : Text) :
    (splitCellLine separator line = (line, []) ∧ separatorColumns separator line = []) ∨
      ∃ lead part parts, cutCells separator false line = lead :: part :: parts := by
  obtain ⟨lead, others, hcut⟩ :=
    List.exists_cons_of_ne_nil (cutCells_ne_nil separator false line)
  cases others with
  | nil =>
    refine .inl ⟨?_, ?_⟩
    · rw [splitCellLine, hcut]
    · rw [separatorColumns_eq, hcut, cutColumns]
      simp
  | cons part parts => exact .inr ⟨lead, part, parts, hcut⟩

/-- Every cell of a line starts right behind a separator, and there is one for each of them. -/
theorem columns_splitCellLine (separator : Char) (line : Text) :
    (splitCellLine separator line).2.map (·.column) =
      (separatorColumns separator line).map (· + 1) := by
  rcases splitCellLine_eq_or separator line with ⟨hnone, hcolumns⟩ | ⟨lead, part, parts, hcut⟩
  · simp [hnone, hcolumns]
  · have hstarts : ∀ spec, (cellSegments (lead.length + 1) spec (part :: parts)).map (·.column) =
        (separatorColumns separator line).map (· + 1) := by
      intro spec
      rw [column_cellSegments, separatorColumns_eq, hcut]
      simp [cutColumns]
    rw [splitCellLine, hcut]
    dsimp only
    split
    · exact hstarts _
    · exact hstarts _

/-- A line that is cut into parts loses nothing, given what becomes of the part before the first
separator: the specifier of the first cell, but for white space, or what goes on with an earlier
cell. -/
theorem cutsFaithfully_of_lead {line lead part continuation spec before behind : Text}
    {parts : List Text} (hcut : cutCells separator false line = lead :: part :: parts)
    (hcells : splitCellLine separator line =
      (continuation, cellSegments (lead.length + 1) spec (part :: parts)))
    (hleads : if (CellSpec.parse? (trim lead)).isSome then spec = trim lead ∧ continuation = []
      else spec = [] ∧ continuation = lead)
    (hbefore : allBlank before) (hbehind : allBlank behind)
    (hcontinued : continuation ≠ [] → before = [] ∧ behind = [])
    (hlead : lead = continuation ++ (before ++ spec ++ behind)) :
    CutsFaithfully separator line continuation
      (cellSegments (lead.length + 1) spec (part :: parts)) := by
  have hjoined := joinWith_cutCells separator false line
  rw [hcut] at hjoined
  have hline : line = (lead ++ [separator]) ++ joinWith [separator] (part :: parts) := by
    rw [← hjoined]
    rfl
  have hlaid : SegmentsLaid separator line (joinWith [separator] (part :: parts))
      (cellSegments (lead.length + 1) spec (part :: parts)) := by
    simpa using segmentsLaid_cellSegments (lead ++ [separator]) spec part parts hline
  have hcolumns := columns_splitCellLine separator line
  rw [hcells] at hcolumns
  obtain ⟨content, rest, hall⟩ := exists_cellSegments_cons (lead.length + 1) spec part parts
  refine ⟨hcolumns, hlaid.contents, hlaid.followed, hlaid.ends, ?_, ?_, before, behind, hbefore,
    hbehind, hcontinued, ?_⟩
  · intro first hfirst
    rw [hall, List.head?_cons, Option.mem_some_iff] at hfirst
    subst hfirst
    have htaken : line.take (lead.length + 1 - 1) = lead := by simp [hline]
    rw [htaken]
    exact hleads
  · simp [hall]
  · have hspec : leadingSpec (cellSegments (lead.length + 1) spec (part :: parts)) = spec := by
      rw [hall]
      rfl
    have hwritten := List.rel_append (sameButBlanks_refl lead) hlaid.shown
    rw [hspec, ← hlead]
    rwa [hline, List.append_assoc]

/-- No line of a table loses anything when it is cut into cells. -/
theorem cutsFaithfully_splitCellLine (separator : Char) (line : Text) :
    CutsFaithfully separator line (splitCellLine separator line).1
      (splitCellLine separator line).2 := by
  rcases splitCellLine_eq_or separator line with ⟨hnone, -⟩ | ⟨lead, part, parts, hcut⟩
  · have hcolumns := columns_splitCellLine separator line
    rw [hnone] at hcolumns ⊢
    refine ⟨hcolumns, by simp, .nil, by simp, by simp, fun _ ↦ rfl, [], [], rfl, rfl,
      fun _ ↦ ⟨rfl, rfl⟩, ?_⟩
    simpa [leadingSpec, writeCells] using sameButBlanks_refl line
  · by_cases hspec : (CellSpec.parse? (trim lead)).isSome
    · have hcells : splitCellLine separator line =
          ([], cellSegments (lead.length + 1) (trim lead) (part :: parts)) := by
        rw [splitCellLine, hcut]
        exact if_pos hspec
      obtain ⟨before, behind, hbefore, hbehind, htrim⟩ := exists_trim lead
      rw [hcells]
      exact cutsFaithfully_of_lead hcut hcells (by rw [if_pos hspec]; exact ⟨rfl, rfl⟩) hbefore
        hbehind (fun h ↦ absurd rfl h) htrim
    · have hcells : splitCellLine separator line =
          (lead, cellSegments (lead.length + 1) [] (part :: parts)) := by
        rw [splitCellLine, hcut]
        exact if_neg hspec
      rw [hcells]
      exact cutsFaithfully_of_lead hcut hcells (by rw [if_neg hspec]; exact ⟨rfl, rfl⟩) rfl rfl
        (fun _ ↦ ⟨rfl, rfl⟩) (by simp)

/-- An escaped separator stays in its cell, and a specifier is taken from behind white space. -/
example : splitCellLine '|' "2+| a\\| b .3+^e|c x|".toList =
    ([], [⟨3, "2+".toList, " a\\| b".toList⟩, ⟨16, ".3+^e".toList, "c x".toList⟩,
      ⟨20, [], []⟩]) := by decide +kernel

end Lines

end AsciidocSpans.Blocks
