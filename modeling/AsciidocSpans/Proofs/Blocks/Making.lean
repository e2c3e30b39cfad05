import AsciidocSpans.Blocks.Reader
import AsciidocSpans.Proofs.Attributes.Lookup

/-!
What elements are made of. Metadata that is attached to an element changes what is known of the
element but not where it stands (`info_mapInfo`, `lineno_attach`). A delimited block holds the
blocks between its delimiters or drops them (`makeDelimited_cases`). A table is made of rows, into
which its cells are grouped as they are (`exists_makeTable`, `flatten_groupRows`).
-/

set_option autoImplicit false
set_option relaxedAutoImplicit false

namespace AsciidocSpans

theorem Element.info_mapInfo (change : ElementInfo → ElementInfo) (element : Element) :
    (element.mapInfo change).info = change element.info := by
  cases element <;> rfl

namespace Blocks

open Text

/-- Whether a style makes a title float. -/
def floats (style : Option Text) : Bool :=
  style == some "discrete".toList || style == some "float".toList

theorem floats_iff {style : Option Text} :
    floats style ↔ style = some "discrete".toList ∨ style = some "float".toList := by
  rw [floats, Bool.or_eq_true, beq_iff_eq, beq_iff_eq]

/-- The element of a title that floats. -/
def floatingTitle (line : Line) (metadata : Metadata) : Element :=
  metadata.attach (.unhandled { lineno := line.number } "floating_title".toList)

/-- The element of a title that opens a section. -/
def openedSection (line : Line) (metadata : Metadata) (marker title : Text)
    (blocks : List Element) : Element :=
  { metadata with title := none }.attach
    (.titledSection { lineno := line.number, title := some title } (marker.length - 1 : Nat) blocks)

/-- Metadata does not change on which line an element stands. -/
theorem lineno_attach (metadata : Metadata) (element : Element) :
    (metadata.attach element).lineno = element.lineno := by
  rw [Element.lineno, Metadata.attach, Element.info_mapInfo]
  rfl

/-- A delimited block is an admonition or a container of its blocks; an open block drops them. -/
theorem makeDelimited_cases (metadata : Metadata) (number : Int) (kind : DelimitedKind)
    (blocks : List Element) :
    (∃ label, makeDelimited metadata number kind blocks =
      .admonition { lineno := number } label [] blocks) ∨
    (∃ inner, inner ≠ .preamble ∧ makeDelimited metadata number kind blocks =
      .container { lineno := number } inner blocks) ∨
    makeDelimited metadata number kind blocks =
      .unhandled { lineno := number } "open".toList := by
  unfold makeDelimited
  dsimp only
  split
  · exact .inl ⟨_, rfl⟩
  · exact .inr (.inl ⟨.exampleBlock, nofun, rfl⟩)
  · exact .inr (.inl ⟨.sidebar, nofun, rfl⟩)
  · exact .inr (.inl ⟨.quote, nofun, rfl⟩)
  · exact .inr (.inr rfl)

/-! ### Rows -/

section Rows

/-- Grouping cells into rows keeps all cells, in order. -/
theorem flatten_groupRows (columns : Nat) (row : List TableCell) (width : Nat)
    (cells : List TableCell) : (groupRows columns row width cells).flatten = row ++ cells := by
  induction cells generalizing row width with
  | nil =>
    rw [groupRows]
    split
    · next hempty => rw [List.isEmpty_iff.mp hempty]; rfl
    · rw [List.flatten_singleton, List.append_nil]
  | cons cell rest ih =>
    rw [groupRows]
    split
    · rw [List.flatten_cons, ih, List.nil_append, List.append_assoc, List.singleton_append]
    · rw [ih, List.append_assoc, List.singleton_append]

/-- No row of cells that are grouped is empty. -/
theorem ne_nil_of_mem_groupRows {columns width : Nat} {row cells : List TableCell} :
    ∀ group ∈ groupRows columns row width cells, group ≠ [] := by
  induction cells generalizing row width with
  | nil =>
    intro group hgroup
    rw [groupRows] at hgroup
    split at hgroup
    · cases hgroup
    · next hrow =>
      rw [List.mem_singleton.mp hgroup]
      exact fun hnil ↦ hrow (List.isEmpty_iff.mpr hnil)
  | cons cell rest ih =>
    intro group hgroup
    rw [groupRows] at hgroup
    split at hgroup
    · rcases List.mem_cons.mp hgroup with rfl | hrest
      · exact List.append_ne_nil_of_right_ne_nil _ (List.cons_ne_nil _ _)
      · exact ih group hrest
    · exact ih group hgroup

/-- A table is made of rows that hold its cells, it has at most one row in its head, and its counts
are right. -/
theorem exists_makeTable (number : Int) (separator : Char) (content : List Line)
    (given : Attributes) (cells : List TableCell) : ∃ info columns headRows bodyRows,
      makeTable number separator content given cells = .table info columns headRows bodyRows ∧
      info.lineno = number ∧ 1 ≤ columns ∧ headRows.length ≤ 1 ∧
      headRows ++ bodyRows = groupRows columns [] 0 cells ∧
      info.attributes.get? "colcount".toList = some (ofInt columns) ∧
      info.attributes.get? "rowcount".toList = some (ofInt (headRows ++ bodyRows).length) := by
  have hcolumns : ∀ cols, 1 ≤ columnCount cols separator content := by
    intro cols
    unfold columnCount
    split <;> exact Nat.le_max_left _ _
  have hcounts : ∀ (attributes : Attributes) (columns rows width : Text),
      (((attributes.insert "colcount".toList columns).insert "rowcount".toList rows).insert
          "tablepcwidth".toList width).get? "colcount".toList = some columns ∧
        (((attributes.insert "colcount".toList columns).insert "rowcount".toList rows).insert
          "tablepcwidth".toList width).get? "rowcount".toList = some rows := by
    intro attributes columns rows width
    simp only [Attributes.get?_insert]
    exact ⟨rfl, rfl⟩
  unfold makeTable
  dsimp only
  split
  · refine ⟨_, _, _, _, rfl, rfl, hcolumns _, ?_, List.take_append_drop 1 _, ?_⟩
    · exact List.length_take_le 1 _
    · rw [List.take_append_drop]
      exact hcounts _ _ _ _
  · exact ⟨_, _, _, _, rfl, rfl, hcolumns _, Nat.zero_le 1, List.nil_append _, hcounts _ _ _ _⟩

end Rows

end Blocks

end AsciidocSpans
