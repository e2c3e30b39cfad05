import AsciidocSpans.Proofs.Conversion.Elements

/-!
Every node of a located tree is well placed: its span exists in the source, from a line that the
source has to one no later and on columns that these lines have; its range gives the offsets of that
span, which lie inside the text; its kind is a known one, and a leaf is a leaf. This is so for any
settings and any elements, whatever the lines and texts that they claim (`wellPlaced_of_built`,
`wellPlaced_of_locateDocument`).

The spans that a search finds exist (`Locator.hasSpan_of_find?`), and so do those that cover spans
that exist (`Source.hasSpan_unionAll`). The span of a table's attributes is the one span that is
neither: it is as long as a text that need not stand in the source, and it is cut off where its line
ends (`hasSpan_attributeListSpan`).
-/

set_option autoImplicit false
set_option relaxedAutoImplicit false

namespace AsciidocSpans.Converter

/-- A node is well placed in a text. -/
structure WellPlaced (text : Text) (node : Node) : Prop where
  firstLine : 1 ≤ node.location.start.line
  lastLine : node.location.stop.line ≤ (Source.ofText text).lineCount
  start : (Source.ofText text).HasPosition node.location.start
  stop : (Source.ofText text).HasPosition node.location.stop
  ordered : node.location.start ≤ node.location.stop
  range : (Source.ofText text).range? node.location = some node.range
  bounds : 0 ≤ node.range.1 ∧ node.range.1 ≤ node.range.2 ∧ node.range.2 ≤ text.length
  kind : node.kind.isKnown
  leaf : node.kind = .str → node.children = []

/-- A node whose span exists and whose range gives the offsets of that span is well placed. -/
theorem wellPlaced_of_hasSpan {text : Text} {node : Node}
    (hspan : (Source.ofText text).HasSpan node.location)
    (hrange : (Source.ofText text).range? node.location = some node.range)
    (hkind : node.kind.isKnown) (hleaf : node.kind = .str → node.children = []) :
    WellPlaced text node where
  firstLine := hspan.start.1
  lastLine := Source.line_le_lineCount hspan.stop
  start := hspan.start
  stop := hspan.stop
  ordered := hspan.ordered
  range := hrange
  bounds := Source.range_bounds_of_hasSpan hspan hrange
  kind := hkind
  leaf := hleaf

/-- The span of an attribute list starts at its bracket and is cut off where its line ends. -/
theorem hasSpan_attributeListSpan {source : Source} {found : Location}
    (h : source.HasPosition found.start) (length : Nat) :
    source.HasSpan (attributeListSpan source found length) := by
  obtain ⟨hline, hcolumn, line, hget, hwidth⟩ := h
  have hstop : (attributeListSpan source found length).stop =
      ⟨found.start.line, min (found.start.column + length) line.length⟩ := by
    rw [attributeListSpan, hget, Option.getD_some]
  refine ⟨⟨hline, hcolumn, line, hget, hwidth⟩, ?_, ?_⟩
  · rw [hstop]
    refine ⟨hline, ?_, line, hget, ?_⟩
    · dsimp only
      omega
    · dsimp only
      omega
  · rw [Location.Ordered, hstop]
    refine Or.inr ⟨rfl, ?_⟩
    change found.start.column ≤ min (found.start.column + length) line.length
    omega

/-- A span that covers some nodes exists if the spans of these nodes do. -/
theorem hasSpan_of_coveringSpan {source : Source} {location : Location} {children : List Node}
    (hcovers : Node.coveringSpan (children.map (·.location)) = .ok location)
    (h : ∀ child ∈ children, source.HasSpan child.location) : source.HasSpan location := by
  cases children with
  | nil => cases hcovers
  | cons first rest =>
    cases hcovers
    refine Source.hasSpan_unionAll fun span hspan ↦ ?_
    obtain ⟨child, hchild, rfl⟩ := List.mem_map.mp (show span ∈ (first :: rest).map _ from hspan)
    exact h child hchild

/-- The first line of a text has a first column, also if the text is empty. -/
theorem hasSpan_emptyDocument (text : Text) :
    (Source.ofText text).HasSpan Node.emptyDocument.location := by
  have hfirst : (Source.ofText text).HasPosition ⟨1, 0⟩ := by
    obtain ⟨line, rest, hlines⟩ := List.exists_cons_of_ne_nil (Text.lines_ne_nil text)
    refine ⟨Int.le_refl 1, Int.le_refl 0, line, ?_, Int.natCast_nonneg _⟩
    rw [Source.line?_eq_getElem? _ (Int.le_refl 1)]
    change text.lines[0]? = some line
    rw [hlines]
    rfl
  exact ⟨hfirst, hfirst, Position.le_refl _⟩

/-- The empty document has the offsets of its span. -/
theorem range?_emptyDocument (text : Text) :
    (Source.ofText text).range? Node.emptyDocument.location = some Node.emptyDocument.range := by
  have hoffset : (Source.ofText text).positionOffset? ⟨1, 0⟩ = some 0 := by
    have hstart := Source.positionOffset?_of_hasPosition (hasSpan_emptyDocument text).start
    rwa [show (Node.emptyDocument.location.start.line - 1).toNat = 0 from rfl,
      Source.charactersBefore_zero] at hstart
  exact Source.range?_eq_some_iff.mpr ⟨hoffset, hoffset⟩

/-- The span of a node that is built exists. -/
theorem hasSpan_of_built {settings : LooseSettings} {text : Text} {node : Node}
    (h : (ofText settings text).Built node) : (Source.ofText text).HasSpan node.location := by
  induction h with
  | leaf found _ => exact Locator.hasSpan_of_find? found
  | cover _ _ _ covers _ ih => exact hasSpan_of_coveringSpan covers ih
  | attributes bracket _ =>
    exact hasSpan_attributeListSpan (Locator.hasPosition_of_find? bracket).1 _
  | code found _ _ ih =>
    refine Source.hasSpan_unionAll fun span hspan ↦ ?_
    rcases List.mem_cons.mp hspan with rfl | hmem
    · exact Locator.hasSpan_of_find? found
    · obtain ⟨child, hchild, rfl⟩ := List.mem_map.mp hmem
      exact ih child hchild
  | cell found _ _ _ _ => exact Locator.hasSpan_of_find? found
  | empty => exact hasSpan_emptyDocument text

/-- Every node that is built is well placed, and so is every node below it. -/
theorem wellPlaced_of_built {settings : LooseSettings} {text : Text} {root : Node}
    (h : (ofText settings text).Built root) : ∀ node ∈ root.nodes, WellPlaced text node := by
  have hspan := hasSpan_of_built h
  induction h with
  | leaf _ offsets =>
    rw [NodeOf.forall_mem_nodes_iff]
    exact ⟨wellPlaced_of_hasSpan hspan offsets rfl fun _ ↦ rfl, nofun⟩
  | cover known inner built _ offsets ih =>
    rw [NodeOf.forall_mem_nodes_iff]
    exact ⟨wellPlaced_of_hasSpan hspan offsets known fun hstr ↦ absurd hstr inner,
      fun child hchild ↦ ih child hchild (hasSpan_of_built (built child hchild))⟩
  | attributes _ offsets =>
    rw [NodeOf.forall_mem_nodes_iff]
    refine ⟨wellPlaced_of_hasSpan hspan offsets rfl nofun, fun child hchild ↦ ?_⟩
    rw [List.mem_singleton.mp hchild, NodeOf.forall_mem_nodes_iff]
    exact ⟨wellPlaced_of_hasSpan hspan offsets rfl fun _ ↦ rfl, nofun⟩
  | code _ built offsets ih =>
    rw [NodeOf.forall_mem_nodes_iff]
    exact ⟨wellPlaced_of_hasSpan hspan offsets rfl nofun,
      fun child hchild ↦ ih child hchild (hasSpan_of_built (built child hchild))⟩
  | cell _ built _ offsets ih =>
    rw [NodeOf.forall_mem_nodes_iff]
    exact ⟨wellPlaced_of_hasSpan hspan offsets rfl nofun,
      fun child hchild ↦ ih child hchild (hasSpan_of_built (built child hchild))⟩
  | empty =>
    rw [NodeOf.forall_mem_nodes_iff]
    exact ⟨wellPlaced_of_hasSpan hspan (range?_emptyDocument text) rfl nofun, nofun⟩

/-- Whatever the settings, the elements and the text: if the elements are located in the text, every
node of the tree is well placed in it. -/
theorem wellPlaced_of_locateDocument {settings : LooseSettings} {document : Document} {text : Text}
    {root : Node} (h : (locateDocument settings document text).1 = .ok root) :
    ∀ node ∈ root.nodes, WellPlaced text node :=
  wellPlaced_of_built (built_of_locateDocument h)

/-- A table that claims to stand on a comment line, with attributes that are longer than the line of
the bracket before it. -/
def clippedTable : Element :=
  .table { lineno := 2, attributes := Attributes.ofList [("cols".toList, "9".toList)] } 1 []
    [[⟨{ lineno := 1 }, "e".toList, none, 1, none⟩]]

theorem wellPlaced_clippedTable :
    ∃ root, (locateDocument Settings.default.loosen ⟨{ lineno := -4 }, none, [clippedTable]⟩
        "[x\n// e\n|e".toList).1 = .ok root ∧
      root.location = ⟨⟨1, 0⟩, ⟨3, 2⟩⟩ ∧
      ∀ node ∈ root.nodes, WellPlaced "[x\n// e\n|e".toList node := by
  obtain ⟨root, hroot, hlocation⟩ : ∃ root,
      (locateDocument Settings.default.loosen ⟨{ lineno := -4 }, none, [clippedTable]⟩
        "[x\n// e\n|e".toList).1 = .ok root ∧ root.location = ⟨⟨1, 0⟩, ⟨3, 2⟩⟩ := ⟨_, rfl, rfl⟩
  exact ⟨root, hroot, hlocation, wellPlaced_of_locateDocument hroot⟩

end AsciidocSpans.Converter
