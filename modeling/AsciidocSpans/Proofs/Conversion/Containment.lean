import AsciidocSpans.Proofs.Conversion.WellPlaced

/-!
Which nodes lie within their parents. A node that covers its children contains them, and so do a
code block, which is extended over its title, and an attribute list, which has one leaf of the same
span. A table cell is the exception: its own span is found behind the cell before it, while the
blocks of its document are looked for from the start of its line. So every child lies within its
parent unless it is such a block, and a tree is nested throughout if and only if the blocks in its
cells are (`nested_iff_blocksInCells`). They need not be: of two cells with the same text, the
second one holds the text of the first (`exists_blockInCell_not_contains`).
-/

set_option autoImplicit false
set_option relaxedAutoImplicit false

namespace AsciidocSpans.Converter

/-- The range of a node contains the range of another one. -/
def Contains (parent child : Node) : Prop :=
  parent.range.1 ≤ child.range.1 ∧ child.range.2 ≤ parent.range.2

instance (parent child : Node) : Decidable (Contains parent child) :=
  inferInstanceAs (Decidable (_ ∧ _))

/-- A block of the document inside a table cell. -/
def BlockInCell (cell block : Node) : Prop :=
  cell.kind = .tableCell ∧ block.kind ≠ .str

instance (cell block : Node) : Decidable (BlockInCell cell block) :=
  inferInstanceAs (Decidable (_ ∧ _))

/-- Every node of a tree lies within its parent. -/
def Nested (root : Node) : Prop :=
  ∀ node ∈ root.nodes, ∀ child ∈ node.children, Contains node child

/-- A node whose span contains the span of another one contains it. -/
theorem contains_of_within {text : Text} {parent child : Node} (hparent : WellPlaced text parent)
    (hchild : WellPlaced text child) (h : child.location.Within parent.location) :
    Contains parent child :=
  (Source.within_iff_range_within ⟨hchild.start, hchild.stop, hchild.ordered⟩
    ⟨hparent.start, hparent.stop, hparent.ordered⟩ hchild.range hparent.range).mp h

/-- The span that covers some nodes contains the span of each of them. -/
theorem within_of_coveringSpan {location : Location} {children : List Node} {child : Node}
    (hcovers : Node.coveringSpan (children.map (·.location)) = .ok location)
    (hchild : child ∈ children) : child.location.Within location := by
  cases children with
  | nil => cases hchild
  | cons first rest =>
    cases hcovers
    exact Location.within_unionAll (List.mem_map_of_mem hchild)

/-- The children of a node that is built lie within it, unless they are blocks in a cell. -/
theorem within_of_built {converter : Converter} {node child : Node} (h : converter.Built node)
    (hchild : child ∈ node.children) (hblock : ¬ BlockInCell node child) :
    child.location.Within node.location := by
  cases h with
  | leaf _ _ => cases hchild
  | cover _ _ _ covers _ => exact within_of_coveringSpan covers hchild
  | attributes _ _ =>
    rw [List.mem_singleton.mp hchild]
    exact Location.within_refl _
  | code _ _ _ =>
    exact Location.within_unionAll (List.mem_cons_of_mem _ (List.mem_map_of_mem hchild))
  | cell _ _ blocks _ => exact absurd ⟨rfl, blocks child hchild⟩ hblock
  | empty => cases hchild

/-- The nodes below a node that is built are built, unless they are the leaf that an attribute list
holds. -/
theorem built_or_attributes_of_mem_nodes {converter : Converter} {root : Node}
    (h : converter.Built root) :
    ∀ node ∈ root.nodes, converter.Built node ∨ node.children = [] := by
  induction h with
  | leaf found offsets =>
    rw [NodeOf.forall_mem_nodes_iff]
    exact ⟨Or.inl (.leaf found offsets), nofun⟩
  | cover known inner built covers offsets ih =>
    rw [NodeOf.forall_mem_nodes_iff]
    exact ⟨Or.inl (.cover known inner built covers offsets), ih⟩
  | attributes bracket offsets =>
    rw [NodeOf.forall_mem_nodes_iff]
    refine ⟨Or.inl (.attributes bracket offsets), fun child hchild ↦ ?_⟩
    rw [List.mem_singleton.mp hchild, NodeOf.forall_mem_nodes_iff]
    exact ⟨Or.inr rfl, nofun⟩
  | code found built offsets ih =>
    rw [NodeOf.forall_mem_nodes_iff]
    exact ⟨Or.inl (.code found built offsets), ih⟩
  | cell found built blocks offsets ih =>
    rw [NodeOf.forall_mem_nodes_iff]
    exact ⟨Or.inl (.cell found built blocks offsets), ih⟩
  | empty =>
    rw [NodeOf.forall_mem_nodes_iff]
    exact ⟨Or.inl .empty, nofun⟩

/-- In the located tree of a text, whatever the settings, every child lies within its parent, unless
it is a block of the document inside a table cell; and the whole tree is nested exactly if these
blocks lie within their cells. -/
theorem nested_iff_blocksInCells {settings : LooseSettings} {text : Text} {root : Node}
    (h : (locateText settings text).1 = .ok root) :
    (∀ node ∈ root.nodes, ∀ child ∈ node.children,
      Contains node child ∨ BlockInCell node child) ∧
    (Nested root ↔ ∀ node ∈ root.nodes, ∀ child ∈ node.children,
      BlockInCell node child → Contains node child) := by
  obtain ⟨-, document, -, -, hdocument⟩ := exists_document_of_locateText h
  have hbuilt := built_of_locateDocument hdocument
  have hplaced := wellPlaced_of_built hbuilt
  have hpairs : ∀ node ∈ root.nodes, ∀ child ∈ node.children,
      ¬ BlockInCell node child → Contains node child := by
    intro node hnode child hchild hblock
    rcases built_or_attributes_of_mem_nodes hbuilt node hnode with hnodeBuilt | hnone
    · have hbelow := NodeOf.mem_nodes_of_mem_children hchild root hnode
      exact contains_of_within (hplaced node hnode) (hplaced child hbelow)
        (within_of_built hnodeBuilt hchild hblock)
    · rw [hnone] at hchild
      cases hchild
  refine ⟨fun node hnode child hchild ↦ ?_, fun hnested node hnode child hchild _ ↦
    hnested node hnode child hchild, fun hblocks node hnode child hchild ↦ ?_⟩
  · by_cases hblock : BlockInCell node child
    · exact Or.inr hblock
    · exact Or.inl (hpairs node hnode child hchild hblock)
  · by_cases hblock : BlockInCell node child
    · exact hblocks node hnode child hchild hblock
    · exact hpairs node hnode child hchild hblock

/-- A document in a cell that stands alone on its line is found inside the cell. -/
theorem nested_singleCell :
    ∃ root, (locateText Settings.default.loosen "|===\na|x\n|===".toList).1 = .ok root ∧
      Nested root := by
  obtain ⟨root, hroot, hcells⟩ := exists_of_okAnd (show okAnd
    (locateText Settings.default.loosen "|===\na|x\n|===".toList).1 (fun root ↦
      root.nodes.all fun cell ↦ cell.children.all fun block ↦
        decide (BlockInCell cell block → Contains cell block)) = true by decide +kernel)
  simp only [List.all_eq_true, decide_eq_true_eq] at hcells
  exact ⟨root, hroot, (nested_iff_blocksInCells hroot).2.mpr hcells⟩

/-- The blocks of a cell need not lie within it: the document in the second of two cells with the
same text is found in the first one. -/
theorem exists_blockInCell_not_contains :
    ∃ root, (locateText Settings.default.loosen "|===\na|x a|x\n|===".toList).1 = .ok root ∧
      ∃ cell ∈ root.nodes, ∃ block ∈ cell.children, ¬ Contains cell block := by
  obtain ⟨root, hroot, hstray⟩ := exists_of_okAnd (show okAnd
    (locateText Settings.default.loosen "|===\na|x a|x\n|===".toList).1 (fun root ↦
      root.nodes.any fun cell ↦ cell.children.any fun block ↦
        !decide (Contains cell block)) = true by decide +kernel)
  simp only [List.any_eq_true, Bool.not_eq_true', decide_eq_false_iff_not] at hstray
  exact ⟨root, hroot, hstray⟩

end AsciidocSpans.Converter
