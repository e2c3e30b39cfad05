import AsciidocSpans.Proofs.Conversion.Containment
import AsciidocSpans.Proofs.Span.Matched

/-!
Leaves show what the text holds at their spans. A span may begin with comments and hold others in
between; without them it has as many lines as the value of the leaf, and each line holds its part of
the value, from the start of the span on and up to its stop. This is so for every leaf that a search
found (`faithful_of_built`), which all leaves are but the ones that show the attributes of a table:
those are made from what was set, at the bracket where the attributes begin.
-/

set_option autoImplicit false
set_option relaxedAutoImplicit false

namespace AsciidocSpans.Converter

/-- A leaf shows the text at its span, comments aside. On a single line it shows nothing but the
characters in its range. -/
structure Faithful (marker text : Text) (leaf : Node) : Prop where
  matched : (Source.ofText text).Matched (fun line ↦ marker.isPrefixOf line) leaf.raw.lines
    leaf.location
  oneLine : leaf.location.start.line = leaf.location.stop.line →
    text.slice leaf.range.1 leaf.range.2 = leaf.raw

/-- A search that is not for verbatim text passes over the lines that start with the marker. -/
theorem skips_ofText {settings : LooseSettings} {marker : Text}
    (hmarker : settings.marker? = some marker) (text : Text) :
    (ofText settings text).locator.skips false = fun line ↦ marker.isPrefixOf line := by
  funext line
  rw [Locator.skips, Bool.not_false, Bool.true_and, commentMarker_ofText hmarker]

/-- A leaf that is built was found by a search, and shows what was searched for. -/
theorem faithful_of_built {settings : LooseSettings} {marker text : Text} {leaf : Node}
    (hmarker : settings.marker? = some marker) (h : (ofText settings text).Built leaf)
    (hstr : leaf.kind = .str) : Faithful marker text leaf := by
  have hspan := hasSpan_of_built h
  cases h with
  | leaf found offsets =>
    have hmatched := Locator.matched_of_find? found
    rw [skips_ofText hmarker] at hmatched
    have hlines := Source.lines_unlines_of_matched hmatched
    refine ⟨?_, fun hline ↦ ?_⟩
    · change (Source.ofText text).Matched _ (Text.lines (Text.unlines _)) _
      rw [hlines]
      exact hmatched
    · obtain ⟨segment, rfl, hslice⟩ := Source.slice_of_matched hmatched hspan offsets hline
      exact hslice
  | cover _ inner _ _ _ => exact absurd hstr inner
  | attributes _ _ => cases hstr
  | code _ _ _ => cases hstr
  | cell _ _ _ _ => cases hstr
  | empty => cases hstr

/-- The children of a node that is built are built, unless the node shows attributes. -/
theorem built_of_mem_children {converter : Converter} {node child : Node}
    (h : converter.Built node) (hkind : node.kind ≠ .attributeList)
    (hchild : child ∈ node.children) :
    converter.Built child := by
  cases h with
  | leaf _ _ => cases hchild
  | cover _ _ built _ _ => exact built child hchild
  | attributes _ _ => exact absurd rfl hkind
  | code _ built _ => exact built child hchild
  | cell _ built _ _ => exact built child hchild
  | empty => cases hchild

/-- Every leaf of a located tree shows the text at its span, unless it shows the attributes of a
table. -/
theorem faithful_of_locateDocument {settings : LooseSettings} {marker text : Text}
    {document : Document} {root : Node} (hmarker : settings.marker? = some marker)
    (h : (locateDocument settings document text).1 = .ok root) :
    root.kind ≠ .str ∧ ∀ node ∈ root.nodes, node.kind ≠ .attributeList →
      ∀ leaf ∈ node.children, leaf.kind = .str → Faithful marker text leaf := by
  have hbuilt := built_of_locateDocument h
  refine ⟨by rw [kind_of_locateDocument h]; nofun, fun node hnode hkind leaf hleaf hstr ↦ ?_⟩
  rcases built_or_attributes_of_mem_nodes hbuilt node hnode with hnode | hnone
  · exact faithful_of_built hmarker (built_of_mem_children hnode hkind hleaf) hstr
  · rw [hnone] at hleaf
    cases hleaf

/-- A paragraph of two lines, with a comment in between, that claims to stand on the comment
before it. -/
def commentedParagraph : Element :=
  .paragraph { lineno := 1 } false ["a".toList, "b".toList]

/-- The leaf of that paragraph: it spans both comments. -/
def commentedLeaf : Node :=
  .mk .str "a\nb".toList ⟨⟨1, 0⟩, ⟨4, 2⟩⟩ (0, 14) []

/-- The paragraph around that leaf. -/
def commentedNode : Node :=
  .mk .paragraph "a\nb".toList ⟨⟨1, 0⟩, ⟨4, 2⟩⟩ (0, 14) [commentedLeaf]

theorem faithful_commentedParagraph :
    ∃ root, (locateDocument Settings.default.loosen ⟨{ lineno := 1 }, none, [commentedParagraph]⟩
        "// x\na\n// y\n b".toList).1 = .ok root ∧ commentedNode ∈ root.nodes ∧
      Faithful "//".toList "// x\na\n// y\n b".toList commentedLeaf := by
  obtain ⟨root, hroot, hchildren⟩ : ∃ root,
      (locateDocument Settings.default.loosen ⟨{ lineno := 1 }, none, [commentedParagraph]⟩
        "// x\na\n// y\n b".toList).1 = .ok root ∧ root.children = [commentedNode] := ⟨_, rfl, rfl⟩
  have hnode : commentedNode ∈ root.nodes := by
    refine NodeOf.mem_nodes_of_mem_children ?_ root (NodeOf.mem_nodes_self root)
    rw [hchildren]
    exact List.mem_cons_self
  exact ⟨root, hroot, hnode, (faithful_of_locateDocument rfl hroot).2 commentedNode hnode nofun
    commentedLeaf List.mem_cons_self rfl⟩

end AsciidocSpans.Converter
