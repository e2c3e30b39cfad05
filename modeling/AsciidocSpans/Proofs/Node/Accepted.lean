import AsciidocSpans.Proofs.Node.Checkpoints
import AsciidocSpans.Proofs.Span.Offsets

/-!
What an accepted tree is like. A validation compares the span and the offsets of a node through the
offsets of the span's ends, and it looks at the lines of the ends, but not at their columns. A node
that is accepted is `Consistent`: its offsets lie within the text, and they are those of its span.
`consistent_of_validate` says so of all nodes of an accepted tree, that the offsets of a node
contain those of every node below it, and that they always belong to a span which exists. That span
is the node's own if the columns of both ends lie on their lines, and then the offsets tell the
node's span apart from others. Otherwise they need not: `accepted_columnBehindLine` is an accepted
tree with a column behind the end of its line, in which two spans have the same offsets.
-/

set_option autoImplicit false
set_option relaxedAutoImplicit false

namespace AsciidocSpans

namespace Node

theorem loosenAll_eq_map (nodes : List Node) : loosenAll nodes = nodes.map loosen := by
  induction nodes with
  | nil => rfl
  | cons node rest ih => rw [loosenAll, ih, List.map_cons]

@[simp] theorem children_loosen (node : Node) :
    node.loosen.children = node.children.map loosen := by
  cases node
  rw [loosen]
  exact loosenAll_eq_map _

@[simp] theorem location_loosen (node : Node) : node.loosen.location = node.location := by
  cases node
  rw [loosen]
  rfl

@[simp] theorem range_loosen (node : Node) :
    node.loosen.range = (.integer node.range.1, .integer node.range.2) := by
  cases node
  rw [loosen]
  rfl

theorem offsets?_loosen (node : Node) : node.loosen.offsets? = some node.range := by
  rw [LooseNode.offsets?_eq_some_iff, range_loosen]
  exact ⟨rfl, rfl⟩

mutual

/-- The nodes of a loosened tree are the loosened nodes of the tree. -/
theorem nodes_loosen (node : Node) : node.loosen.nodes = node.nodes.map loosen := by
  match node with
  | .mk kind raw location range children =>
    rw [loosen, NodeOf.nodes, NodeOf.nodes, List.map_cons, loosen, nodesOfAll_loosenAll children]

theorem nodesOfAll_loosenAll (nodes : List Node) :
    NodeOf.nodesOfAll (loosenAll nodes) = (NodeOf.nodesOfAll nodes).map loosen := by
  match nodes with
  | [] => rfl
  | node :: rest =>
    rw [loosenAll, NodeOf.nodesOfAll, NodeOf.nodesOfAll, List.map_append, nodes_loosen node,
      nodesOfAll_loosenAll rest]

end

end Node

/-- Integers lie within those of a parent as one expects. -/
theorem LooseNode.isInside?_eq_some_true_iff {parent range : Int × Int} :
    isInside? parent (.integer range.1, .integer range.2) = some true ↔
      parent.1 ≤ range.1 ∧ range.2 ≤ parent.2 := by
  change (if compare range.1 parent.1 = .lt then some false
    else some (decide (compare range.2 parent.2 ≠ .gt))) = some true ↔ _
  split
  · next hlow =>
    rw [Int.compare_eq_lt] at hlow
    exact ⟨nofun, fun h ↦ absurd h.1 (by omega)⟩
  · next hlow =>
    rw [Int.compare_eq_lt] at hlow
    rw [Option.some_inj, decide_eq_true_iff, ne_eq, Int.compare_eq_gt]
    omega

namespace Source

/-- Whether the column of a position lies on its line, or just behind it. -/
def ColumnOnLine (source : Source) (position : Position) : Prop :=
  ∃ line, source.line? position.line = some line ∧
    0 ≤ position.column ∧ position.column ≤ line.length

theorem hasPosition_iff_columnOnLine {source : Source} {position : Position}
    (h : 1 ≤ position.line) : source.HasPosition position ↔ source.ColumnOnLine position := by
  constructor
  · rintro ⟨-, hzero, line, hline, hlength⟩
    exact ⟨line, hline, hzero, hlength⟩
  · rintro ⟨line, hline, hzero, hlength⟩
    exact ⟨h, hzero, line, hline, hlength⟩

/-- Spans that exist are told apart by their offsets. -/
theorem location_eq_of_range?_eq {text : Text} {first second : Location} {range : Int × Int}
    (hfirst : (ofText text).HasSpan first) (hsecond : (ofText text).HasSpan second)
    (hrange : (ofText text).range? first = some range)
    (hother : (ofText text).range? second = some range) : first = second := by
  rw [range?_eq_some_iff] at hrange hother
  cases first
  cases second
  rw [Location.mk.injEq]
  exact ⟨eq_of_positionOffset?_eq hfirst.start hsecond.start hrange.1 hother.1,
    eq_of_positionOffset?_eq hfirst.stop hsecond.stop hrange.2 hother.2⟩

/-- Offsets in order inside a text belong to a span that exists. -/
theorem exists_hasSpan_of_bounds {text : Text} {range : Int × Int} (hzero : 0 ≤ range.1)
    (hordered : range.1 ≤ range.2) (hlength : range.2 ≤ text.length) :
    ∃ span, (ofText text).HasSpan span ∧ (ofText text).range? span = some range := by
  obtain ⟨start, hstart, hfirst⟩ :=
    exists_hasPosition_of_offset hzero (Int.le_trans hordered hlength)
  obtain ⟨stop, hstop, hlast⟩ :=
    exists_hasPosition_of_offset (Int.le_trans hzero hordered) hlength
  exact ⟨⟨start, stop⟩,
    ⟨hstart, hstop, (offset_le_offset_iff hstart hstop hfirst hlast).mp hordered⟩,
    range?_eq_some_iff.mpr ⟨hfirst, hlast⟩⟩

end Source

namespace Node

open Source

/-- A node's offsets lie within a text, and they are those of its span, whose lines exist. -/
structure Consistent (text : Text) (node : Node) : Prop where
  bounds : 0 ≤ node.range.1 ∧ node.range.1 ≤ node.range.2 ∧ node.range.2 ≤ text.length
  ordered : node.location.Ordered
  lines : 1 ≤ node.location.start.line ∧ node.location.stop.line ≤ (ofText text).lineCount
  range : (ofText text).range? node.location = some node.range

/-- The columns of both ends of a node lie on their lines, or just behind them. -/
def ColumnsOnLines (text : Text) (node : Node) : Prop :=
  (ofText text).ColumnOnLine node.location.start ∧ (ofText text).ColumnOnLine node.location.stop

section Accepted

variable {text : Text} {root node : Node}

/-- A tree is accepted exactly if its nodes are sound and contain the offsets of their children. -/
theorem validate_eq_ok_iff : root.loosen.validate text = .ok () ↔
    ∀ node ∈ root.nodes, LooseNode.Sound (ofText text) (loosen node) node.range ∧
      ∀ child ∈ node.children, node.range.1 ≤ child.range.1 ∧ child.range.2 ≤ node.range.2 := by
  rw [LooseNode.validate, LooseNode.check_eq_ok_iff, nodes_loosen, List.forall_mem_map]
  refine forall₂_congr fun node _ ↦ ?_
  simp only [children_loosen, List.forall_mem_map, range_loosen,
    LooseNode.isInside?_eq_some_true_iff]
  constructor
  · rintro ⟨offsets, hsound, hinside⟩
    cases (offsets?_loosen node).symm.trans hsound.integers
    exact ⟨hsound, hinside⟩
  · rintro ⟨hsound, hinside⟩
    exact ⟨node.range, hsound, hinside⟩

theorem consistent_of_sound (h : LooseNode.Sound (ofText text) (loosen node) node.range) :
    node.Consistent text where
  bounds := h.bounds
  ordered := by simpa using h.ordered
  lines := by simpa using h.lines
  range := by simpa using h.range

/-- The span of a node with lines that exist does if its columns lie on their lines. -/
theorem Consistent.hasSpan_iff (h : node.Consistent text) :
    (ofText text).HasSpan node.location ↔ node.ColumnsOnLines text := by
  have hstop : 1 ≤ node.location.stop.line :=
    Int.le_trans h.lines.1 (Position.line_le_of_le h.ordered)
  rw [ColumnsOnLines, ← hasPosition_iff_columnOnLine h.lines.1,
    ← hasPosition_iff_columnOnLine hstop]
  exact ⟨fun hspan ↦ ⟨hspan.start, hspan.stop⟩, fun hends ↦ ⟨hends.1, hends.2, h.ordered⟩⟩

/-- An accepted tree. Every node of it is consistent, its offsets contain those of all nodes below
it, and they belong to a span that exists. That one is the node's own exactly if the columns of its
ends lie on their lines, and nodes of which this holds have the same span if they have the same
offsets. -/
theorem consistent_of_validate (h : root.loosen.validate text = .ok ()) :
    (∀ node ∈ root.nodes, Consistent text node ∧
      (∀ inner ∈ node.nodes, node.range.1 ≤ inner.range.1 ∧ inner.range.2 ≤ node.range.2) ∧
      ∃ span, (ofText text).HasSpan span ∧ (ofText text).range? span = some node.range ∧
        (node.location = span ↔ ColumnsOnLines text node)) ∧
    ∀ first ∈ root.nodes, ∀ second ∈ root.nodes,
      ColumnsOnLines text first → ColumnsOnLines text second →
      first.range = second.range → first.location = second.location := by
  rw [validate_eq_ok_iff] at h
  have hconsistent : ∀ node ∈ root.nodes, Consistent text node :=
    fun node hnode ↦ consistent_of_sound (h node hnode).1
  refine ⟨fun node hnode ↦ ⟨hconsistent node hnode, ?_, ?_⟩, ?_⟩
  · exact NodeOf.forall_mem_nodes_of_chains
      (R := fun outer inner ↦ outer.range.1 ≤ inner.range.1 ∧ inner.range.2 ≤ outer.range.2)
      (fun _ ↦ ⟨Int.le_refl _, Int.le_refl _⟩)
      (fun hab hbc ↦ ⟨Int.le_trans hab.1 hbc.1, Int.le_trans hbc.2 hab.2⟩) node
      (fun inner hinner ↦ (h inner (NodeOf.mem_nodes_trans hnode hinner)).2)
  · have hown := hconsistent node hnode
    obtain ⟨hzero, hordered, hlength⟩ := hown.bounds
    obtain ⟨span, hspan, hrange⟩ := exists_hasSpan_of_bounds hzero hordered hlength
    refine ⟨span, hspan, hrange, fun heq ↦ ?_, fun hcolumns ↦ ?_⟩
    · rw [← heq] at hspan
      exact hown.hasSpan_iff.mp hspan
    · exact location_eq_of_range?_eq (hown.hasSpan_iff.mpr hcolumns) hspan hown.range hrange
  · intro first hfirst second hsecond hcolumns hother hrange
    have hranged := (hconsistent second hsecond).range
    rw [← hrange] at hranged
    exact location_eq_of_range?_eq ((hconsistent first hfirst).hasSpan_iff.mpr hcolumns)
      ((hconsistent second hsecond).hasSpan_iff.mpr hother) (hconsistent first hfirst).range hranged

/-- The text `ab`, a newline and `cd`. -/
def twoLines : Text :=
  "ab\ncd".toList

/-- A document of two paragraphs, each around a leaf of the same span. -/
theorem consistent_twoParagraphs :
    let leaf (line first : Int) (raw : Text) : Node :=
      .mk .str raw ⟨⟨line, 0⟩, ⟨line, 2⟩⟩ (first, first + 2) []
    let paragraph (line first : Int) (raw : Text) : Node :=
      .mk .paragraph raw ⟨⟨line, 0⟩, ⟨line, 2⟩⟩ (first, first + 2) [leaf line first raw]
    let root : Node := .mk .document twoLines ⟨⟨1, 0⟩, ⟨2, 2⟩⟩ (0, 5)
      [paragraph 1 0 "ab".toList, paragraph 2 3 "cd".toList]
    root.loosen.validate twoLines = .ok () ∧ root.Consistent twoLines := by
  intro leaf paragraph root
  have hvalid : root.loosen.validate twoLines = .ok () := rfl
  exact ⟨hvalid, ((consistent_of_validate hvalid).1 root (NodeOf.mem_nodes_self root)).1⟩

/-- An accepted tree whose leaf ends behind the end of a line of two characters. Its root has the
same offsets and another span. -/
theorem accepted_columnBehindLine :
    let leaf : Node := .mk .str "ab".toList ⟨⟨1, 0⟩, ⟨1, 3⟩⟩ (0, 3) []
    let root : Node := .mk .document "ab\n".toList ⟨⟨1, 0⟩, ⟨2, 0⟩⟩ (0, 3) [leaf]
    root.loosen.validate twoLines = .ok () ∧ leaf ∈ root.nodes ∧
      (ofText twoLines).line? leaf.location.stop.line = some "ab".toList ∧
      ¬(ofText twoLines).HasPosition leaf.location.stop ∧
      leaf.range = root.range ∧ leaf.location ≠ root.location := by
  refine ⟨rfl, .tail _ (.head _), rfl, ?_, rfl, by decide⟩
  rintro ⟨-, -, line, hline, hlength⟩
  cases hline
  exact absurd hlength (by decide)

end Accepted

end Node

end AsciidocSpans
