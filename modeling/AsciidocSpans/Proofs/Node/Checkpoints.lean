import AsciidocSpans.Node.Validation
import AsciidocSpans.Proofs.Node.Subtree
import AsciidocSpans.Proofs.Span.Order
import Mathlib.Tactic.SplitIfs

/-!
The order in which a tree is validated. `checkpoints` lists the looks that a validation takes at a
tree: one at every node alone, and one at where the offsets of a child lie in those of its parent,
which comes before the look at the child. `check_eq_forM` says that a validation is nothing but
these looks, one after the other, so that it accepts a tree if each of them passes
(`check_eq_ok_iff`) and otherwise answers with the first that does not (`check_eq_error_iff`).

A look at a node alone always has an answer of its own, a rule that the node breaks, and it passes
exactly the nodes that are `Sound`. A look at a child has none if an offset of the child is no
number. So `answered_of_numbers` needs the offsets below the root to be numbers: then every tree is
accepted or answered with a rule that it breaks, and a node whose offsets are not integers is never
accepted and is reported as such when the validation gets to it. `unreported_offsets` has a tree
for which there is no answer, since a text stands among its offsets.
-/

set_option autoImplicit false
set_option relaxedAutoImplicit false

namespace AsciidocSpans

section Traversal

variable {ε α : Type} {f : α → Except ε Unit} {items : List α}

/-- Items are gone through with success exactly if each of them passes. -/
theorem forM_eq_ok_iff : forM items f = .ok () ↔ ∀ item ∈ items, f item = .ok () := by
  induction items with
  | nil => exact ⟨fun _ ↦ nofun, fun _ ↦ rfl⟩
  | cons item rest ih =>
    rw [List.forall_mem_cons, List.forM_cons, ← ih]
    cases hitem : f item with
    | ok => exact ⟨fun h ↦ ⟨rfl, h⟩, fun h ↦ h.2⟩
    | error problem => exact ⟨nofun, fun h ↦ nomatch h.1⟩

/-- Going through items fails with what the first item fails with that does not pass. -/
theorem forM_eq_error_iff {problem : ε} : forM items f = .error problem ↔
    ∃ before item after, items = before ++ item :: after ∧ (∀ passed ∈ before, f passed = .ok ()) ∧
      f item = .error problem := by
  induction items with
  | nil =>
    refine ⟨nofun, ?_⟩
    rintro ⟨before, item, after, heq, -⟩
    cases List.append_eq_nil_iff.mp heq.symm |>.2
  | cons first rest ih =>
    rw [List.forM_cons]
    cases hfirst : f first with
    | ok =>
      change forM rest f = .error problem ↔ _
      rw [ih]
      constructor
      · rintro ⟨before, item, after, rfl, hbefore, hitem⟩
        exact ⟨first :: before, item, after, rfl, List.forall_mem_cons.mpr ⟨hfirst, hbefore⟩, hitem⟩
      · rintro ⟨before, item, after, heq, hbefore, hitem⟩
        cases before with
        | nil =>
          cases heq
          cases hfirst.symm.trans hitem
        | cons passed others =>
          cases heq
          exact ⟨others, item, after, rfl, (List.forall_mem_cons.mp hbefore).2, hitem⟩
    | error other =>
      change Except.error other = .error problem ↔ _
      constructor
      · intro heq
        cases heq
        exact ⟨[], first, rest, rfl, nofun, hfirst⟩
      · rintro ⟨before, item, after, heq, hbefore, hitem⟩
        cases before with
        | nil =>
          cases heq
          exact hfirst.symm.trans hitem
        | cons passed others =>
          cases heq
          cases hfirst.symm.trans (hbefore first List.mem_cons_self)

end Traversal

namespace LooseNode

/-- The offsets of a node, if both of them count as integers. -/
def offsets? (node : LooseNode) : Option (Int × Int) := do
  return (← integer? node.range.1, ← integer? node.range.2)

/-- The offsets of a node that passes the rules about the node alone, or the rule it breaks. -/
def alone (source : Source) (node : LooseNode) : Except ValidationRule (Int × Int) :=
  checkAlone source node.kind node.raw node.location node.range (!node.children.isEmpty)

theorem offsets?_eq_some_iff {node : LooseNode} {offsets : Int × Int} :
    node.offsets? = some offsets ↔
      integer? node.range.1 = some offsets.1 ∧ integer? node.range.2 = some offsets.2 := by
  obtain ⟨first, last⟩ := offsets
  rw [offsets?]
  cases integer? node.range.1 <;> cases integer? node.range.2 <;> simp [bind, pure]

/-- A node keeps the rules about a node alone, and these are its offsets. -/
structure Sound (source : Source) (node : LooseNode) (offsets : Int × Int) : Prop where
  known : node.kind.isKnown
  raw : ∃ value, node.raw = .text value
  integers : node.offsets? = some offsets
  bounds : 0 ≤ offsets.1 ∧ offsets.1 ≤ offsets.2 ∧ offsets.2 ≤ source.text.length
  ordered : node.location.Ordered
  lines : 1 ≤ node.location.start.line ∧ node.location.stop.line ≤ source.lineCount
  range : source.range? node.location = some offsets
  leaf : ¬(node.kind = .str ∧ !node.children.isEmpty)

section Alone

variable {source : Source} {node : LooseNode} {offsets : Int × Int} {value : Text}

/-- The rules that are looked at once a node is of a known kind and has a text for its literal text
and integers for its offsets. -/
theorem alone_of_offsets (hknown : node.kind.isKnown) (hraw : node.raw = .text value)
    (hoffsets : node.offsets? = some offsets) : node.alone source =
      if 0 ≤ offsets.1 ∧ offsets.1 ≤ offsets.2 ∧ offsets.2 ≤ source.text.length then
        if node.location.start ≤ node.location.stop then
          if 1 ≤ node.location.start.line ∧ node.location.stop.line ≤ source.lineCount then
            if source.range? node.location = some offsets then
              if node.kind = .str ∧ !node.children.isEmpty then .error .leafWithChildren
              else .ok offsets
            else .error .rangeMismatch
          else .error .locationOutsideText
        else .error .locationReversed
      else .error (.rangeOutsideText source.text.length) := by
  obtain ⟨hfirst, hlast⟩ := offsets?_eq_some_iff.mp hoffsets
  rw [alone, checkAlone, hknown, hraw, hfirst, hlast]
  rfl

/-- A node of a known kind with a text for its literal text and offsets that are not integers is
reported for its offsets. -/
theorem alone_of_not_integers (hknown : node.kind.isKnown) (hraw : node.raw = .text value)
    (hoffsets : node.offsets? = none) : node.alone source = .error .rangeNotIntegers := by
  rw [offsets?] at hoffsets
  rw [alone, checkAlone, hknown, hraw]
  cases hfirst : integer? node.range.1 with
  | none => rfl
  | some first =>
    rw [hfirst] at hoffsets
    cases hlast : integer? node.range.2 with
    | none => rfl
    | some last =>
      rw [hlast] at hoffsets
      cases hoffsets

/-- The rules about a node alone are kept by the nodes that are sound, with their offsets. -/
theorem alone_eq_ok_iff : node.alone source = .ok offsets ↔ Sound source node offsets := by
  constructor
  · intro h
    cases hknown : node.kind.isKnown with
    | false =>
      rw [alone, checkAlone, hknown] at h
      cases h
    | true =>
    obtain ⟨value, hraw⟩ : ∃ value, node.raw = .text value := by
      rw [alone, checkAlone, hknown] at h
      cases hraw : node.raw with
      | text value => exact ⟨value, rfl⟩
      | _ =>
        rw [hraw] at h
        cases h
    cases hoffsets : node.offsets? with
    | none =>
      rw [alone_of_not_integers hknown hraw hoffsets] at h
      cases h
    | some own =>
    rw [alone_of_offsets hknown hraw hoffsets] at h
    split_ifs at h with hbounds hordered hlines hrange hleaf
    cases h
    exact ⟨hknown, ⟨value, hraw⟩, hoffsets, hbounds, hordered, hlines, hrange, hleaf⟩
  · intro h
    obtain ⟨value, hraw⟩ := h.raw
    rw [alone_of_offsets h.known hraw h.integers, if_pos h.bounds,
      if_pos (show node.location.start ≤ node.location.stop from h.ordered), if_pos h.lines,
      if_pos h.range, if_neg h.leaf]

end Alone

/-- A look that a validation takes: at a node alone, or at where the offsets of a child lie. -/
inductive Checkpoint where
  | alone (node : LooseNode)
  | inside (parent child : LooseNode)

/-- What a look finds wrong. A parent has passed the look at itself before its children are looked
at, so that its offsets are integers. -/
def Checkpoint.verdict (source : Source) : Checkpoint → Except ValidationError Unit
  | .alone node =>
    match node.alone source with
    | .error rule => .error (.broken rule node.kind.name)
    | .ok _ => .ok ()
  | .inside parent child =>
    match parent.offsets? with
    | none => .ok ()
    | some offsets =>
      match isInside? offsets child.range with
      | none => .error .incomparable
      | some false =>
        .error (.broken (.childOutsideParent child.kind.name child.range) parent.kind.name)
      | some true => .ok ()

mutual

/-- The looks at a tree, in their order. -/
def checkpoints : LooseNode → List Checkpoint
  | .mk kind raw location range children =>
    .alone (.mk kind raw location range children) ::
      checkpointsBelow (.mk kind raw location range children) children

/-- The looks at children of a node, in their order. -/
def checkpointsBelow (parent : LooseNode) : List LooseNode → List Checkpoint
  | [] => []
  | child :: rest => .inside parent child :: (checkpoints child ++ checkpointsBelow parent rest)

end

section Order

variable {source : Source} {node : LooseNode} {problem : ValidationError}

theorem checkpoints_eq (node : LooseNode) :
    node.checkpoints = .alone node :: checkpointsBelow node node.children := by
  cases node
  rw [checkpoints]
  rfl

theorem check_eq (source : Source) (node : LooseNode) :
    node.check source = match node.alone source with
      | .error rule => .error (.broken rule node.kind.name)
      | .ok offsets => checkAll source node.kind offsets node.children := by
  cases node
  rw [check]
  rfl

theorem checkAll_cons (source : Source) (parent : NodeKind) (offsets : Int × Int)
    (child : LooseNode) (rest : List LooseNode) :
    checkAll source parent offsets (child :: rest) = match isInside? offsets child.range with
      | none => .error .incomparable
      | some false => .error (.broken (.childOutsideParent child.kind.name child.range) parent.name)
      | some true => (do
        child.check source
        checkAll source parent offsets rest) := by
  cases child
  rw [checkAll]
  rfl

mutual

/-- A validation is the looks at the tree, one after the other. -/
theorem check_eq_forM (source : Source) (node : LooseNode) :
    node.check source = forM node.checkpoints (Checkpoint.verdict source) := by
  match node with
  | .mk kind raw location range children =>
    rw [check_eq, checkpoints_eq, List.forM_cons, Checkpoint.verdict]
    cases halone : alone source (.mk kind raw location range children) with
    | error rule => rfl
    | ok offsets =>
      exact checkAll_eq_forM source (.mk kind raw location range children)
        (alone_eq_ok_iff.mp halone).integers children

theorem checkAll_eq_forM (source : Source) (parent : LooseNode) {offsets : Int × Int}
    (hoffsets : parent.offsets? = some offsets) (children : List LooseNode) :
    checkAll source parent.kind offsets children =
      forM (checkpointsBelow parent children) (Checkpoint.verdict source) := by
  match children with
  | [] => rfl
  | child :: rest =>
    rw [checkAll_cons, checkpointsBelow, List.forM_cons, List.forM_append, Checkpoint.verdict,
      hoffsets]
    dsimp only
    cases isInside? offsets child.range with
    | none => rfl
    | some inside =>
      cases inside with
      | false => rfl
      | true =>
        dsimp only
        rw [check_eq_forM source child, checkAll_eq_forM source parent hoffsets rest]
        rfl

end

theorem mem_checkpointsBelow_iff {parent : LooseNode} {children : List LooseNode}
    {point : Checkpoint} : point ∈ checkpointsBelow parent children ↔
      (∃ child ∈ children, point = .inside parent child) ∨
        ∃ child ∈ children, point ∈ child.checkpoints := by
  rw [← exists_or]
  simp only [← and_or_left]
  induction children with
  | nil => simp [checkpointsBelow]
  | cons child rest ih =>
    rw [checkpointsBelow, List.mem_cons, List.mem_append, ih]
    simp [or_assoc]

mutual

/-- A validation looks at every node of a tree alone, and at every child of every node. -/
theorem mem_checkpoints_iff (node : LooseNode) {point : Checkpoint} :
    point ∈ node.checkpoints ↔ ∃ inner ∈ node.nodes,
      point = .alone inner ∨ ∃ child ∈ inner.children, point = .inside inner child := by
  match node with
  | .mk kind raw location range children =>
    rw [checkpoints_eq, List.mem_cons, mem_checkpointsBelow_iff, ← or_assoc, NodeOf.nodes]
    simp only [List.mem_cons, or_and_right, exists_or, exists_eq_left]
    exact or_congr_right (exists_mem_checkpoints_iff children)

theorem exists_mem_checkpoints_iff (children : List LooseNode) {point : Checkpoint} :
    (∃ child ∈ children, point ∈ child.checkpoints) ↔ ∃ inner ∈ NodeOf.nodesOfAll children,
      point = .alone inner ∨ ∃ child ∈ inner.children, point = .inside inner child := by
  match children with
  | [] => simp [NodeOf.nodesOfAll]
  | child :: rest =>
    simp only [NodeOf.nodesOfAll, List.mem_append, or_and_right, exists_or,
      ← mem_checkpoints_iff child, ← exists_mem_checkpoints_iff rest]
    simp

end

/-- A tree is accepted exactly if every node of it is sound, and the offsets of every child lie in
those of its parent. -/
theorem check_eq_ok_iff : node.check source = .ok () ↔
    ∀ inner ∈ node.nodes, ∃ offsets, Sound source inner offsets ∧
      ∀ child ∈ inner.children, isInside? offsets child.range = some true := by
  rw [check_eq_forM, forM_eq_ok_iff]
  constructor
  · intro h inner hinner
    have halone := h _ ((mem_checkpoints_iff node).mpr ⟨inner, hinner, .inl rfl⟩)
    rw [Checkpoint.verdict] at halone
    cases hrules : alone source inner with
    | error rule =>
      rw [hrules] at halone
      cases halone
    | ok offsets =>
    have hsound := alone_eq_ok_iff.mp hrules
    refine ⟨offsets, hsound, fun child hchild ↦ ?_⟩
    have hinside := h _ ((mem_checkpoints_iff node).mpr ⟨inner, hinner, .inr ⟨child, hchild, rfl⟩⟩)
    rw [Checkpoint.verdict, hsound.integers] at hinside
    dsimp only at hinside
    split at hinside
    · cases hinside
    · cases hinside
    · assumption
  · intro h point hpoint
    obtain ⟨inner, hinner, rfl | ⟨child, hchild, rfl⟩⟩ := (mem_checkpoints_iff node).mp hpoint
    · obtain ⟨offsets, hsound, -⟩ := h inner hinner
      rw [Checkpoint.verdict, alone_eq_ok_iff.mpr hsound]
    · obtain ⟨offsets, hsound, hinside⟩ := h inner hinner
      rw [Checkpoint.verdict, hsound.integers]
      dsimp only
      rw [hinside child hchild]

/-- A validation fails with what the first look finds wrong that does not pass. -/
theorem check_eq_error_iff :
    node.check source = .error problem ↔ ∃ before point after,
      node.checkpoints = before ++ point :: after ∧
      (∀ passed ∈ before, passed.verdict source = .ok ()) ∧
      point.verdict source = .error problem := by
  rw [check_eq_forM, forM_eq_error_iff]

end Order

section Numbers

variable {source : Source}

/-- Whether a value is a number. A truth value is. -/
def isNumber : Value → Bool
  | .boolean _ | .integer _ | .float _ => true
  | _ => false

/-- The values that can be compared with an integer are the numbers. -/
theorem compareWith?_eq_none_iff {value : Value} {n : Int} :
    compareWith? value n = none ↔ isNumber value = false := by
  cases value <;> simp [compareWith?, integer?, isNumber]

theorem isInside?_ne_none {parent : Int × Int} {range : Value × Value}
    (hfirst : isNumber range.1) (hlast : isNumber range.2) : isInside? parent range ≠ none := by
  rw [isInside?]
  cases hcompare : compareWith? range.1 parent.1 with
  | none => rw [compareWith?_eq_none_iff.mp hcompare] at hfirst; cases hfirst
  | some low =>
    cases hother : compareWith? range.2 parent.2 with
    | none => rw [compareWith?_eq_none_iff.mp hother] at hlast; cases hlast
    | some high =>
      change (if low = .lt then _ else _ : Option Bool) ≠ none
      split <;> exact nofun

/-- There is no answer for a tree exactly if every look passes up to one at a child, of whose
offsets one is no number and is compared with the parent's. -/
theorem check_eq_incomparable_iff {node : LooseNode} : node.check source = .error .incomparable ↔
    ∃ before parent child after offsets,
      node.checkpoints = before ++ .inside parent child :: after ∧
      (∀ passed ∈ before, passed.verdict source = .ok ()) ∧
      parent.offsets? = some offsets ∧ isInside? offsets child.range = none := by
  rw [check_eq_error_iff]
  constructor
  · rintro ⟨before, point, after, heq, hbefore, hpoint⟩
    cases point with
    | alone inner =>
      rw [Checkpoint.verdict] at hpoint
      split at hpoint <;> cases hpoint
    | inside parent child =>
      rw [Checkpoint.verdict] at hpoint
      split at hpoint
      · cases hpoint
      · next offsets hoffsets =>
        refine ⟨before, parent, child, after, offsets, heq, hbefore, hoffsets, ?_⟩
        split at hpoint
        · assumption
        · cases hpoint
        · cases hpoint
  · rintro ⟨before, parent, child, after, offsets, heq, hbefore, hoffsets, hinside⟩
    refine ⟨before, .inside parent child, after, heq, hbefore, ?_⟩
    rw [Checkpoint.verdict, hoffsets]
    dsimp only
    rw [hinside]

/-- A rule that a tree breaks is broken by one of its nodes. -/
theorem exists_node_of_broken {node : LooseNode} {rule : ValidationRule} {kind : Text}
    (h : node.check source = .error (.broken rule kind)) :
    ∃ inner ∈ node.nodes, kind = inner.kind.name := by
  obtain ⟨before, point, after, heq, -, hpoint⟩ := check_eq_error_iff.mp h
  have hmem : point ∈ node.checkpoints := by
    rw [heq]
    exact List.mem_append_right _ List.mem_cons_self
  obtain ⟨inner, hinner, rfl | ⟨child, -, rfl⟩⟩ := (mem_checkpoints_iff node).mp hmem
  · rw [Checkpoint.verdict] at hpoint
    split at hpoint <;> cases hpoint
    exact ⟨inner, hinner, rfl⟩
  · rw [Checkpoint.verdict] at hpoint
    split at hpoint
    · cases hpoint
    · split at hpoint <;> cases hpoint
      exact ⟨inner, hinner, rfl⟩

/-- The validation of a tree in which all offsets below the root are numbers: it is accepted, or a
rule is named that one of its nodes breaks. A tree with a node whose offsets are not integers is not
accepted; if the looks before the one at the node pass, and the node is of a known kind and has a
text for its literal text, the node is reported for its offsets. -/
theorem answered_of_numbers {text : Text} {root : LooseNode}
    (hnumbers : ∀ node ∈ root.nodes, ∀ child ∈ node.children,
      isNumber child.range.1 ∧ isNumber child.range.2) :
    (root.validate text = .ok () ∨ ∃ rule, ∃ node ∈ root.nodes,
      root.validate text = .error (.broken rule node.kind.name)) ∧
    ∀ node ∈ root.nodes, offsets? node = none →
      root.validate text ≠ .ok () ∧
      ∀ before after value, root.checkpoints = before ++ .alone node :: after →
        (∀ passed ∈ before, passed.verdict (.ofText text) = .ok ()) →
        node.kind.isKnown → node.raw = .text value →
        root.validate text = .error (.broken .rangeNotIntegers node.kind.name) := by
  refine ⟨?_, fun node hnode hoffsets ↦ ⟨fun hok ↦ ?_, ?_⟩⟩
  · cases hrun : root.validate text with
    | ok => exact .inl rfl
    | error problem =>
      cases problem with
      | broken rule kind =>
        obtain ⟨node, hnode, rfl⟩ := exists_node_of_broken hrun
        exact .inr ⟨rule, node, hnode, rfl⟩
      | incomparable =>
        obtain ⟨before, parent, child, after, offsets, heq, -, -, hinside⟩ :=
          check_eq_incomparable_iff.mp hrun
        have hmem : .inside parent child ∈ root.checkpoints := by
          rw [heq]
          exact List.mem_append_right _ List.mem_cons_self
        obtain ⟨inner, hinner, hpoint | ⟨other, hother, hpoint⟩⟩ :=
          (mem_checkpoints_iff root).mp hmem
        · cases hpoint
        · cases hpoint
          obtain ⟨hfirst, hlast⟩ := hnumbers parent hinner child hother
          exact absurd hinside (isInside?_ne_none hfirst hlast)
  · obtain ⟨offsets, hsound, -⟩ := check_eq_ok_iff.mp hok node hnode
    cases hoffsets.symm.trans hsound.integers
  · intro before after value heq hbefore hknown hraw
    refine check_eq_error_iff.mpr ⟨before, .alone node, after, heq, hbefore, ?_⟩
    rw [Checkpoint.verdict, alone_of_not_integers hknown hraw hoffsets]

/-- A document of the text `a` with one leaf, whose first offset is some value. -/
def documentOfLeaf (first : Value) : LooseNode :=
  .mk .document (.text []) ⟨⟨1, 0⟩, ⟨1, 1⟩⟩ (.integer 0, .integer 1)
    [.mk .str (.text ['a']) ⟨⟨1, 0⟩, ⟨1, 1⟩⟩ (first, .integer 1) []]

/-- A leaf whose first offset is the number one, but no integer. -/
theorem answered_floatOffset :
    let root := documentOfLeaf (.float (.finite false Binary64.leastFullMantissa (-52)))
    (∀ node ∈ root.nodes, ∀ child ∈ node.children,
      isNumber child.range.1 ∧ isNumber child.range.2) ∧
    root.validate ['a'] = .error (.broken .rangeNotIntegers "Str".toList) ∧
    (root.validate ['a'] = .ok () ∨ ∃ rule, ∃ node ∈ root.nodes,
      root.validate ['a'] = .error (.broken rule node.kind.name)) := by
  intro root
  have hnumbers : ∀ node ∈ root.nodes, ∀ child ∈ node.children,
      isNumber child.range.1 ∧ isNumber child.range.2 := by
    decide
  obtain ⟨hanswered, hreported⟩ := @answered_of_numbers ['a'] root hnumbers
  obtain ⟨-, hleaf⟩ := hreported _ (.tail _ (.head _)) rfl
  exact ⟨hnumbers, hleaf [.alone root, .inside root _] [] ['a'] rfl
    (List.forall_mem_cons.mpr ⟨rfl, List.forall_mem_singleton.mpr rfl⟩) rfl rfl, hanswered⟩

/-- Trees whose leaf is not reported for its offsets: there is no answer for one with a text among
them, and for a number outside the document's offsets the document is reported. -/
theorem unreported_offsets :
    (documentOfLeaf (.text ['x'])).validate ['a'] = .error .incomparable ∧
    let minusOne : Value := .float (.finite true Binary64.leastFullMantissa (-52))
    (documentOfLeaf minusOne).validate ['a'] = .error (.broken
      (.childOutsideParent "Str".toList (minusOne, .integer 1)) "Document".toList) :=
  ⟨rfl, rfl⟩

end Numbers

end LooseNode

end AsciidocSpans
