import AsciidocSpans.Node.Basic

/-!
All the nodes of a tree. `NodeOf.nodes` lists a node and what is below it, in document order, and
`mem_nodes_iff` says which nodes these are. What every node has to do with its children, it has to
do with all nodes below it, if it is a relation that chains (`forall_mem_nodes_of_chains`).
-/

set_option autoImplicit false
set_option relaxedAutoImplicit false

namespace AsciidocSpans.NodeOf

variable {Raw Offset : Type}

mutual

/-- A node and all nodes below it, in document order. -/
def nodes : NodeOf Raw Offset → List (NodeOf Raw Offset)
  | mk kind raw location range children =>
    mk kind raw location range children :: nodesOfAll children

/-- Some nodes and all nodes below them, in document order. -/
def nodesOfAll : List (NodeOf Raw Offset) → List (NodeOf Raw Offset)
  | [] => []
  | node :: rest => nodes node ++ nodesOfAll rest

end

theorem mem_nodesOfAll_iff {inner : NodeOf Raw Offset} {siblings : List (NodeOf Raw Offset)} :
    inner ∈ nodesOfAll siblings ↔ ∃ node ∈ siblings, inner ∈ node.nodes := by
  induction siblings with
  | nil => simp [nodesOfAll]
  | cons node rest ih => simp [nodesOfAll, ih]

/-- The nodes of a tree: its root and the nodes of the trees below the root. -/
theorem mem_nodes_iff {inner node : NodeOf Raw Offset} :
    inner ∈ node.nodes ↔ inner = node ∨ ∃ child ∈ node.children, inner ∈ child.nodes := by
  cases node with
  | mk kind raw location range siblings =>
    rw [nodes, List.mem_cons, mem_nodesOfAll_iff]
    rfl

theorem mem_nodes_self (node : NodeOf Raw Offset) : node ∈ node.nodes :=
  mem_nodes_iff.mpr (Or.inl rfl)

mutual

/-- The children of a node of a tree are nodes of the tree. -/
theorem mem_nodes_of_mem_children {node child : NodeOf Raw Offset}
    (hchild : child ∈ node.children) :
    (root : NodeOf Raw Offset) → node ∈ root.nodes → child ∈ root.nodes
  | mk kind raw location range siblings, hnode => by
    rw [mem_nodes_iff] at hnode ⊢
    rcases hnode with rfl | ⟨next, hnext, hbelow⟩
    · exact Or.inr ⟨child, hchild, mem_nodes_self child⟩
    · have hall := mem_nodesOfAll_of_mem_children hchild siblings
        (mem_nodesOfAll_iff.mpr ⟨next, hnext, hbelow⟩)
      exact Or.inr (mem_nodesOfAll_iff.mp hall)

theorem mem_nodesOfAll_of_mem_children {node child : NodeOf Raw Offset}
    (hchild : child ∈ node.children) :
    (siblings : List (NodeOf Raw Offset)) → node ∈ nodesOfAll siblings →
      child ∈ nodesOfAll siblings
  | [], h => by cases h
  | first :: rest, h => by
    rw [nodesOfAll, List.mem_append] at h ⊢
    rcases h with hfirst | hrest
    · exact Or.inl (mem_nodes_of_mem_children hchild first hfirst)
    · exact Or.inr (mem_nodesOfAll_of_mem_children hchild rest hrest)

end

/-- What holds of a root and of all nodes below its children holds of all nodes of the tree. -/
theorem forall_mem_nodes_iff {node : NodeOf Raw Offset} {P : NodeOf Raw Offset → Prop} :
    (∀ inner ∈ node.nodes, P inner) ↔
      P node ∧ ∀ child ∈ node.children, ∀ inner ∈ child.nodes, P inner := by
  constructor
  · intro h
    exact ⟨h node (mem_nodes_iff.mpr (Or.inl rfl)), fun child hchild inner hinner ↦
      h inner (mem_nodes_iff.mpr (Or.inr ⟨child, hchild, hinner⟩))⟩
  · rintro ⟨hroot, hchildren⟩ inner hinner
    obtain rfl | ⟨child, hchild, hbelow⟩ := mem_nodes_iff.mp hinner
    · exact hroot
    · exact hchildren child hchild inner hbelow

/-- A relation that chains, and that every node has to its children, holds between a node and all
nodes below it. -/
theorem forall_mem_nodes_of_chains {R : NodeOf Raw Offset → NodeOf Raw Offset → Prop}
    (hrefl : ∀ node, R node node) (htrans : ∀ {a b c}, R a b → R b c → R a c) :
    (root : NodeOf Raw Offset) → (∀ node ∈ root.nodes, ∀ child ∈ node.children, R node child) →
      ∀ inner ∈ root.nodes, R root inner
  | mk kind raw location range siblings, h, inner, hinner => by
    obtain rfl | ⟨child, hchild, hbelow⟩ := mem_nodes_iff.mp hinner
    · exact hrefl _
    · have hmem : child ∈ siblings := hchild
      have hinside := forall_mem_nodes_of_chains hrefl htrans child
        (fun node hnode ↦ h node (mem_nodes_iff.mpr (Or.inr ⟨child, hchild, hnode⟩))) inner hbelow
      exact htrans (h _ (mem_nodes_self _) child hchild) hinside

/-- The nodes below a node of a tree are nodes of the tree. -/
theorem mem_nodes_trans {root node inner : NodeOf Raw Offset} (hnode : node ∈ root.nodes)
    (hinner : inner ∈ node.nodes) : inner ∈ root.nodes :=
  forall_mem_nodes_of_chains (R := fun outer lower ↦ ∀ below ∈ lower.nodes, below ∈ outer.nodes)
    (fun _ _ hbelow ↦ hbelow) (fun hab hbc below hbelow ↦ hab below (hbc below hbelow)) root
    (fun _ _ child hchild _ hbelow ↦ mem_nodes_iff.mpr (Or.inr ⟨child, hchild, hbelow⟩))
    node hnode inner hinner

end AsciidocSpans.NodeOf
