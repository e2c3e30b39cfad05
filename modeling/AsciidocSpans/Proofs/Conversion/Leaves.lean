import AsciidocSpans.Conversion.Document
import AsciidocSpans.Proofs.Element.OwnText
import AsciidocSpans.Proofs.Node.Subtree
import AsciidocSpans.Proofs.Span.Offsets
import Mathlib.Data.List.Forall2

/-!
The leaves that hold the own text of elements. In a located tree, titles and paragraphs are the
nodes that show what an element says; the leaf directly below such a node holds its text
(`Node.ownLeaves`). `Placed` says that some leaves hold some own texts, one by one, each on the line
of its element, and that they stand between two positions, none of them before the end of another
one that comes earlier.
-/

set_option autoImplicit false
set_option relaxedAutoImplicit false

namespace AsciidocSpans

/-- Whether a node shows what an element says by itself: whether it is a title or a paragraph. -/
def NodeKind.showsOwnText : NodeKind → Bool
  | .header _ | .paragraph => true
  | _ => false

namespace Node

/-- The leaves directly below a node, if it shows what an element says. -/
def leavesHere (node : Node) : List Node :=
  if node.kind.showsOwnText then node.children.filter (·.kind == .str) else []

/-- The leaves in a tree that hold the own text of elements, in document order. -/
def ownLeaves (node : Node) : List Node :=
  node.nodes.flatMap leavesHere

/-- The leaves in some trees that hold the own text of elements. -/
def ownLeavesOf (nodes : List Node) : List Node :=
  nodes.flatMap ownLeaves

theorem ownLeavesOf_append (nodes others : List Node) :
    ownLeavesOf (nodes ++ others) = ownLeavesOf nodes ++ ownLeavesOf others :=
  List.flatMap_append

theorem flatMap_nodesOfAll (children : List Node) :
    (NodeOf.nodesOfAll children).flatMap leavesHere = ownLeavesOf children := by
  induction children with
  | nil => rfl
  | cons child rest ih =>
    rw [NodeOf.nodesOfAll, List.flatMap_append, ih]
    rfl

/-- The leaves of a node are its own ones and those of its children. -/
theorem ownLeaves_mk (kind : NodeKind) (raw : Text) (location : Location) (range : Int × Int)
    (children : List Node) :
    ownLeaves (.mk kind raw location range children) =
      (if kind.showsOwnText then children.filter (·.kind == .str) else []) ++
        ownLeavesOf children := by
  rw [ownLeaves, NodeOf.nodes, List.flatMap_cons, flatMap_nodesOfAll]
  rfl

/-- A leaf by itself shows nothing. -/
theorem ownLeaves_str (raw : Text) (location : Location) (range : Int × Int) :
    ownLeaves (.mk .str raw location range []) = [] := by
  rw [ownLeaves_mk]
  rfl

end Node

/-- Leaves hold own texts, one by one, each on the line of its element, in order between two
positions. -/
inductive Placed : Position → Position → List OwnText → List Node → Prop
  | nil {low high : Position} (le : low ≤ high) : Placed low high [] []
  | cons {low high : Position} {own : OwnText} {owns : List OwnText} {leaf : Node}
      {leaves : List Node} (raw : leaf.raw = own.text)
      (line : leaf.location.start.line = own.lineno) (after : low ≤ leaf.location.start)
      (ordered : leaf.location.start ≤ leaf.location.stop)
      (others : Placed leaf.location.stop high owns leaves) :
      Placed low high (own :: owns) (leaf :: leaves)

namespace Placed

variable {low middle high : Position} {owns others : List OwnText} {leaves further : List Node}

theorem le (h : Placed low high owns leaves) : low ≤ high := by
  induction h with
  | nil le => exact le
  | cons _ _ after ordered _ ih => exact Position.le_trans (Position.le_trans after ordered) ih

theorem mono_low {earlier : Position} (h : Placed low high owns leaves) (hle : earlier ≤ low) :
    Placed earlier high owns leaves := by
  cases h with
  | nil le => exact .nil (Position.le_trans hle le)
  | cons raw line after ordered rest =>
    exact .cons raw line (Position.le_trans hle after) ordered rest

theorem mono_high {later : Position} (h : Placed low high owns leaves) (hle : high ≤ later) :
    Placed low later owns leaves := by
  induction h with
  | nil le => exact .nil (Position.le_trans le hle)
  | cons raw line after ordered _ ih => exact .cons raw line after ordered (ih hle)

/-- Leaves behind leaves are in their places. -/
theorem append (h : Placed low middle owns leaves) (hothers : Placed middle high others further) :
    Placed low high (owns ++ others) (leaves ++ further) := by
  induction h with
  | nil le => exact hothers.mono_low le
  | cons raw line after ordered _ ih => exact .cons raw line after ordered (ih hothers)

/-- Every own text has its leaf, and every leaf its own text. -/
theorem forall₂ (h : Placed low high owns leaves) : List.Forall₂ (fun own leaf ↦
    leaf.raw = own.text ∧ leaf.location.start.line = own.lineno) owns leaves := by
  induction h with
  | nil => exact .nil
  | cons raw line _ _ _ ih => exact .cons ⟨raw, line⟩ ih

theorem start_le (h : Placed low high owns leaves) :
    ∀ leaf ∈ leaves, low ≤ leaf.location.start := by
  induction h with
  | nil => exact nofun
  | cons _ _ after ordered _ ih =>
    intro other hother
    rcases List.mem_cons.mp hother with rfl | hmem
    · exact after
    · exact Position.le_trans (Position.le_trans after ordered) (ih other hmem)

theorem le_stop (h : Placed low high owns leaves) :
    ∀ leaf ∈ leaves, low ≤ leaf.location.stop := by
  induction h with
  | nil => exact nofun
  | cons _ _ after ordered _ ih =>
    have hstop := Position.le_trans after ordered
    intro other hother
    rcases List.mem_cons.mp hother with rfl | hmem
    · exact hstop
    · exact Position.le_trans hstop (ih other hmem)

theorem stop_le (h : Placed low high owns leaves) :
    ∀ leaf ∈ leaves, leaf.location.stop ≤ high := by
  induction h with
  | nil => exact nofun
  | cons _ _ _ _ rest ih =>
    intro other hother
    rcases List.mem_cons.mp hother with rfl | hmem
    · exact rest.le
    · exact ih other hmem

/-- Leaves are in their places before any position at which all of them have ended. -/
theorem of_stop_le {bound : Position} (h : Placed low high owns leaves) (hlow : low ≤ bound)
    (hbound : ∀ leaf ∈ leaves, leaf.location.stop ≤ bound) : Placed low bound owns leaves := by
  induction h with
  | nil => exact .nil hlow
  | cons raw line after ordered _ ih =>
    exact .cons raw line after ordered (ih (hbound _ List.mem_cons_self)
      fun other hother ↦ hbound other (List.mem_cons_of_mem _ hother))

/-- No leaf starts before the end of a leaf that comes earlier. -/
theorem pairwise (h : Placed low high owns leaves) :
    leaves.Pairwise fun first second ↦ first.location.stop ≤ second.location.start := by
  induction h with
  | nil => exact .nil
  | cons _ _ _ _ rest ih => exact .cons rest.start_le ih

end Placed

end AsciidocSpans
