import AsciidocSpans.Node.Basic

/-!
The outline of a tree: one line a node, indented by its depth, with its type and its span. The line
of a leaf also shows its text, and the nodes below a leaf are left out.
-/

set_option autoImplicit false
set_option relaxedAutoImplicit false

namespace AsciidocSpans

/-- Texts, nested as the tree from which they were gathered. -/
inductive NestedTexts where
  | text (value : Text)
  | group (parts : List NestedTexts)

namespace Node

/-- The span and the offsets of a node. -/
def spanText (location : Location) (range : Int × Int) : String :=
  s!"{location.start.line}:{location.start.column}-{location.stop.line}:{location.stop.column}" ++
    s!" [{range.1}, {range.2}]"

/-- The line of a node at a nesting depth. -/
def outlineLine (depth : Nat) (kind : NodeKind) (raw : Text) (location : Location)
    (range : Int × Int) : Text :=
  let indent := List.replicate (2 * depth) ' '
  let head := indent ++ kind.name ++ ' ' :: (spanText location range).toList
  match kind with
  | .str => head ++ [':', ' '] ++ raw.quoted
  | _ => head

mutual

/-- The lines of a tree at a nesting depth. -/
def outlineLines (depth : Nat) : Node → List Text
  | .mk kind raw location range children =>
    outlineLine depth kind raw location range ::
      match kind with
      | .str => []
      | _ => outlineAll (depth + 1) children

/-- The lines of trees at a nesting depth. -/
def outlineAll (depth : Nat) : List Node → List Text
  | [] => []
  | node :: rest => outlineLines depth node ++ outlineAll depth rest

end

/-- The outline of a tree, each line ended by a newline. -/
def outline (node : Node) : Text :=
  (outlineLines 0 node).flatMap (· ++ ['\n'])

mutual

/-- The texts of the leaves of a tree, nested as the tree is. -/
def leafTexts : Node → NestedTexts
  | .mk kind raw _ _ children =>
    match kind with
    | .str => .text raw
    | _ => .group (leafTextsAll children)

/-- The texts of the leaves of trees. -/
def leafTextsAll : List Node → List NestedTexts
  | [] => []
  | node :: rest => leafTexts node :: leafTextsAll rest

end

end Node

end AsciidocSpans
