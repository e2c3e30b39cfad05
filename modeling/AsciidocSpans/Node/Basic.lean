import AsciidocSpans.Position
import AsciidocSpans.Text.Basic
import AsciidocSpans.Value

/-!
Located nodes: the tree that a conversion gives. Every node has its literal text, its span and the
offsets of the two ends of that span. In a `Node` the text is a text and the offsets are integers;
a `LooseNode`, as it may come from outside, has values of any type in their places.
-/

set_option autoImplicit false
set_option relaxedAutoImplicit false

namespace AsciidocSpans

/-- What a node stands for, with what only such nodes have. -/
inductive NodeKind where
  | document
  | header (depth : Int)
  | paragraph
  | list
  | listItem
  | blockQuote
  | codeBlock (language : Option Text)
  | table
  | tableRow
  | tableCell
  | admonition (style : Text)
  | sidebar
  | image
  | attributeList
  | namedAttribute (name : Text)
  | identifier
  | blockTitle
  | tableOfContents
  | str
  | author
  | authorName
  | authorEmail
  /-- A kind that is not among the known ones, by its name. -/
  | unknown (name : Text)
  deriving DecidableEq, Repr

namespace NodeKind

/-- The name of a kind. -/
def name : NodeKind → Text
  | document => "Document".toList
  | header _ => "Header".toList
  | paragraph => "Paragraph".toList
  | list => "List".toList
  | listItem => "ListItem".toList
  | blockQuote => "BlockQuote".toList
  | codeBlock _ => "CodeBlock".toList
  | table => "Table".toList
  | tableRow => "TableRow".toList
  | tableCell => "TableCell".toList
  | admonition _ => "Admonition".toList
  | sidebar => "Sidebar".toList
  | image => "Image".toList
  | attributeList => "Attributes".toList
  | namedAttribute _ => "Attribute".toList
  | identifier => "ID".toList
  | blockTitle => "BlockTitle".toList
  | tableOfContents => "TOC".toList
  | str => "Str".toList
  | author => "Author".toList
  | authorName => "AuthorName".toList
  | authorEmail => "AuthorEmail".toList
  | unknown name => name

/-- Whether a kind is among the known ones. -/
def isKnown : NodeKind → Bool
  | unknown _ => false
  | _ => true

end NodeKind

/-- A node whose literal text is of one type and whose offsets are of another. -/
inductive NodeOf (Raw Offset : Type) where
  | mk (kind : NodeKind) (raw : Raw) (location : Location) (range : Offset × Offset)
    (children : List (NodeOf Raw Offset))

/-- A located node. -/
abbrev Node := NodeOf Text Int

/-- A node with values of any type for its text and its offsets. -/
abbrev LooseNode := NodeOf Value Value

namespace NodeOf

variable {Raw Offset : Type}

/-- What a node stands for. -/
def kind : NodeOf Raw Offset → NodeKind
  | mk kind _ _ _ _ => kind

/-- The literal text of a node; empty when it has no single one. -/
def raw : NodeOf Raw Offset → Raw
  | mk _ raw _ _ _ => raw

/-- The span of a node. -/
def location : NodeOf Raw Offset → Location
  | mk _ _ location _ _ => location

/-- The offsets of a node's start and stop. -/
def range : NodeOf Raw Offset → Offset × Offset
  | mk _ _ _ range _ => range

/-- The nodes below a node, in document order. -/
def children : NodeOf Raw Offset → List (NodeOf Raw Offset)
  | mk _ _ _ _ children => children

end NodeOf

namespace Node

mutual

/-- A located node as one with values of any type. -/
def loosen : Node → LooseNode
  | .mk kind raw location range children =>
    .mk kind (.text raw) location (.integer range.1, .integer range.2) (loosenAll children)

/-- Located nodes as ones with values of any type. -/
def loosenAll : List Node → List LooseNode
  | [] => []
  | node :: rest => loosen node :: loosenAll rest

end

/-- The label of a node's kind with the node's offsets. -/
def summary (node : Node) : String :=
  let label :=
    if node.kind.isKnown then s!"TxtAST{String.ofList node.kind.name}Node" else "OtherNode"
  s!"{label}({node.range.1}-{node.range.2})"

end Node

end AsciidocSpans
