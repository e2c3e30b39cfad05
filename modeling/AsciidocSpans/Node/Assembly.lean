import AsciidocSpans.Node.Basic
import AsciidocSpans.Source.Basic
import AsciidocSpans.Text.Search

/-!
Building located nodes. A node gets its offsets from its span and the source: leaves and nodes with
a span of their own from a given span, containers from the span that covers their children. A
document's text is the part of the source that it covers.
-/

set_option autoImplicit false
set_option relaxedAutoImplicit false

namespace AsciidocSpans

/-- Why a node cannot be built. -/
inductive AssemblyError where
  /-- A span names a line that the source does not have. -/
  | noSuchLine
  /-- There is nothing to cover. -/
  | nothingToCover
  deriving DecidableEq, Repr

namespace Node

/-- A node with a given span and children. -/
def located (source : Source) (kind : NodeKind) (raw : Text) (location : Location)
    (children : List Node) : Except AssemblyError Node :=
  match source.range? location with
  | some range => .ok (.mk kind raw location range children)
  | none => .error .noSuchLine

/-- A leaf that holds literal text. -/
def str (source : Source) (value : Text) (location : Location) : Except AssemblyError Node :=
  located source .str value location []

/-- A node around a single leaf that holds its text. -/
def aroundText (source : Source) (kind : NodeKind) (value : Text) (location : Location) :
    Except AssemblyError Node := do
  located source kind value location [← str source value location]

/-- The span that covers some spans, of which there has to be one. -/
def coveringSpan : List Location → Except AssemblyError Location
  | [] => .error .nothingToCover
  | first :: others => .ok (first.unionAll others)

/-- A node that covers its children. -/
def around (source : Source) (kind : NodeKind) (raw : Text) (children : List Node) :
    Except AssemblyError Node := do
  located source kind raw (← coveringSpan (children.map (·.location))) children

/-- A document that covers its children and holds the text that it covers. -/
def documentAround (source : Source) (children : List Node) : Except AssemblyError Node := do
  let location ← coveringSpan (children.map (·.location))
  match source.range? location with
  | some range =>
    .ok (.mk .document (source.text.slice range.1 range.2) location range children)
  | none => .error .noSuchLine

/-- The document of a text in which nothing is located. -/
def emptyDocument : Node :=
  .mk .document [] ⟨⟨1, 0⟩, ⟨1, 0⟩⟩ (0, 0) []

end Node

end AsciidocSpans
