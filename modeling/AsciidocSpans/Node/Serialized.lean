import AsciidocSpans.Json
import AsciidocSpans.Node.Basic

/-!
Nodes as JSON. Every node has its type, its literal text, its span and its offsets. A leaf repeats
its text as its value and has no children; all other nodes list theirs. A header adds its depth, an
attribute its name and an admonition its style. A code block adds its language if it has one, and
its text once more as its value.
-/

set_option autoImplicit false
set_option relaxedAutoImplicit false

namespace AsciidocSpans

/-- A position as JSON. -/
def Position.toJson (position : Position) : Json :=
  .object [("line".toList, .integer position.line), ("column".toList, .integer position.column)]

/-- A span as JSON. -/
def Location.toJson (location : Location) : Json :=
  .object [("start".toList, location.start.toJson), ("end".toList, location.stop.toJson)]

/-- The members that only nodes of one kind have. -/
def NodeKind.members : NodeKind → List (Text × Json)
  | .header depth => [("depth".toList, .integer depth)]
  | .codeBlock (some language) => [("lang".toList, .text language)]
  | .namedAttribute name => [("name".toList, .text name)]
  | .admonition style => [("style".toList, .text style)]
  | _ => []

namespace Node

/-- The members that all nodes have behind their children. -/
def spanMembers (raw : Text) (location : Location) (range : Int × Int) : List (Text × Json) :=
  [("raw".toList, .text raw), ("loc".toList, location.toJson),
    ("range".toList, .array [.integer range.1, .integer range.2])]

/-- The members of a node, given its children as JSON. -/
def members (kind : NodeKind) (raw : Text) (location : Location) (range : Int × Int)
    (children : List Json) : List (Text × Json) :=
  let type := ("type".toList, Json.text kind.name)
  let value := ("value".toList, Json.text raw)
  let span := spanMembers raw location range
  let nested := ("children".toList, Json.array children)
  match kind with
  | .str => type :: value :: span
  | .codeBlock _ => type :: kind.members ++ nested :: span ++ [value]
  | _ => type :: kind.members ++ nested :: span

mutual

/-- A node as JSON. -/
def toJson : Node → Json
  | .mk kind raw location range children =>
    .object (members kind raw location range (toJsonAll children))

/-- Nodes as JSON. -/
def toJsonAll : List Node → List Json
  | [] => []
  | node :: rest => toJson node :: toJsonAll rest

end

end Node

end AsciidocSpans
