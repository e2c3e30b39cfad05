import AsciidocSpans.Node.Serialized
import AsciidocSpans.Proofs.Node.Subtree
import Mathlib.Data.Set.Function

/-!
Reading nodes back from JSON. Every member that writing a node gives is found again under its name:
the kind of the node under its type, with what only such nodes have beside it, and the children in
their list. A leaf has no such list and is read without children. What is missing is told from what
is empty, so a code block without a language is not one with an empty language.

`Recoverable` trees are those in which all kinds are known and no leaf has anything below it. They
are read back as they were (`readsBack_of_recoverable`), so writing them loses nothing. The
condition is needed on both counts: the children of a leaf are not written, and a kind that is not
known could have the name of one that is.
-/

set_option autoImplicit false
set_option relaxedAutoImplicit false

namespace AsciidocSpans

namespace Json

/-- The number that a value is. -/
def integer? : Json → Option Int
  | integer value => some value
  | _ => none

/-- The text that a value is. -/
def text? : Json → Option Text
  | text value => some value
  | _ => none

/-- The number under a name in an object. -/
def integerIn? (members : List (Text × Json)) (name : Text) : Option Int :=
  (members.lookup name).bind integer?

/-- The text under a name in an object. -/
def textIn? (members : List (Text × Json)) (name : Text) : Option Text :=
  (members.lookup name).bind text?

end Json

/-- The position that a value gives. -/
def Position.ofJson? : Json → Option Position
  | .object members => do
    return ⟨← Json.integerIn? members "line".toList, ← Json.integerIn? members "column".toList⟩
  | _ => none

/-- The span that a value gives. -/
def Location.ofJson? : Json → Option Location
  | .object members => do
    return ⟨← (members.lookup "start".toList).bind Position.ofJson?,
      ← (members.lookup "end".toList).bind Position.ofJson?⟩
  | _ => none

namespace NodeKind

/-- The known kinds that are nothing but their name. -/
def plainKinds : List NodeKind :=
  [document, paragraph, list, listItem, blockQuote, table, tableRow, tableCell, sidebar, image,
    attributeList, identifier, blockTitle, tableOfContents, str, author, authorName, authorEmail]

/-- The kind of a node, by the name of the kind and the members of the node. -/
def ofMembers? (members : List (Text × Json)) (name : Text) : Option NodeKind :=
  if name = "Header".toList then (Json.integerIn? members "depth".toList).map header
  else if name = "CodeBlock".toList then some (codeBlock (Json.textIn? members "lang".toList))
  else if name = "Attribute".toList then (Json.textIn? members "name".toList).map namedAttribute
  else if name = "Admonition".toList then (Json.textIn? members "style".toList).map admonition
  else plainKinds.find? (·.name == name)

end NodeKind

namespace Node

/-- The offsets that a value gives. -/
def rangeOf? : Json → Option (Int × Int)
  | .array [.integer first, .integer last] => some (first, last)
  | _ => none

mutual

/-- The node that a value gives. -/
def ofJson? : Json → Option Node
  | .object members => do
    let kind ← (Json.textIn? members "type".toList).bind (NodeKind.ofMembers? members)
    let raw ← Json.textIn? members "raw".toList
    let location ← (members.lookup "loc".toList).bind Location.ofJson?
    let range ← (members.lookup "range".toList).bind rangeOf?
    return .mk kind raw location range (← childrenOf? members)
  | _ => none

/-- The children under the members of an object; none if there is no list of them. -/
def childrenOf? : List (Text × Json) → Option (List Node)
  | [] => some []
  | (name, value) :: rest =>
    if name = "children".toList then listed? value else childrenOf? rest

/-- The nodes that a list of values gives. -/
def listed? : Json → Option (List Node)
  | .array items => ofJsonAll? items
  | _ => none

/-- The nodes that values give. -/
def ofJsonAll? : List Json → Option (List Node)
  | [] => some []
  | item :: rest => do return (← ofJson? item) :: (← ofJsonAll? rest)

end

end Node

/-! ### Members found under their names -/

section Members

variable {kind : NodeKind} {raw : Text} {location : Location} {range : Int × Int}
  {children : List Json}

theorem Node.textIn?_type :
    Json.textIn? (members kind raw location range children) "type".toList = some kind.name := by
  cases kind <;> rfl

theorem Node.textIn?_raw :
    Json.textIn? (members kind raw location range children) "raw".toList = some raw := by
  cases kind with
  | codeBlock language => cases language <;> rfl
  | _ => rfl

theorem Node.lookup_loc :
    (members kind raw location range children).lookup "loc".toList = some location.toJson := by
  cases kind with
  | codeBlock language => cases language <;> rfl
  | _ => rfl

theorem Node.lookup_range :
    (members kind raw location range children).lookup "range".toList =
      some (.array [.integer range.1, .integer range.2]) := by
  cases kind with
  | codeBlock language => cases language <;> rfl
  | _ => rfl

theorem NodeKind.ofMembers?_members (h : kind.isKnown = true) :
    ofMembers? (Node.members kind raw location range children) kind.name = some kind := by
  cases kind with
  | codeBlock language => cases language <;> rfl
  | unknown name => cases h
  | _ => rfl

theorem Node.childrenOf?_members (h : kind ≠ .str) :
    childrenOf? (members kind raw location range children) = ofJsonAll? children := by
  cases kind with
  | codeBlock language => cases language <;> rfl
  | str => exact absurd rfl h
  | _ => rfl

theorem Node.childrenOf?_members_str :
    childrenOf? (members .str raw location range children) = some [] :=
  rfl

end Members

/-! ### Trees that are read back -/

namespace Node

/-- All kinds in a tree are known, and no leaf has anything below it. -/
def Recoverable (node : Node) : Prop :=
  ∀ inner ∈ node.nodes, inner.kind.isKnown = true ∧ (inner.kind = .str → inner.children = [])

theorem recoverable_iff {kind : NodeKind} {raw : Text} {location : Location} {range : Int × Int}
    {children : List Node} :
    Recoverable (.mk kind raw location range children) ↔
      (kind.isKnown = true ∧ (kind = .str → children = [])) ∧
        ∀ child ∈ children, Recoverable child :=
  NodeOf.forall_mem_nodes_iff

/-- The children of a node are read from its members, be it a leaf or not. -/
theorem childrenOf?_eq {kind : NodeKind} {raw : Text} {location : Location} {range : Int × Int}
    {children : List Node} (hleaf : kind = .str → children = [])
    (h : ofJsonAll? (toJsonAll children) = some children) :
    childrenOf? (members kind raw location range (toJsonAll children)) = some children := by
  by_cases hstr : kind = .str
  · rw [hstr, childrenOf?_members_str, hleaf hstr]
  · rw [childrenOf?_members hstr, h]

mutual

/-- A recoverable tree is read back as it was. -/
theorem ofJson?_toJson (node : Node) (h : Recoverable node) :
    ofJson? (toJson node) = some node := by
  match node with
  | .mk kind raw location range children =>
    obtain ⟨⟨hknown, hleaf⟩, hbelow⟩ := recoverable_iff.mp h
    have hchildren : childrenOf? (members kind raw location range (toJsonAll children)) =
        some children := childrenOf?_eq hleaf (ofJsonAll?_toJsonAll children hbelow)
    rw [toJson, ofJson?, textIn?_type, Option.bind_some, NodeKind.ofMembers?_members hknown,
      textIn?_raw, lookup_loc, lookup_range, hchildren]
    rfl

theorem ofJsonAll?_toJsonAll (nodes : List Node) (h : ∀ node ∈ nodes, Recoverable node) :
    ofJsonAll? (toJsonAll nodes) = some nodes := by
  match nodes with
  | [] => rfl
  | node :: rest =>
    have hrest : ∀ other ∈ rest, Recoverable other :=
      fun other hother ↦ h other (List.mem_cons_of_mem _ hother)
    rw [toJsonAll, ofJsonAll?, ofJson?_toJson node (h node List.mem_cons_self),
      ofJsonAll?_toJsonAll rest hrest]
    rfl

end

/-- What is written of a recoverable tree gives the tree back, and of no other such tree is the same
written. -/
theorem readsBack_of_recoverable {node : Node} (h : Recoverable node) :
    ofJson? (toJson node) = some node ∧
      ∀ other, Recoverable other → toJson other = toJson node → other = node := by
  have hnode := ofJson?_toJson node h
  refine ⟨hnode, fun other hother heq ↦ ?_⟩
  have hboth : some other = some node := by
    rw [← ofJson?_toJson other hother, heq, hnode]
  exact Option.some_inj.mp hboth

/-- A document with a header, an admonition and three code blocks, one without a language, one with
an empty one and one in a language. -/
def variedDocument : Node :=
  let span : Location := ⟨⟨1, 0⟩, ⟨1, 1⟩⟩
  .mk .document [] span (0, 1)
    [.mk (.header 2) ['a'] span (0, 1) [.mk .str ['a'] span (0, 1) []],
      .mk (.admonition "TIP".toList) [] span (0, 1)
        [.mk (.codeBlock none) ['a'] span (0, 1) [],
          .mk (.codeBlock (some [])) ['a'] span (0, 1) []],
      .mk .image ['a'] span (0, 1) [.mk (.namedAttribute "alt".toList) ['a'] span (0, 1) []],
      .mk (.codeBlock (some "c".toList)) ['a'] span (0, 1) []]

theorem recoverable_variedDocument : Recoverable variedDocument := by
  unfold Recoverable
  decide

theorem readsBack_variedDocument :
    Recoverable variedDocument ∧ ofJson? (toJson variedDocument) = some variedDocument ∧
      ∀ other, Recoverable other → toJson other = toJson variedDocument →
        other = variedDocument :=
  ⟨recoverable_variedDocument, readsBack_of_recoverable recoverable_variedDocument⟩

end Node

end AsciidocSpans
