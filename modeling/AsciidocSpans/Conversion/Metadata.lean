import AsciidocSpans.Conversion.Basic

/-!
Locating the metadata of blocks. Ids and block titles are written before the block they belong to
and are looked for backwards from it. The attributes of a table are shown as one text, made from
those that are set, at the first opening bracket before the table. Image attributes are looked for
on the image's own line, and authors one after the other on the author line.
-/

set_option autoImplicit false
set_option relaxedAutoImplicit false

namespace AsciidocSpans.Converter

/-- The node of an id that is written before a window. -/
def convertId (converter : Converter) (id : Option Text) (window : Window) :
    Conversion (Option Node) := do
  match id with
  | some (c :: rest) =>
    match ← converter.locateBefore [c :: rest] window converter.settings.idLookback with
    | some location =>
      return some (← assembled (Node.aroundText converter.source .identifier (c :: rest) location))
    | none => return none
  | _ => return none

/-- The node of a block title that is written before a window. -/
def convertBlockTitle (converter : Converter) (info : ElementInfo) (window : Window) :
    Conversion (Option Node) := do
  match info.title with
  | some (c :: rest) =>
    let raw := '.' :: c :: rest
    match ← converter.locateBefore [raw] window converter.settings.titleLookback with
    | some location =>
      return some (← assembled (Node.aroundText converter.source .blockTitle raw location))
    | none => return none
  | _ => return none

/-- The attributes of a table that are shown: those that are set and not on the denylist, which is
of no matter if there are none. -/
def shownAttributes? (denylist : Value) (attributes : Attributes) : Option Attributes :=
  if attributes.isEmpty then some attributes
  else denylist.membership?.map fun isDenied ↦
    attributes.filter fun name value ↦ !isDenied name && !value.isEmpty

/-- The body of an attribute list that gives some attributes by name. -/
def attributeListBody (attributes : Attributes) : Text :=
  Text.joinWith [','] (attributes.toList.map fun pair ↦ pair.1 ++ ['=', '"'] ++ pair.2 ++ ['"'])

/-- The span of an attribute list of a given length whose opening bracket was found: it ends with
its line at the latest. -/
def attributeListSpan (source : Source) (found : Location) (length : Nat) : Location :=
  let width := ((source.line? found.start.line).getD []).length
  { start := found.start
    stop := ⟨found.start.line, min (found.start.column + length) width⟩ }

/-- The node of a table's attributes. -/
def convertTableAttributes (converter : Converter) (attributes : Attributes) (window : Window) :
    Conversion (Option Node) := do
  let shown ← usable (shownAttributes? converter.settings.tableAttributeDenylist attributes)
  if shown.isEmpty then return none
  else
    let raw := '[' :: attributeListBody shown ++ [']']
    let first ← usable (converter.settings.attributesLookback.highestLine? window)
    let search := { minLine := first, maxLine := window.minLine }
    match ← converter.find false [['[']] search with
    | some found =>
      let location := attributeListSpan converter.source found raw.length
      return some (← assembled (Node.aroundText converter.source .attributeList raw location))
    | none => return none

/-- The node of an image's attribute with the given name. One that is not found is reported. -/
def convertNamedAttribute (converter : Converter) (info : ElementInfo) (name : Text) :
    Conversion (Option Node) := do
  match info.attributes.get? name with
  | some (c :: value) =>
    let window := { minLine := info.lineno, maxLine := info.lineno }
    match ← converter.find false [c :: value] window with
    | some location =>
      return some (← assembled
        (Node.aroundText converter.source (.namedAttribute name) (c :: value) location))
    | none =>
      let wanted := String.ofList (name ++ '=' :: Text.quoted (c :: value))
      report .metadataConversion s!"Image attribute {wanted} not found on line {info.lineno}"
      return none
  | _ => return none

/-- The nodes of an image's attributes with the given names, in the order of the names. A name that
is no text names nothing, and a collection can be no name at all. -/
def convertNamedAttributes (converter : Converter) (info : ElementInfo) :
    List Value → Conversion (List Node)
  | [] => return []
  | .text name :: rest => do
    let node ← converter.convertNamedAttribute info name
    return node.toList ++ (← converter.convertNamedAttributes info rest)
  | name :: rest =>
    if name.isCollection then throw .unusableSetting
    else converter.convertNamedAttributes info rest

/-- The nodes of an image's attributes, in document order. -/
def convertImageAttributes (converter : Converter) (info : ElementInfo) :
    Conversion (List Node) := do
  let names ← usable converter.settings.imageAttributeNames.listed?
  let nodes ← converter.convertNamedAttributes info names
  return nodes.mergeSort fun a b ↦ a.range.1 ≤ b.range.1

/-- The node of literal text that is found in a window; none for text that is not there. -/
def convertText? (converter : Converter) (kind : NodeKind) (value : Text) (window : Window) :
    Conversion (Option Node) := do
  match ← converter.find false [value] window with
  | some location =>
    return some (← assembled (Node.aroundText converter.source kind value location))
  | none => return none

/-- The nodes of an author's name and address, looked for in this order from a column on. -/
def convertAuthorParts (converter : Converter) (author : Author) (column : Int) :
    Conversion (List Node) := do
  let lineno := author.info.lineno
  let window := { minLine := lineno, maxLine := lineno, startColumn := column }
  let name ← converter.convertText? .authorName author.name window
  let behind := match name with
    | some node => window.fromColumn node.location.stop.column
    | none => window
  match author.email with
  | some (c :: rest) =>
    let email ← converter.convertText? .authorEmail (c :: rest) behind
    return name.toList ++ email.toList
  | _ => return name.toList

/-- The nodes of authors, each looked for behind the one before. -/
def convertAuthors (converter : Converter) (column : Int) : List Author → Conversion (List Node)
  | [] => return []
  | author :: rest => do
    let parts ← converter.convertAuthorParts author column
    match parts.getLast? with
    | some last =>
      let node ← assembled (Node.around converter.source .author [] parts)
      return node :: (← converter.convertAuthors last.location.stop.column rest)
    | none =>
      let name := String.ofList author.name.quoted
      report .metadataConversion s!"Author {name} not found on line {author.info.lineno}"
      converter.convertAuthors column rest

end AsciidocSpans.Converter
