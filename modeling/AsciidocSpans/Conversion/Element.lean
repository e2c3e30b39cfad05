import AsciidocSpans.Conversion.Metadata

/-!
Converting elements. Every element becomes the nodes that its text was located in: usually one, for
a section its id, its title and its blocks side by side, and none for an element whose text is not
found or that has no counterpart. An element without nodes is reported by its container, and its
siblings go on without it.
-/

set_option autoImplicit false
set_option relaxedAutoImplicit false

namespace AsciidocSpans

/-- Why an element has no nodes. -/
def Element.omissionReason : Element → String
  | .document _ => "document has no located content"
  | .titledSection info _ _ =>
    s!"title {String.ofList (Text.quoted (info.title.getD []))} not found"
  | .container _ .preamble _ | .container _ .exampleBlock _ => "no content located"
  | .container _ .quote _ => "quote has no located content"
  | .container _ .sidebar _ => "sidebar has no located content"
  | .paragraph .. => "paragraph text not found"
  | .list .. | .descriptionList .. => "no list items located"
  | .listItem _ => "list item has no located content"
  | .listing .. => "code not found"
  | .admonition .. => "admonition has no located content"
  | .table .. => "no cells located"
  | .image .. => "image line not found"
  | .tableOfContents _ => "toc line not found"
  | .header _ | .author _ | .tableCell _ | .unhandled .. => "no output node for this element kind"

namespace Converter

/-- The node of a title. -/
def convertTitle (converter : Converter) (title : Text) (level : Int) (window : Window) :
    Conversion (Option Node) :=
  converter.convertText? (.header (level + 1)) title window

/-- The paragraph of a text that may span several lines. -/
def convertParagraphText (converter : Converter) (text : Text) (window : Window) :
    Conversion (List Node) := do
  match ← converter.find false text.lines window with
  | some location =>
    return [← assembled (Node.aroundText converter.source .paragraph text location)]
  | none => return []

/-- The node of a paragraph, which also covers its block title. -/
def convertParagraph (converter : Converter) (info : ElementInfo) (lines : List Text)
    (window : Window) : Conversion (List Node) := do
  match ← converter.find false lines window with
  | some location =>
    let raw := Text.unlines lines
    let title ← converter.convertBlockTitle info window
    let text ← assembled (Node.str converter.source raw location)
    return [← assembled (Node.around converter.source .paragraph raw (title.toList ++ [text]))]
  | none => return []

/-- The node of a listing, which also covers its block title. -/
def convertListing (converter : Converter) (info : ElementInfo) (lines : List Text)
    (language : Option Text) (window : Window) : Conversion (List Node) := do
  match ← converter.find true lines window with
  | some location =>
    let title ← converter.convertBlockTitle info window
    let span := location.unionAll (title.toList.map (·.location))
    return [← assembled (Node.located converter.source (.codeBlock language) (Text.unlines lines)
      span title.toList)]
  | none => return []

/-- The source line on which an element stands. -/
def ownLine (converter : Converter) (info : ElementInfo) : Conversion Text :=
  match converter.source.line? info.lineno with
  | some line => pure line
  | none => throw (.assembly .noSuchLine)

/-- The node of an image, which also covers its block title and its attributes. -/
def convertImage (converter : Converter) (info : ElementInfo) (window : Window) :
    Conversion (List Node) := do
  let raw ← converter.ownLine info
  match ← converter.find false [raw] window with
  | some location =>
    let title ← converter.convertBlockTitle info window
    let attributes ← converter.convertImageAttributes info
    let text ← assembled (Node.str converter.source raw location)
    return [← assembled
      (Node.around converter.source .image raw (title.toList ++ attributes ++ [text]))]
  | none => return []

/-- The node of a table of contents. -/
def convertTableOfContents (converter : Converter) (info : ElementInfo) (window : Window) :
    Conversion (List Node) := do
  let raw ← converter.ownLine info
  return (← converter.convertText? .tableOfContents raw window).toList

/-- The node around some children, if there are any. -/
def wrapped (converter : Converter) (kind : NodeKind) (children : List Node) :
    Conversion (List Node) := do
  if children.isEmpty then return []
  else return [← assembled (Node.around converter.source kind [] children)]

/-- The node around a block's title and its children, if there are any children. -/
def wrappedWithTitle (converter : Converter) (kind : NodeKind) (info : ElementInfo)
    (children : List Node) (window : Window) : Conversion (List Node) := do
  if children.isEmpty then return []
  else
    let title ← converter.convertBlockTitle info window
    return [← assembled (Node.around converter.source kind [] (title.toList ++ children))]

/-- The nodes of a document header: its id, its title and its authors. -/
def convertHeader (converter : Converter) (id : Option Text) (header : Header) (window : Window) :
    Conversion (List Node) := do
  let start := window.narrowed header.info.lineno none
  let idNode ← converter.convertId id start
  let title ← converter.convertTitle (header.info.title.getD []) header.level start
  let authors ←
    if converter.settings.includeAuthors.isTrue then converter.convertAuthors 0 header.authors
    else pure []
  return idNode.toList ++ title.toList ++ authors

/-- Report an element without nodes. -/
def reportOmission (element : Element) (nodes : List Node) : Conversion Unit :=
  if nodes.isEmpty then
    let context := String.ofList element.context
    report .treeConversion
      s!"Omitted {context} at line {element.lineno}: {element.omissionReason}"
  else pure ()

/-- The line of the first item of some entries, or another line if they have no items. -/
def firstItemLine (otherwise : Int) : List DescriptionEntry → Int
  | [] => otherwise
  | ⟨term :: _, _⟩ :: _ => term.info.lineno
  | ⟨[], some description⟩ :: _ => description.info.lineno
  | ⟨[], none⟩ :: rest => firstItemLine otherwise rest

/-- The column from which a cell or a row on a given line is searched: behind what was located last,
if that ended on the same line. -/
def columnAfter (lastEnd : Option Position) (lineno : Int) : Int :=
  match lastEnd with
  | some stop => if stop.line = lineno then stop.column else 0
  | none => 0

mutual

/-- The nodes of an element. -/
def convertElement (converter : Converter) (window : Window) :
    Element → Conversion (List Node)
  | .document d => converter.convertDocument window d
  | .titledSection info level blocks => do
    match ← converter.convertTitle (info.title.getD []) level window with
    | some title =>
      let id ← converter.convertId info.id window
      let nodes ← converter.convertBlocks window none blocks
      return id.toList ++ title :: nodes
    | none => return []
  | .container info kind blocks => do
    match kind with
    | .preamble => converter.convertBlocks window none blocks
    | .exampleBlock => converter.convertBlocks (window.withNarrowing false) none blocks
    | .quote =>
      let nodes ← converter.convertBlocks (window.withNarrowing false) none blocks
      converter.wrapped .blockQuote nodes
    | .sidebar =>
      let nodes ← converter.convertBlocks window none blocks
      converter.wrappedWithTitle .sidebar info nodes window
  | .paragraph info _ lines => converter.convertParagraph info lines window
  | .list info _ _ items => do
    let inner := window.withNarrowing true
    let (nodes, _) ← converter.convertItems inner inner.maxLine none items
    converter.wrappedWithTitle .list info nodes window
  | .listItem item => converter.convertItem window item
  | .descriptionList info _ entries => do
    let (nodes, _) ← converter.convertEntries (window.withNarrowing true) none entries
    converter.wrappedWithTitle .list info nodes window
  | .listing info lines language => converter.convertListing info lines language window
  | .admonition info style lines blocks => do
    let children ←
      match blocks with
      | [] =>
        match lines with
        | (c :: first) :: rest =>
          converter.convertParagraphText (Text.unlines ((c :: first) :: rest)) window
        | _ => throw (.emptyAdmonition window.minLine)
      | first :: rest => converter.convertBlocks window none (first :: rest)
    converter.wrappedWithTitle (.admonition style) info children window
  | .table info _ headRows bodyRows => do
    let title ← converter.convertBlockTitle info window
    let attributes ← converter.convertTableAttributes info.attributes window
    let (head, lastEnd) ← converter.convertRows window.maxLine none headRows
    let (body, _) ← converter.convertRows window.maxLine lastEnd bodyRows
    converter.wrapped .table (title.toList ++ attributes.toList ++ head ++ body)
  | .image info _ => converter.convertImage info window
  | .tableOfContents info => converter.convertTableOfContents info window
  | .header _ | .author _ | .tableCell _ | .unhandled .. => return []

/-- The nodes of sibling blocks, given the end of the sibling located last. -/
def convertBlocks (converter : Converter) (window : Window) (lastEnd : Option Position) :
    List Element → Conversion (List Node)
  | [] => return []
  | element :: rest => do
    let following := match rest with
      | next :: _ => next.lineno
      | [] => window.maxLine
    let nodes ← converter.convertElement
      (siblingWindow window element.lineno following lastEnd) element
    reportOmission element nodes
    return nodes ++ (← converter.convertBlocks window (endOf lastEnd nodes) rest)

/-- The nodes of sibling items and the end of the last one located, given the line behind the
items. -/
def convertItems (converter : Converter) (window : Window) (behind : Int)
    (lastEnd : Option Position) : List ListItem → Conversion (List Node × Option Position)
  | [] => return ([], lastEnd)
  | item :: rest => do
    let following := match rest with
      | next :: _ => next.info.lineno
      | [] => behind
    let nodes ← converter.convertItem
      (siblingWindow window item.info.lineno following lastEnd) item
    reportOmission (.listItem item) nodes
    let (others, final) ← converter.convertItems window behind (endOf lastEnd nodes) rest
    return (nodes ++ others, final)

/-- The nodes of the items of description list entries: for each entry its terms and then its
description. -/
def convertEntries (converter : Converter) (window : Window) (lastEnd : Option Position) :
    List DescriptionEntry → Conversion (List Node × Option Position)
  | [] => return ([], lastEnd)
  | ⟨terms, none⟩ :: rest => do
    let behind := firstItemLine window.maxLine rest
    let (nodes, afterTerms) ← converter.convertItems window behind lastEnd terms
    let (others, final) ← converter.convertEntries window afterTerms rest
    return (nodes ++ others, final)
  | ⟨terms, some description⟩ :: rest => do
    let lineno := description.info.lineno
    let (nodes, afterTerms) ← converter.convertItems window lineno lastEnd terms
    let behind := firstItemLine window.maxLine rest
    let described ← converter.convertItem
      (siblingWindow window lineno behind afterTerms) description
    reportOmission (.listItem description) described
    let (others, final) ← converter.convertEntries window (endOf afterTerms described) rest
    return (nodes ++ described ++ others, final)

/-- The node of a list item: its text and what is attached to it. -/
def convertItem (converter : Converter) (window : Window) : ListItem → Conversion (List Node)
  | ⟨_, text, _, blocks⟩ => do
    let own ← match text with
      | some (c :: rest) => converter.convertParagraphText (c :: rest) window
      | _ => pure []
    let attached ← converter.convertBlocks window none blocks
    converter.wrapped .listItem (own ++ attached)

/-- The nodes of table rows and the end of the last one located. Empty rows are passed over. -/
def convertRows (converter : Converter) (maxLine : Int) (lastEnd : Option Position) :
    List (List TableCell) → Conversion (List Node × Option Position)
  | [] => return ([], lastEnd)
  | [] :: rest => converter.convertRows maxLine lastEnd rest
  | (first :: others) :: rest => do
    let lineno := first.info.lineno
    let start := ⟨lineno, columnAfter lastEnd lineno⟩
    let cells ← converter.convertCells maxLine start (first :: others)
    let row ← converter.wrapped .tableRow cells
    let (rows, final) ← converter.convertRows maxLine (endOf lastEnd row) rest
    return (row ++ rows, final)

/-- The nodes of the cells of a row, given where the cell before them ended. -/
def convertCells (converter : Converter) (maxLine : Int) (lastEnd : Position) :
    List TableCell → Conversion (List Node)
  | [] => return []
  | cell :: rest => do
    let lineno := cell.info.lineno
    let window :=
      { minLine := lineno, maxLine, narrows := false
        startColumn := columnAfter (some lastEnd) lineno }
    match ← converter.convertCell window cell with
    | some node =>
      return node :: (← converter.convertCells maxLine node.location.stop rest)
    | none => converter.convertCells maxLine lastEnd rest

/-- The node of a table cell. The blocks of a cell's own document are looked for from the cell's
line on. -/
def convertCell (converter : Converter) (window : Window) : TableCell → Conversion (Option Node)
  | ⟨info, text, style, _, inner⟩ => do
    match ← converter.find false text.lines window with
    | some location =>
      let children ← match style, inner with
        | some .asciidoc, some ⟨_, _, blocks⟩ =>
          let narrow := (window.narrowed info.lineno none).withNarrowing true
          converter.convertBlocks narrow none blocks
        | _, _ => do
          pure [← assembled (Node.str converter.source text location)]
      return some (← assembled (Node.located converter.source .tableCell text location children))
    | none => return none

/-- The node of a document: its header and its blocks. -/
def convertDocument (converter : Converter) (window : Window) :
    Document → Conversion (List Node)
  | ⟨info, header, blocks⟩ => do
    let nodes ← converter.convertBlocks window none blocks
    let head ← match header with
      | some header => converter.convertHeader info.id header window
      | none => pure []
    let children := head ++ nodes
    if children.isEmpty then return []
    else return [← assembled (Node.documentAround converter.source children)]

end

end Converter

end AsciidocSpans
