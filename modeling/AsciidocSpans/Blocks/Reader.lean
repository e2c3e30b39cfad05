import AsciidocSpans.Blocks.Cells
import AsciidocSpans.Blocks.Image
import AsciidocSpans.Blocks.Metadata
import AsciidocSpans.Blocks.Runs
import AsciidocSpans.Blocks.State
import AsciidocSpans.Line.Classify
import AsciidocSpans.Text.Quoted

/-!
Reading blocks. The readers of this module call one another along the grammar of AsciiDoc: blocks
hold sections and delimited blocks, which hold blocks; lists hold items, to which lists and blocks
may be attached; a table cell may hold a document of its own.

All of them carry a number of steps that bounds how deep they call one another. Each call uses up
one step, and a reading that runs out of steps fails. Between two calls that consume no line there
are fewer than eight steps, so `stepsFor` gives more steps than any text can use.
-/

set_option autoImplicit false
set_option relaxedAutoImplicit false

namespace AsciidocSpans.Blocks

open Text Line

/-- Where a block stands, as far as it matters for what the block may be. -/
inductive Place where
  /-- In a document or a section, where sections may start. -/
  | body
  /-- Between the delimiters of a block. -/
  | delimited
  /-- Behind the continuation line of a list item. -/
  | attached
  deriving DecidableEq, Repr

/-- What the reading of one step gave: metadata that still waits for a block, or a block. -/
inductive Progress where
  | pending (metadata : Metadata)
  | block (element : Element)

/-- The number of steps that suffices for a text of so many lines. -/
def stepsFor (lineCount : Nat) : Nat :=
  8 * (lineCount + 2)

/-- The language of a listing: what its attributes say or, for source blocks without any such
attribute, what the document says. An empty language is none. -/
def sourceLanguage (entries : Attributes) (metadata : Metadata) : Option Text :=
  let declared := match metadata.attributes.get? "language".toList with
    | some (c :: rest) => some (c :: rest)
    | _ => metadata.attributes.get? "2".toList
  let inherited :=
    if metadata.style = some "source".toList then entries.get? "source-language".toList else none
  (declared <|> inherited).filter (!·.isEmpty)

/-- A listing, which repeats its language among its attributes. -/
def makeListing (number : Int) (lines : List Text) (language : Option Text) : Element :=
  let attributes := match language with
    | some value => Attributes.ofList [("language".toList, value)]
    | none => ∅
  .listing { lineno := number, attributes } lines language

/-- A list, marked as a checklist if one of its items has a box. -/
def makeList (number : Int) (kind : ListKind) (marker : Text) (items : List ListItem) : Element :=
  let attributes :=
    if items.any (·.checkbox.isSome) then Attributes.ofList [("checklist-option".toList, [])]
    else ∅
  .list { lineno := number, attributes } kind marker items

/-- The admonition that a style names, if it names one. -/
def admonitionStyle? (style : Option Text) : Option Text :=
  style.filter admonitionStyles.contains

/-- The element that the lines of a paragraph make. The block style may turn them into an
admonition, a listing, a quote, a verse or a literal paragraph; indented lines are literal anyway,
unless the style is `normal`. -/
def makeParagraph (entries : Attributes) (metadata : Metadata) (first : Line)
    (lines : List Text) : Element :=
  let info := { lineno := first.number }
  let style := (metadata.style).getD []
  let isIndented := first.shape.isIndented
  match admonitionStyle? metadata.style with
  | some label => .admonition info label (lines.map trim) []
  | none =>
    if style = "source".toList ∨ style = "listing".toList then
      makeListing first.number lines (sourceLanguage entries metadata)
    else if style = "quote".toList then .container info .quote [.paragraph info false lines]
    else if style = "verse".toList then .unhandled info "verse".toList
    else if style = "literal".toList ∨ (isIndented ∧ style ≠ "normal".toList) then
      .paragraph info true (dedent lines)
    else if isIndented then .paragraph info false (lines.map trim)
    else .paragraph info false lines

/-- The paragraph that starts with a given line. -/
def readParagraph (attached : Bool) (metadata : Metadata) (first : Line) (rest : List Line) :
    Reading Element := do
  let (lines, behind) := paragraphLines attached first rest
  setLines behind
  return makeParagraph (← get).entries metadata first lines

/-- The admonition in paragraph form that starts with a given line. -/
def readAdmonition (attached : Bool) (style text : Text) (first : Line) (rest : List Line) :
    Reading Element := do
  let (lines, behind) := paragraphLines attached first rest
  setLines behind
  match lines with
  | [] => throw .noSuchEntry
  | _ :: others => return .admonition { lineno := first.number } style (text :: others) []

/-- The lines of a verbatim block whose opening line has been read. -/
def readVerbatim (opening : Line) (closes : Line.Shape → Bool) : Reading (List Text) := do
  let name := if opening.shape.value.isEmpty then "fenced".toList else opening.shape.value
  let content ← readUntil (fun line ↦ closes line.shape)
    s!"Unterminated {String.ofList name} block starting at line {opening.number}"
  return content.map (·.input)

/-- A verbatim block: a listing, a literal block or a passthrough. None for other kinds. -/
def readVerbatimBlock? (metadata : Metadata) (opening : Line) (kind : DelimitedKind)
    (delimiter : Text) : Reading (Option Element) := do
  let closes := fun shape ↦ shape == Shape.blockDelimiter kind delimiter
  let info := { lineno := opening.number }
  match kind with
  | .listing => do
    let lines ← readVerbatim opening closes
    return some (makeListing opening.number lines (sourceLanguage (← get).entries metadata))
  | .literal => do
    return some (.paragraph info true (← readVerbatim opening closes))
  | .passthrough => do
    let _ ← readVerbatim opening closes
    return some (.unhandled info kind.name)
  | _ => return none

/-- The element that a delimited block of other blocks makes. -/
def makeDelimited (metadata : Metadata) (number : Int) (kind : DelimitedKind)
    (blocks : List Element) : Element :=
  let info := { lineno := number }
  match kind, admonitionStyle? metadata.style with
  | .exampleBlock, some label => .admonition info label [] blocks
  | .exampleBlock, none => .container info .exampleBlock blocks
  | .sidebar, _ => .container info .sidebar blocks
  | .quote, _ => .container info .quote blocks
  | _, _ => .unhandled info "open".toList

/-- The fenced code block whose opening line is given. -/
def readFenced (opening : Line) (language : Text) : Reading Element := do
  let isFence := fun shape ↦ match shape with
    | Shape.fence _ => true
    | _ => false
  let lines ← readVerbatim opening isFence
  return makeListing opening.number lines (if language.isEmpty then none else some language)

/-- The element that a block macro makes. -/
def readMacro (number : Int) (name target body : Text) : Reading Element := do
  if name = "toc".toList then return .tableOfContents { lineno := number }
  else if name = "image".toList then
    return makeImage number target body ((← get).entries.get? "imagesdir".toList)
  else return .unhandled { lineno := number } name

/-- Whether a line is the delimiter that closes a block. -/
def closesBlock (terminator : Option Text) (shape : Line.Shape) : Bool :=
  shape.isDelimiter && terminator == some shape.marker

/-- Whether a line is the delimiter that closes a table with the given separator. -/
def closesTable (separator : Char) : Line.Shape → Bool
  | .tableDelimiter found _ => found == separator
  | _ => false

/-- Whether a line is a section title that ends the section around it. -/
def endsSection (terminator : Option Text) (level : Option Nat) (shape : Line.Shape) : Bool :=
  match shape, terminator, level with
  | .sectionTitle marker _, none, some enclosing => marker.length - 1 ≤ enclosing
  | _, _, _ => false

/-- A cell's text without a specifier for a nested document: its lines trimmed and joined. -/
def plainCellText (lines : List Text) : Text :=
  trim (unlines (lines.map trim))

/-- The lines of a cell that holds a document: the first one trimmed, the others as written. -/
def documentLines : List Text → List Text
  | [] => []
  | first :: rest => trim first :: rest

/-- The line of the last of some terms. -/
def lastTermLine (terms : List ListItem) : Reading Int :=
  match terms.getLast? with
  | some term => return term.info.lineno
  | none => throw .noSuchEntry

/-- The start of the description behind some terms: its line, its text if it has any, and the lines
behind the text. It stands on the line of the last term or on the next line of text; where there is
no text, it counts as standing on the line of the last term. -/
def readDescriptionStart (run : TermRun) : Reading (Int × Option Text × List Line) :=
  match run.description with
  | some (number, first) =>
    let (text, behind) := itemText first run.rest
    return (number, some text, behind)
  | none =>
    match significant run.rest with
    | candidate :: following =>
      match candidate.shape with
      | .plainText _ | .indentedText .. =>
        let (text, behind) := itemText (trim candidate.input) following
        return (candidate.number, some text, behind)
      | _ => return (← lastTermLine run.terms, none, run.rest)
    | [] => return (← lastTermLine run.terms, none, run.rest)

/-- The style that the letter of a cell specifier stands for, if it has one. -/
def readCellStyle : Option Char → Reading (Option CellStyle)
  | none => return none
  | some letter =>
    match CellSpec.styleOf? letter with
    | some style => return some style
    | none => throw (.noSuchStyle letter)

mutual

/-- Read blocks up to the end of the container they stand in: a delimited block, a section, or the
whole text. -/
def readBlocks (commentMarker : Text) (steps : Nat) (terminator : Option Text)
    (level : Option Nat) (metadata : Metadata) : Reading (List Element) :=
  match steps with
  | 0 => throw .outOfSteps
  | steps + 1 => do
    match (← get).lines with
    | [] =>
      if let some delimiter := terminator then
        report .warning
          s!"Unterminated block: expected '{String.ofList delimiter}' before end of input"
      return []
    | line :: rest =>
      if closesBlock terminator line.shape then
        setLines rest
        return []
      else if endsSection terminator level line.shape then return []
      else
        let place := if terminator.isNone then Place.body else Place.delimited
        match ← readBlock commentMarker steps place metadata line rest with
        | .pending waiting => readBlocks commentMarker steps terminator level waiting
        | .block element =>
          return element :: (← readBlocks commentMarker steps terminator level .empty)

/-- Read the block that starts at a line, or the line alone if it starts none. -/
def readBlock (commentMarker : Text) (steps : Nat) (place : Place) (metadata : Metadata)
    (line : Line) (rest : List Line) : Reading Progress :=
  match steps with
  | 0 => throw .outOfSteps
  | steps + 1 => do
    let attached := place == .attached
    let attach := fun element ↦ Progress.block (metadata.attach element)
    let info := { lineno := line.number }
    match line.shape with
    | .blank | .comment _ =>
      setLines rest
      return .pending metadata
    | .commentDelimiter delimiter =>
      setLines rest
      skipCommentBlock delimiter line.number
      return .pending metadata
    | .attributeEntry name value =>
      recordEntry name value
      setLines rest
      return .pending metadata
    | .blockAnchor .. | .blockAttributes _ | .blockTitle _ =>
      setLines rest
      return .pending ((metadata.add? line.shape).getD metadata)
    | .sectionTitle marker title =>
      if place = .body then
        setLines rest
        return .block (← readSection commentMarker steps metadata line.number marker title)
      else return attach (← readParagraph attached metadata line rest)
    | .tableDelimiter separator _ =>
      setLines rest
      return .block (← readTable commentMarker steps metadata line.number separator)
    | .blockDelimiter kind delimiter =>
      setLines rest
      match ← readVerbatimBlock? metadata line kind delimiter with
      | some element => return attach element
      | none =>
        let blocks ← readBlocks commentMarker steps (some delimiter) none .empty
        return attach (makeDelimited metadata line.number kind blocks)
    | .fence language =>
      setLines rest
      return attach (← readFenced line language)
    | .blockMacro name target body =>
      setLines rest
      return attach (← readMacro line.number name target body)
    | .listItem kind marker _ _ =>
      return attach (← readList commentMarker steps [] line.number kind marker)
    | .term _ delimiter _ =>
      return attach (← readDescriptionList commentMarker steps line.number delimiter)
    | .thematicBreak =>
      setLines rest
      return attach (.unhandled info "thematic_break".toList)
    | .pageBreak =>
      setLines rest
      return attach (.unhandled info "page_break".toList)
    | .admonition style text =>
      return attach (← readAdmonition attached style text line rest)
    | .listContinuation | .indentedText .. | .plainText _ =>
      return attach (← readParagraph attached metadata line rest)

/-- Read the section below a title line. A title of style `discrete` or `float` opens no section,
and a block title before a section title is dropped. -/
def readSection (commentMarker : Text) (steps : Nat) (metadata : Metadata) (number : Int)
    (marker title : Text) : Reading Element :=
  match steps with
  | 0 => throw .outOfSteps
  | steps + 1 => do
    if metadata.style = some "discrete".toList ∨ metadata.style = some "float".toList then
      return metadata.attach (.unhandled { lineno := number } "floating_title".toList)
    else
      if let some dropped := metadata.title then
        report .debug
          s!"Ignoring block title {String.ofList (quoted dropped)} before section at line {number}"
      let level := marker.length - 1
      let blocks ← readBlocks commentMarker steps none (some level) .empty
      return { metadata with title := none }.attach
        (.titledSection { lineno := number, title := some title } level blocks)

/-- Read the list whose first item is the next line. -/
def readList (commentMarker : Text) (steps : Nat) (ancestors : List Text) (number : Int)
    (kind : ListKind) (marker : Text) : Reading Element :=
  match steps with
  | 0 => throw .outOfSteps
  | steps + 1 => do
    return makeList number kind marker
      (← readItems commentMarker steps (ancestors ++ [marker]) marker)

/-- Read the items of a list, between which blank lines and comments may stand. -/
def readItems (commentMarker : Text) (steps : Nat) (markers : List Text) (marker : Text) :
    Reading (List ListItem) :=
  match steps with
  | 0 => throw .outOfSteps
  | steps + 1 => do
    match significant (← get).lines with
    | [] => return []
    | line :: rest =>
      match line.shape with
      | .listItem _ found text checkbox =>
        if found = marker then
          let item ← readItem commentMarker steps markers line.number text checkbox rest
          return item :: (← readItems commentMarker steps markers marker)
        else return []
      | _ => return []

/-- Read the item that starts with a given text, given the lines behind its first one. -/
def readItem (commentMarker : Text) (steps : Nat) (markers : List Text) (number : Int)
    (first : Text) (checkbox : Option Checkbox) (rest : List Line) : Reading ListItem :=
  match steps with
  | 0 => throw .outOfSteps
  | steps + 1 => do
    let (text, behind) := itemText first rest
    setLines behind
    let blocks ← readAttachments commentMarker steps markers
    return { info := { lineno := number }, text := some text, checkbox, blocks }

/-- Read what is attached to a list item: blocks behind continuation lines, lists with a marker of
their own, and indented paragraphs. -/
def readAttachments (commentMarker : Text) (steps : Nat) (markers : List Text) :
    Reading (List Element) :=
  match steps with
  | 0 => throw .outOfSteps
  | steps + 1 => do
    match (← get).lines with
    | [] => return []
    | line :: rest =>
      if line.shape = .listContinuation then
        setLines rest
        let block ← readAttached commentMarker steps .empty
        return block.toList ++ (← readAttachments commentMarker steps markers)
      else match significant (line :: rest) with
        | [] => return []
        | candidate :: behind =>
          match candidate.shape with
          | .listItem kind marker _ _ =>
            if markers.contains marker then return []
            else
              setLines (candidate :: behind)
              let list ← readList commentMarker steps markers candidate.number kind marker
              return list :: (← readAttachments commentMarker steps markers)
          | .indentedText .. =>
            if line.shape.isIgnorable then
              let (lines, following) := paragraphLines true candidate behind
              setLines following
              let paragraph := .paragraph { lineno := candidate.number } true (dedent lines)
              return paragraph :: (← readAttachments commentMarker steps markers)
            else return []
          | _ => return []

/-- Read the single block behind a continuation line; none if the input ends before one. -/
def readAttached (commentMarker : Text) (steps : Nat) (metadata : Metadata) :
    Reading (Option Element) :=
  match steps with
  | 0 => throw .outOfSteps
  | steps + 1 => do
    match (← get).lines with
    | [] => return none
    | line :: rest =>
      match ← readBlock commentMarker steps .attached metadata line rest with
      | .pending waiting => readAttached commentMarker steps waiting
      | .block element => return some element

/-- Read the description list whose first term is the next line. -/
def readDescriptionList (commentMarker : Text) (steps : Nat) (number : Int) (delimiter : Text) :
    Reading Element :=
  match steps with
  | 0 => throw .outOfSteps
  | steps + 1 => do
    return .descriptionList { lineno := number } delimiter
      (← readEntries commentMarker steps delimiter)

/-- Read the entries of a description list, between which blank lines and comments may stand. -/
def readEntries (commentMarker : Text) (steps : Nat) (delimiter : Text) :
    Reading (List DescriptionEntry) :=
  match steps with
  | 0 => throw .outOfSteps
  | steps + 1 => do
    match significant (← get).lines with
    | [] => return []
    | line :: rest =>
      match line.shape with
      | .term _ found _ =>
        if found = delimiter then
          let entry ← readEntry commentMarker steps delimiter (line :: rest)
          return entry :: (← readEntries commentMarker steps delimiter)
        else return []
      | _ => return []

/-- Read the entry whose first term starts the given lines. A description without text and attached
blocks is none. -/
def readEntry (commentMarker : Text) (steps : Nat) (delimiter : Text) (lines : List Line) :
    Reading DescriptionEntry :=
  match steps with
  | 0 => throw .outOfSteps
  | steps + 1 => do
    let run := termRun delimiter lines
    let (lineno, text, behind) ← readDescriptionStart run
    setLines behind
    let blocks ← readDescriptionAttachments commentMarker steps delimiter
    let description := { plainItem lineno text with blocks }
    let kept := if description.hasText || !blocks.isEmpty then some description else none
    return { terms := run.terms, description := kept }

/-- Read what is attached to a description: blocks behind continuation lines, lists, and description
lists with a longer delimiter. -/
def readDescriptionAttachments (commentMarker : Text) (steps : Nat) (delimiter : Text) :
    Reading (List Element) :=
  match steps with
  | 0 => throw .outOfSteps
  | steps + 1 => do
    match (← get).lines with
    | [] => return []
    | line :: rest =>
      if line.shape = .listContinuation then
        setLines rest
        let block ← readAttached commentMarker steps .empty
        return block.toList ++ (← readDescriptionAttachments commentMarker steps delimiter)
      else match significant (line :: rest) with
        | [] => return []
        | candidate :: behind =>
          match candidate.shape with
          | .listItem kind marker _ _ =>
            setLines (candidate :: behind)
            let list ← readList commentMarker steps [] candidate.number kind marker
            return list :: (← readDescriptionAttachments commentMarker steps delimiter)
          | .term _ found _ =>
            if found ≠ delimiter ∧ delimiter.length < found.length then
              setLines (candidate :: behind)
              let list ← readDescriptionList commentMarker steps candidate.number found
              return list :: (← readDescriptionAttachments commentMarker steps delimiter)
            else return []
          | _ => return []

/-- Read the table below its opening line. The cells of tables with other separators than `|` and
`!` are not read. -/
def readTable (commentMarker : Text) (steps : Nat) (metadata : Metadata) (number : Int)
    (separator : Char) : Reading Element :=
  match steps with
  | 0 => throw .outOfSteps
  | steps + 1 => do
    let content ← readUntil (fun line ↦ closesTable separator line.shape)
      s!"Unterminated table starting at line {number}"
    if separator = '|' ∨ separator = '!' then
      let cells ← (gatherCells separator content).2.mapM fun raw ↦
        readCell commentMarker steps raw
      return { metadata with attributes := ∅ }.attach
        (makeTable number separator content metadata.attributes cells)
    else return metadata.attach (.unhandled { lineno := number } "table".toList)

/-- Read a cell. A cell of AsciiDoc style is a document whose lines are those of the cell. -/
def readCell (commentMarker : Text) (steps : Nat) (raw : RawCell) : Reading TableCell :=
  match steps with
  | 0 => throw .outOfSteps
  | steps + 1 => do
    let (lineno, started) := dropBlankStart raw.lineno raw.lines
    let lines := dropBlankEnd started
    let spec := (CellSpec.parse? raw.spec).getD { colspan := none, letter := none }
    let style ← readCellStyle spec.letter
    if spec.colspan = some 0 then throw (.spansNoColumns raw.spec lineno)
    let colspan := spec.colspan.getD 1
    let info := { lineno }
    if style = some .asciidoc then
      let inner := documentLines lines
      let blocks ← withLines (classifyAll commentMarker lineno inner)
        (readBlocks commentMarker steps none none .empty)
      let document :=
        { info := { lineno, attributes := (← get).entries }, header := none, blocks }
      return { info, text := unlines inner, style, colspan, inner := some document }
    else return { info, text := plainCellText lines, style, colspan, inner := none }

end

end AsciidocSpans.Blocks
