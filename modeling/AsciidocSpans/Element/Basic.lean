import AsciidocSpans.Line.Basic

/-!
Semantic elements: what the blocks of a document are, with the line on which each of them starts
and the literal text by which it can be found again in the source. Exact columns are not recorded
here; they are recovered later.

Elements nest in four ways: containers hold blocks, lists hold items, description lists hold
entries of terms and descriptions, and tables hold rows of cells, where a cell may hold a whole
document of its own.
-/

set_option autoImplicit false
set_option relaxedAutoImplicit false

namespace AsciidocSpans

/-- What every element has: the line on which it starts, its block title and its id if it has
them, and its attributes. -/
structure ElementInfo where
  lineno : Int
  title : Option Text := none
  id : Option Text := none
  attributes : Attributes := ∅
  deriving DecidableEq, Repr

/-- An author named in the document header. -/
structure Author where
  info : ElementInfo
  name : Text
  email : Option Text
  deriving DecidableEq, Repr

/-- The document title and the authors below it. -/
structure Header where
  info : ElementInfo
  level : Int
  authors : List Author
  deriving DecidableEq, Repr

/-- How the text of a table cell is to be read. -/
inductive CellStyle where
  | asciidoc
  | plain
  | emphasis
  | header
  | literal
  | monospaced
  | strong
  | verse
  deriving DecidableEq, Repr

/-- The name of a cell style. -/
def CellStyle.name : CellStyle → Text
  | asciidoc => "asciidoc".toList
  | plain => "default".toList
  | emphasis => "emphasis".toList
  | header => "header".toList
  | literal => "literal".toList
  | monospaced => "monospaced".toList
  | strong => "strong".toList
  | verse => "verse".toList

/-- The blocks that do nothing but hold other blocks. -/
inductive ContainerKind where
  /-- The blocks between the document header and the first section. -/
  | preamble
  | quote
  | sidebar
  | exampleBlock
  deriving DecidableEq, Repr

/-- The name of a kind of container. -/
def ContainerKind.name : ContainerKind → Text
  | preamble => "preamble".toList
  | quote => "quote".toList
  | sidebar => "sidebar".toList
  | exampleBlock => "example".toList

mutual

/-- A semantic element. -/
inductive Element where
  | document (document : Document)
  | header (header : Header)
  | author (author : Author)
  | titledSection (info : ElementInfo) (level : Int) (blocks : List Element)
  | container (info : ElementInfo) (kind : ContainerKind) (blocks : List Element)
  | paragraph (info : ElementInfo) (isLiteral : Bool) (lines : List Text)
  | list (info : ElementInfo) (kind : ListKind) (marker : Text) (items : List ListItem)
  | listItem (item : ListItem)
  | descriptionList (info : ElementInfo) (delimiter : Text) (entries : List DescriptionEntry)
  | listing (info : ElementInfo) (lines : List Text) (language : Option Text)
  | admonition (info : ElementInfo) (style : Text) (lines : List Text) (blocks : List Element)
  | table (info : ElementInfo) (columnCount : Nat) (headRows bodyRows : List (List TableCell))
  | tableCell (cell : TableCell)
  | image (info : ElementInfo) (target : Text)
  | tableOfContents (info : ElementInfo)
  /-- A block without a counterpart in the located tree, named by its context. -/
  | unhandled (info : ElementInfo) (context : Text)

/-- An item of a list, or a term or a description of a description list. -/
structure ListItem where
  info : ElementInfo
  text : Option Text
  checkbox : Option Checkbox
  blocks : List Element

/-- Terms with the description that they share, if there is one. -/
structure DescriptionEntry where
  terms : List ListItem
  description : Option ListItem

/-- A cell of a table; a cell of AsciiDoc style holds the document that its text makes. -/
structure TableCell where
  info : ElementInfo
  text : Text
  style : Option CellStyle
  colspan : Nat
  inner : Option Document

/-- A document, or the document inside a table cell. -/
structure Document where
  info : ElementInfo
  header : Option Header
  blocks : List Element

end

/-- Whether a text is there and not empty. -/
def hasContent : Option Text → Bool
  | some text => !text.isEmpty
  | none => false

/-- Whether an element has a block title to show. -/
def ElementInfo.hasTitle (info : ElementInfo) : Bool :=
  hasContent info.title

/-- Whether an item has text of its own. -/
def ListItem.hasText (item : ListItem) : Bool :=
  hasContent item.text

/-- The name of a kind of list. -/
def ListKind.context : ListKind → Text
  | .unordered => "ulist".toList
  | .ordered => "olist".toList
  | .callout => "colist".toList

namespace Element

/-- What an element has in common with all others. -/
def info : Element → ElementInfo
  | document d => d.info
  | header h => h.info
  | author a => a.info
  | listItem item => item.info
  | tableCell cell => cell.info
  | titledSection info .. | container info .. | paragraph info .. | list info ..
  | descriptionList info .. | listing info .. | admonition info .. | table info ..
  | image info .. | tableOfContents info | unhandled info _ => info

/-- The line on which an element starts. -/
def lineno (element : Element) : Int :=
  element.info.lineno

/-- An element with its common part changed. -/
def mapInfo (change : ElementInfo → ElementInfo) : Element → Element
  | document d => document { d with info := change d.info }
  | header h => header { h with info := change h.info }
  | author a => author { a with info := change a.info }
  | titledSection info level blocks => titledSection (change info) level blocks
  | container info kind blocks => container (change info) kind blocks
  | paragraph info isLiteral lines => paragraph (change info) isLiteral lines
  | list info kind marker items => list (change info) kind marker items
  | listItem item => listItem { item with info := change item.info }
  | descriptionList info delimiter entries => descriptionList (change info) delimiter entries
  | listing info lines language => listing (change info) lines language
  | admonition info style lines blocks => admonition (change info) style lines blocks
  | table info columnCount headRows bodyRows => table (change info) columnCount headRows bodyRows
  | tableCell cell => tableCell { cell with info := change cell.info }
  | image info target => image (change info) target
  | tableOfContents info => tableOfContents (change info)
  | unhandled info context => unhandled (change info) context

/-- Whether an element is a section. -/
def isSection : Element → Bool
  | titledSection .. => true
  | _ => false

/-- The name of what an element is. -/
def context : Element → Text
  | document _ => "document".toList
  | header _ => "header".toList
  | author _ => "author".toList
  | titledSection .. => "section".toList
  | container _ kind _ => kind.name
  | paragraph _ isLiteral _ => if isLiteral then "literal".toList else "paragraph".toList
  | list _ kind _ _ => kind.context
  | listItem _ => "list_item".toList
  | descriptionList .. => "dlist".toList
  | listing .. => "listing".toList
  | admonition .. => "admonition".toList
  | table .. => "table".toList
  | tableCell _ => "table_cell".toList
  | image .. => "image".toList
  | tableOfContents _ => "toc".toList
  | unhandled _ context => context

end Element

end AsciidocSpans
