import AsciidocSpans.Element.Basic

/-!
Summaries of single elements: the label of an element's kind, the line that names an element, and
the questions that only some kinds of element can answer.
-/

set_option autoImplicit false
set_option relaxedAutoImplicit false

namespace AsciidocSpans

/-- The label of a kind of container. -/
def ContainerKind.label : ContainerKind → String
  | preamble => "AdocPreamble"
  | quote => "AdocQuote"
  | sidebar => "AdocSidebar"
  | exampleBlock => "AdocExample"

namespace Element

/-- The label of an element's kind. -/
def label : Element → String
  | document _ => "AdocDocument"
  | header _ => "AdocDocumentHeader"
  | author _ => "AdocAuthor"
  | titledSection .. => "AdocSection"
  | container _ kind _ => kind.label
  | paragraph .. => "AdocParagraph"
  | list .. => "AdocList"
  | listItem _ => "AdocListItem"
  | descriptionList .. => "AdocDescriptionList"
  | listing .. => "AdocListing"
  | admonition .. => "AdocAdmonition"
  | table .. => "AdocTable"
  | tableCell _ => "AdocTableCell"
  | image .. => "AdocImage"
  | tableOfContents _ => "AdocToc"
  | unhandled .. => "AdocUnhandledElement"

/-- The label of an element with its line. -/
def summary (element : Element) : String :=
  s!"{element.label}(line {element.lineno})"

/-- The blocks of an element that holds blocks. -/
def blocks? : Element → Option (List Element)
  | document d => some d.blocks
  | titledSection _ _ blocks | container _ _ blocks | admonition _ _ _ blocks => some blocks
  | listItem item => some item.blocks
  | _ => none

/-- Whether an element that may hold blocks holds any. -/
def hasBlocks? (element : Element) : Option Bool :=
  element.blocks?.map (!·.isEmpty)

/-- Whether a document has a header. -/
def hasHeader? : Element → Option Bool
  | document d => some d.header.isSome
  | _ => none

/-- Whether a list item has text of its own. -/
def hasText? : Element → Option Bool
  | listItem item => some item.hasText
  | _ => none

/-- Whether a list has an item with a box. -/
def isChecklist? : Element → Option Bool
  | list _ _ _ items => some (items.any (·.checkbox.isSome))
  | _ => none

/-- The lines of an element that is made of lines, as one text. -/
def source? : Element → Option Text
  | paragraph _ _ lines | listing _ lines _ => some (Text.unlines lines)
  | _ => none

end Element

end AsciidocSpans
