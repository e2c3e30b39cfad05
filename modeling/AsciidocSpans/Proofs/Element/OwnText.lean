import AsciidocSpans.Element.Basic

/-!
The own text of elements. A title, a paragraph, and an item, a term or a description with text say
something of their own, on a line of their own; everything else in a document holds such elements.
`Element.ownTexts` lists what an element and everything in it says, in document order and however
deep it is nested, and `Document.ownTexts` does so for a whole document.
-/

set_option autoImplicit false
set_option relaxedAutoImplicit false

namespace AsciidocSpans

/-- What an element says by itself, and the line of the element. -/
structure OwnText where
  lineno : Int
  text : Text
  deriving DecidableEq, Repr

namespace Element

/-- The own text of an item; an item without text has none. -/
def ownTextOfItem (info : ElementInfo) : Option Text → List OwnText
  | some (c :: rest) => [⟨info.lineno, c :: rest⟩]
  | _ => []

/-- The own text of a document's header, which is the document title. -/
def ownTextOfHeader : Option Header → List OwnText
  | some head => [⟨head.info.lineno, head.info.title.getD []⟩]
  | none => []

mutual

/-- The own texts of an element and of everything in it. -/
def ownTexts : Element → List OwnText
  | .document d => ownTextsOfDocument d
  | .header h => ownTextOfHeader (some h)
  | .titledSection info _ blocks => ⟨info.lineno, info.title.getD []⟩ :: ownTextsOf blocks
  | .container _ _ blocks | .admonition _ _ _ blocks => ownTextsOf blocks
  | .paragraph info _ lines => [⟨info.lineno, Text.unlines lines⟩]
  | .list _ _ _ items => ownTextsOfItems items
  | .listItem item => ownTextsOfItem item
  | .descriptionList _ _ entries => ownTextsOfEntries entries
  | .table _ _ headRows bodyRows => ownTextsOfRows headRows ++ ownTextsOfRows bodyRows
  | .tableCell cell => ownTextsOfCell cell
  | .author _ | .listing .. | .image .. | .tableOfContents _ | .unhandled .. => []

/-- The own texts of some blocks. -/
def ownTextsOf : List Element → List OwnText
  | [] => []
  | element :: rest => ownTexts element ++ ownTextsOf rest

/-- The own texts of an item: its text, and those of the blocks attached to it. -/
def ownTextsOfItem : ListItem → List OwnText
  | ⟨info, text, _, blocks⟩ => ownTextOfItem info text ++ ownTextsOf blocks

/-- The own texts of some items. -/
def ownTextsOfItems : List ListItem → List OwnText
  | [] => []
  | item :: rest => ownTextsOfItem item ++ ownTextsOfItems rest

/-- The own texts of entries: for each the terms, and then the description. -/
def ownTextsOfEntries : List DescriptionEntry → List OwnText
  | [] => []
  | ⟨terms, none⟩ :: rest => ownTextsOfItems terms ++ ownTextsOfEntries rest
  | ⟨terms, some description⟩ :: rest =>
    ownTextsOfItems terms ++ ownTextsOfItem description ++ ownTextsOfEntries rest

/-- The own texts in the cells of some rows. -/
def ownTextsOfRows : List (List TableCell) → List OwnText
  | [] => []
  | row :: rest => ownTextsOfCells row ++ ownTextsOfRows rest

/-- The own texts in some cells. -/
def ownTextsOfCells : List TableCell → List OwnText
  | [] => []
  | cell :: rest => ownTextsOfCell cell ++ ownTextsOfCells rest

/-- The own texts of the document inside a cell. -/
def ownTextsOfCell : TableCell → List OwnText
  | ⟨_, _, _, _, some inner⟩ => ownTextsOfDocument inner
  | ⟨_, _, _, _, none⟩ => []

/-- The own texts of a document: its title, and those of its blocks. -/
def ownTextsOfDocument : Document → List OwnText
  | ⟨_, head, blocks⟩ => ownTextOfHeader head ++ ownTextsOf blocks

end

end Element

/-- What a document says, in document order. -/
def Document.ownTexts (document : Document) : List OwnText :=
  Element.ownTextsOfDocument document

end AsciidocSpans
