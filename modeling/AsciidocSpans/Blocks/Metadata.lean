import AsciidocSpans.AttributeList
import AsciidocSpans.Element.Basic

/-!
Block metadata: titles, anchors and attribute lines stand before the block they belong to, and
wait here until that block has been read. A later id or title replaces an earlier one, while
attributes accumulate.
-/

set_option autoImplicit false
set_option relaxedAutoImplicit false

namespace AsciidocSpans.Blocks

/-- What has been collected for the next block. -/
structure Metadata where
  title : Option Text := none
  id : Option Text := none
  attributes : Attributes := ∅
  deriving DecidableEq, Repr

namespace Metadata

/-- Nothing collected. -/
def empty : Metadata :=
  {}

/-- The block style given by the first positional attribute. -/
def style (metadata : Metadata) : Option Text :=
  metadata.attributes.get? "style".toList

/-- Add an attribute list. Its id, if it has one, becomes the block's id. -/
def addAttributes (metadata : Metadata) (list : Attributes) : Metadata :=
  match list.get? "id".toList with
  | some id =>
    { metadata with
      id := some id
      attributes := metadata.attributes.update (list.erase "id".toList) }
  | none => { metadata with attributes := metadata.attributes.update list }

/-- The metadata with a metadata line added; none if the line is no metadata line. -/
def add? (metadata : Metadata) : Line.Shape → Option Metadata
  | .blockAnchor id _ => some { metadata with id := some id }
  | .blockAttributes body => some (metadata.addAttributes (AttributeList.parse body))
  | .blockTitle title => some { metadata with title := some title }
  | _ => none

/-- The common part of an element with the metadata attached. -/
def applyTo (metadata : Metadata) (info : ElementInfo) : ElementInfo :=
  { info with
    title := metadata.title <|> info.title
    id := metadata.id <|> info.id
    attributes := info.attributes.update metadata.attributes }

/-- An element with the metadata attached. -/
def attach (metadata : Metadata) (element : Element) : Element :=
  element.mapInfo metadata.applyTo

end Metadata

end AsciidocSpans.Blocks
