import AsciidocSpans.Text.Basic

/-!
Settings of a conversion: how far before a block its metadata is looked for, and which metadata
becomes part of the tree.
-/

set_option autoImplicit false
set_option relaxedAutoImplicit false

namespace AsciidocSpans

/-- What a conversion can be told. -/
structure Settings where
  /-- The text that a comment line starts with. -/
  commentMarker : Text := "//".toList
  /-- How many lines before a block its id may stand. -/
  idLookback : Int := 2
  /-- How many lines before a block its title may stand. -/
  titleLookback : Int := 3
  /-- How many lines before a table its attributes may stand. -/
  attributesLookback : Int := 2
  /-- The table attributes that are left out. -/
  tableAttributeDenylist : List Text :=
    ["attribute_entries".toList, "colcount".toList, "rowcount".toList, "style".toList,
      "tablepcwidth".toList]
  /-- The image attributes that are looked for. -/
  imageAttributeNames : List Text := ["alt".toList, "imagesdir".toList, "target".toList]
  /-- Whether authors become part of the tree. -/
  includeAuthors : Bool := true
  deriving DecidableEq, Repr

/-- The settings that hold where nothing is said. -/
def Settings.default : Settings :=
  {}

end AsciidocSpans
