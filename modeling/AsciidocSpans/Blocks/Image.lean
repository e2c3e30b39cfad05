import AsciidocSpans.AttributeList
import AsciidocSpans.Element.Basic

/-!
Block images. The first positional attribute or else the attribute `alt` gives the alternative
text; without either it is made from the name of the image file. The second and the third
positional attribute are the width and the height.
-/

set_option autoImplicit false
set_option relaxedAutoImplicit false

namespace AsciidocSpans.Blocks

open Text

/-- The last component of a path. -/
def fileName (path : Text) : Text :=
  (path.reverse.takeWhile (· != '/')).reverse

/-- A file name without its extension. Dots at the start of a name begin no extension. -/
def fileStem (name : Text) : Text :=
  match name.reverse.dropWhile (· != '.') with
  | _ :: before => if before.all (· == '.') then name else before.reverse
  | [] => name

/-- The alternative text that an image file's name gives. -/
def altFromTarget (target : Text) : Text :=
  (fileStem (fileName target)).map fun c ↦ if c = '_' ∨ c = '-' then ' ' else c

/-- Attributes with one of them moved to another name. -/
def renameAttribute (attributes : Attributes) (old new : Text) : Attributes :=
  match attributes.get? old with
  | some value => (attributes.erase old).insert new value
  | none => attributes

/-- The alternative text in an image's attribute list, and the attributes without it. The attribute
`alt` is looked at only if no positional one gives the text. -/
def takeAlt (attributes : Attributes) : Text × Attributes :=
  let rest := attributes.erase "1".toList
  match attributes.get? "1".toList with
  | some (c :: alt) => (c :: alt, rest)
  | _ => ((rest.get? "alt".toList).getD [], rest.erase "alt".toList)

/-- The image that a macro makes, given the directory of images if one is set. -/
def makeImage (number : Int) (target body : Text) (imagesDir : Option Text) : Element :=
  let (given, rest) := takeAlt (AttributeList.parse body)
  let sized := renameAttribute (renameAttribute (rest.erase "style".toList)
    "2".toList "width".toList) "3".toList "height".toList
  let alt := if given.isEmpty then altFromTarget target else given
  let described := ((sized.erase "id".toList).insert "alt".toList alt).insert
    "target".toList target
  let attributes := match imagesDir with
    | some directory => described.insert "imagesdir".toList directory
    | none => described
  .image { lineno := number, id := sized.get? "id".toList, attributes } target

end AsciidocSpans.Blocks
