import AsciidocSpans.Text.Basic
import AsciidocSpans.Text.RangeTable

/-!
Blank characters and trimming. The blank characters are the 25 white space characters of
Unicode together with the four separators U+001C to U+001F; a zero width space is not among
them.
-/

set_option autoImplicit false
set_option relaxedAutoImplicit false

namespace AsciidocSpans.Text

/-- The ranges of blank characters. -/
def blankRanges : RangeTable :=
  [(9, 13), (28, 32), (133, 133), (160, 160), (5760, 5760), (8192, 8202), (8232, 8233),
    (8239, 8239), (8287, 8287), (12288, 12288)]

/-- Whether a character is white space. -/
def isBlank (c : Char) : Bool :=
  blankRanges.contains c.toNat

/-- Whether a text holds nothing but white space; the empty text does. -/
def allBlank (text : Text) : Bool :=
  text.all isBlank

/-- A text without the white space it starts with. -/
def trimLeft (text : Text) : Text :=
  text.dropWhile isBlank

/-- A text without the white space it ends with. -/
def trimRight (text : Text) : Text :=
  text.dropRightWhile isBlank

/-- A text without the white space at either end. -/
def trim (text : Text) : Text :=
  trimRight (trimLeft text)

/-- Whether a text starts with white space, which is what has to follow a marker that stands
alone. -/
def startsBlank : Text → Bool
  | [] => false
  | c :: _ => isBlank c

/-- Whether a character indents a line: a space or a tab. -/
def isIndent (c : Char) : Bool :=
  c == ' ' || c == '\t'

end AsciidocSpans.Text
