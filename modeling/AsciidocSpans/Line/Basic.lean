import AsciidocSpans.Attributes

/-!
Classified source lines. AsciiDoc is a line language: what a line may mean is decided from the
line alone, and `Shape` lists the meanings with the parts that each of them carries. A `Line`
joins a shape to the source line it was read from and to its number.

`Shape.value`, `Shape.marker` and `Shape.extras` are the uniform view of a shape: the payload of
the line, the marker that introduced it, and its named further parts.
-/

set_option autoImplicit false
set_option relaxedAutoImplicit false

namespace AsciidocSpans

/-- The three kinds of marked lists. -/
inductive ListKind where
  | unordered
  | ordered
  | callout
  deriving DecidableEq, Repr

/-- The state of a checklist item's box. -/
inductive Checkbox where
  | checked
  | unchecked
  deriving DecidableEq, Repr

/-- The name of a box's state. -/
def Checkbox.name : Checkbox → Text
  | checked => "checked".toList
  | unchecked => "unchecked".toList

/-- The blocks that stand between two equal delimiter lines. -/
inductive DelimitedKind where
  | listing
  | literal
  | exampleBlock
  | sidebar
  | quote
  | passthrough
  | openBlock
  deriving DecidableEq, Repr

/-- The name of a kind of delimited block. -/
def DelimitedKind.name : DelimitedKind → Text
  | listing => "listing".toList
  | literal => "literal".toList
  | exampleBlock => "example".toList
  | sidebar => "sidebar".toList
  | quote => "quote".toList
  | passthrough => "pass".toList
  | openBlock => "open".toList

namespace Line

/-- What a line is, with the parts read from it. -/
inductive Shape where
  /-- A line of white space. -/
  | blank
  /-- A comment line, with the text after the comment marker. -/
  | comment (text : Text)
  /-- The line of slashes that opens or closes a comment block. -/
  | commentDelimiter (delimiter : Text)
  /-- A document attribute `:name: value`; a `!` at either end of the name unsets it. -/
  | attributeEntry (name value : Text)
  /-- A title, with the run of `=` before it. -/
  | sectionTitle (marker title : Text)
  /-- The title `.Title` of the block below. -/
  | blockTitle (title : Text)
  /-- An anchor `[[id]]` or `[[id,reftext]]`. -/
  | blockAnchor (id : Text) (reftext : Option Text)
  /-- A block attribute line, with the text between its brackets. -/
  | blockAttributes (body : Text)
  /-- The line that opens or closes a delimited block. -/
  | blockDelimiter (kind : DelimitedKind) (delimiter : Text)
  /-- The line that opens or closes a table, with the character that separates the cells. -/
  | tableDelimiter (separator : Char) (delimiter : Text)
  /-- The line of backquotes that opens or closes a code block. -/
  | fence (language : Text)
  /-- An item of a marked list; only unordered items have boxes. -/
  | listItem (kind : ListKind) (marker text : Text) (checkbox : Option Checkbox)
  /-- A term of a description list, with the description that follows it on its line. -/
  | term (text delimiter : Text) (description : Option Text)
  /-- The plus sign that attaches the next block to a list item. -/
  | listContinuation
  /-- A macro `name::target[attributes]` on a line of its own. -/
  | blockMacro (name target attributes : Text)
  /-- The first line of an admonition in paragraph form. -/
  | admonition (style text : Text)
  | thematicBreak
  | pageBreak
  /-- A line that starts with a space or a tab, with the width of its indentation. -/
  | indentedText (text : Text) (indent : Nat)
  /-- Any other line. -/
  | plainText (text : Text)
  deriving DecidableEq, Repr

namespace Shape

/-- The payload of a line. -/
def value : Shape → Text
  | blank | thematicBreak | pageBreak => []
  | comment text => text
  | commentDelimiter delimiter => delimiter
  | attributeEntry _ value => value
  | sectionTitle _ title => title
  | blockTitle title => title
  | blockAnchor id _ => id
  | blockAttributes body => body
  | blockDelimiter kind _ => kind.name
  | tableDelimiter _ delimiter => delimiter
  | fence language => language
  | listItem _ _ text _ => text
  | term text _ _ => text
  | listContinuation => ['+']
  | blockMacro _ target _ => target
  | admonition _ text => text
  | indentedText text _ => text
  | plainText text => text

/-- The marker, delimiter or name that introduces the payload; empty where there is none. -/
def marker : Shape → Text
  | commentDelimiter delimiter => delimiter
  | attributeEntry name _ => name
  | sectionTitle marker _ => marker
  | blockDelimiter _ delimiter => delimiter
  | tableDelimiter separator _ => [separator]
  | fence _ => ['`', '`', '`']
  | listItem _ marker _ _ => marker
  | term _ delimiter _ => delimiter
  | blockMacro name _ _ => name
  | admonition style _ => style
  | _ => []

/-- The further parts of a line, by name. -/
def extras : Shape → Attributes
  | blockAnchor _ (some reftext) => ⟨[("reftext".toList, reftext)]⟩
  | blockMacro _ _ attributes => ⟨[("attributes".toList, attributes)]⟩
  | listItem _ _ _ (some checkbox) => ⟨[("checkbox".toList, checkbox.name)]⟩
  | term _ _ (some description) => ⟨[("text".toList, description)]⟩
  | indentedText _ indent => ⟨[("indent".toList, Text.ofInt indent)]⟩
  | _ => ∅

/-- Whether a line is nothing to read: white space or a comment. -/
def isIgnorable : Shape → Bool
  | blank | comment _ => true
  | _ => false

/-- Whether a line opens or closes a block of any kind. -/
def isDelimiter : Shape → Bool
  | blockDelimiter .. | tableDelimiter .. | fence _ | commentDelimiter _ => true
  | _ => false

/-- Whether a line is an item of a marked list. -/
def isListItem : Shape → Bool
  | listItem .. => true
  | _ => false

/-- Whether a line is indented text. -/
def isIndented : Shape → Bool
  | indentedText .. => true
  | _ => false

/-- Whether a line ends a paragraph that is attached to a list item. -/
def endsAttachedText : Shape → Bool
  | listItem .. | listContinuation | term .. => true
  | _ => false

end Shape

end Line

/-- A classified source line. -/
structure Line where
  shape : Line.Shape
  /-- The source line, without the carriage returns at its end. -/
  input : Text
  number : Int
  deriving DecidableEq, Repr

end AsciidocSpans
