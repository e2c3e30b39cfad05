import AsciidocSpans.Line.Basic
import AsciidocSpans.Text.Blank
import AsciidocSpans.Text.Digit
import AsciidocSpans.Text.Word

/-!
The classification of a line. Each recogniser decides one shape and reads its parts; `shapeOf`
asks them in a fixed order, and the first that accepts the line decides it. Whatever no
recogniser accepts is indented or plain text, so every line has exactly one shape.

Delimiters and markers may be followed by white space. The captured parts are stretches of the
line itself, trimmed where the shape says so, and never reach over a newline.
-/

set_option autoImplicit false
set_option relaxedAutoImplicit false

namespace AsciidocSpans.Line

open Text

/-- A captured part, which may not hold a newline. -/
def capture? (text : Text) : Option Text :=
  if text.contains '\n' then none else some text

/-- The text after a marker that has to be followed by white space, trimmed. -/
def separated? (text : Text) : Option Text :=
  if startsBlank text then capture? (trim text) else none

/-- A line of white space. -/
def blank? (text : Text) : Option Shape :=
  if allBlank text then some .blank else none

/-- Four slashes or more. -/
def commentDelimiter? (text : Text) : Option Shape :=
  let delimiter := trimRight text
  if 4 ≤ delimiter.length ∧ delimiter.all (· == '/') then some (.commentDelimiter delimiter)
  else none

/-- A line that starts with the comment marker. -/
def comment? (commentMarker text : Text) : Option Shape :=
  if commentMarker.isPrefixOf text then some (.comment (text.drop commentMarker.length)) else none

/-- An exclamation mark, if a text starts with one, and the rest. -/
def bang : Text → Text × Text
  | '!' :: rest => (['!'], rest)
  | text => ([], text)

/-- A name, a run of word characters and hyphens that starts with a word character, and the
rest. -/
def name? : Text → Option (Text × Text)
  | [] => none
  | c :: rest =>
    if isWord c then some (c :: rest.takeWhile isNameChar, rest.dropWhile isNameChar) else none

/-- The value of an attribute entry: nothing, or white space and the value. -/
def entryValue? (text : Text) : Option Text :=
  if text.isEmpty then some [] else separated? text

/-- A document attribute: `:name: value`. -/
def documentAttribute? : Text → Option Shape
  | ':' :: text => do
    let (before, afterBefore) := bang text
    let (name, afterName) ← name? afterBefore
    let (behind, afterBehind) := bang afterName
    match afterBehind with
    | ':' :: rest => return .attributeEntry (before ++ name ++ behind) (← entryValue? rest)
    | _ => none
  | _ => none

/-- Whether a character may start an anchor id. -/
def isAnchorStart (c : Char) : Bool :=
  isWord c || c == ':'

/-- Whether a character may stand inside an anchor id. -/
def isAnchorChar (c : Char) : Bool :=
  isAnchorStart c || c == '.' || c == '-'

/-- The reference text of an anchor, between its comma and its closing brackets: without leading
white space, unless it is nothing but white space, of which the last character is kept. -/
def reftext? (text : Text) : Option Text :=
  match trimLeft text with
  | [] => text.getLast?.bind fun c ↦ capture? [c]
  | trimmed => capture? trimmed

/-- An anchor: `[[id]]` or `[[id,reftext]]`. -/
def blockAnchor? : Text → Option Shape
  | '[' :: '[' :: c :: text =>
    if isAnchorStart c then
      let id := c :: text.takeWhile isAnchorChar
      match text.dropWhile isAnchorChar with
      | ']' :: ']' :: rest => if allBlank rest then some (.blockAnchor id none) else none
      | ',' :: rest =>
        let body := trimRight rest
        if body.endsWith [']', ']'] then
          (reftext? (body.dropRight 2)).map fun reftext ↦ .blockAnchor id (some reftext)
        else none
      | _ => none
    else none
  | _ => none

/-- A table delimiter: a separator and three equals signs or more. -/
def tableDelimiter? (text : Text) : Option Shape :=
  match trimRight text with
  | separator :: rest =>
    if ['|', '!', ',', ':'].contains separator ∧ 3 ≤ rest.length ∧ rest.all (· == '=') then
      some (.tableDelimiter separator (separator :: rest))
    else none
  | [] => none

/-- The block that a run of a character delimits. -/
def delimitedKind? : Char → Option DelimitedKind
  | '-' => some .listing
  | '.' => some .literal
  | '=' => some .exampleBlock
  | '*' => some .sidebar
  | '_' => some .quote
  | '+' => some .passthrough
  | _ => none

/-- A block delimiter: two hyphens, or four or more of one delimiter character. -/
def blockDelimiter? (text : Text) : Option Shape :=
  match trimRight text with
  | ['-', '-'] => some (.blockDelimiter .openBlock ['-', '-'])
  | c :: rest =>
    if 3 ≤ rest.length ∧ rest.all (· == c) then
      (delimitedKind? c).map fun kind ↦ .blockDelimiter kind (c :: rest)
    else none
  | [] => none

/-- Whether a character may stand in the language of a fence. -/
def isLanguageChar (c : Char) : Bool :=
  isWord c || ['+', '#', '.', '-'].contains c

/-- A fence: three backquotes and a language. -/
def fence? : Text → Option Shape
  | '`' :: '`' :: '`' :: text =>
    if allBlank (text.dropWhile isLanguageChar) then some (.fence (text.takeWhile isLanguageChar))
    else none
  | _ => none

/-- The lines of one fixed sign. -/
def sign? (text : Text) : Option Shape :=
  match trimRight text with
  | ['+'] => some .listContinuation
  | ['\'', '\'', '\''] => some .thematicBreak
  | ['<', '<', '<'] => some .pageBreak
  | _ => none

/-- A block attribute line: brackets around anything. -/
def blockAttributes? (text : Text) : Option Shape :=
  match trimRight text with
  | '[' :: rest =>
    if rest.getLast? = some ']' then (capture? rest.dropLast).map .blockAttributes else none
  | _ => none

/-- A title without the run of equals signs that may close it; a title is never emptied. -/
def withoutClosing (title : Text) : Text :=
  let opened := title.dropRightWhile (· == '=')
  let trimmed := trimRight opened
  if opened.length < title.length ∧ trimmed.length < opened.length ∧ trimmed ≠ [] then trimmed
  else title

/-- A section title: one to six equals signs, white space and the title. -/
def sectionTitle? (text : Text) : Option Shape :=
  let marker := text.takeWhile (· == '=')
  let rest := text.dropWhile (· == '=')
  let title := trim rest
  if marker ≠ [] ∧ marker.length ≤ 6 ∧ startsBlank rest ∧ title ≠ [] then
    (capture? (withoutClosing title)).map (.sectionTitle marker)
  else none

/-- A block title: a dot and a title that starts with neither white space nor another dot. -/
def blockTitle? : Text → Option Shape
  | '.' :: c :: rest =>
    if isBlank c ∨ c = '.' then none else (capture? (trimRight (c :: rest))).map .blockTitle
  | _ => none

/-- A block macro: `name::target[attributes]`. -/
def blockMacro? (text : Text) : Option Shape := do
  let (name, afterName) ← name? text
  match afterName with
  | ':' :: ':' :: rest =>
    let target := rest.takeWhile (· != '[')
    match rest.dropWhile (· != '[') with
    | '[' :: body =>
      let trimmed := trimRight body
      if target.all (!isBlank ·) ∧ trimmed.getLast? = some ']' then
        (capture? trimmed.dropLast).map (.blockMacro name target)
      else none
    | _ => none
  | _ => none

/-- The labels of admonitions. -/
def admonitionStyles : List Text :=
  ["NOTE".toList, "TIP".toList, "IMPORTANT".toList, "WARNING".toList, "CAUTION".toList]

/-- An admonition in paragraph form: a label, a colon and white space. -/
def admonition? (text : Text) : Option Shape :=
  let style := text.takeWhile (· != ':')
  match text.dropWhile (· != ':') with
  | ':' :: rest =>
    if admonitionStyles.contains style then (separated? rest).map (.admonition style) else none
  | _ => none

/-- A callout: a number or a dot in angle brackets. -/
def callout? : Text → Option Shape
  | '<' :: text =>
    let label := text.takeWhile (· != '>')
    match text.dropWhile (· != '>') with
    | '>' :: rest =>
      if label = ['.'] ∨ (label ≠ [] ∧ label.all isDecimal) then
        (separated? rest).map fun item ↦ .listItem .callout ['<', '.', '>'] item none
      else none
    | _ => none
  | _ => none

/-- The box that a checklist item starts with, and the text behind it. -/
def checkbox? : Text → Option (Checkbox × Text)
  | '[' :: c :: ']' :: rest =>
    if [' ', 'x', 'X', '*'].contains c ∧ startsBlank rest then
      some (if c = ' ' then .unchecked else .checked, trimLeft rest)
    else none
  | _ => none

/-- An unordered item with its text and, if it starts with one, its box. -/
def unorderedItem (marker text : Text) : Shape :=
  match checkbox? text with
  | some (checkbox, rest) => .listItem .unordered marker rest (some checkbox)
  | none => .listItem .unordered marker text none

/-- An unordered item: a hyphen or up to five asterisks. -/
def unordered? (text : Text) : Option Shape :=
  match trimLeft text with
  | '-' :: rest => (separated? rest).map (unorderedItem ['-'])
  | trimmed =>
    let marker := trimmed.takeWhile (· == '*')
    if marker ≠ [] ∧ marker.length ≤ 5 then
      (separated? (trimmed.dropWhile (· == '*'))).map (unorderedItem marker)
    else none

/-- An ordered item: up to five dots, or a number and a dot. All numbers count as the same
marker. -/
def ordered? (text : Text) : Option Shape :=
  let trimmed := trimLeft text
  let dots := trimmed.takeWhile (· == '.')
  let digits := trimmed.takeWhile isDecimal
  if dots ≠ [] ∧ dots.length ≤ 5 then
    (separated? (trimmed.dropWhile (· == '.'))).map fun item ↦ .listItem .ordered dots item none
  else if digits ≠ [] then
    match trimmed.dropWhile isDecimal with
    | '.' :: rest => (separated? rest).map fun item ↦ .listItem .ordered ['1', '.'] item none
    | _ => none
  else none

/-- The description that follows a term's delimiter: none when nothing but white space does. -/
def description? (text : Text) : Option (Option Text) :=
  (entryValue? text).map fun description ↦ if description.isEmpty then none else some description

/-- A term's delimiter at the start of a text, the longest one that white space or the end
follows, with the description behind it. -/
def termDelimiter? (text : Text) : Option (Text × Option Text) :=
  ["::::".toList, ":::".toList, "::".toList, ";;".toList].findSome? fun delimiter ↦
    if delimiter.isPrefixOf text then
      (description? (text.drop delimiter.length)).map (delimiter, ·)
    else none

/-- The shortest non-empty start of a text that a delimiter follows, with that delimiter and the
description. -/
def splitTerm? : Text → Option (Text × Text × Option Text)
  | [] => none
  | c :: rest =>
    match termDelimiter? rest with
    | some (delimiter, description) => some ([c], delimiter, description)
    | none => (splitTerm? rest).map fun (term, parts) ↦ (c :: term, parts)

/-- A term of a description list. -/
def term? (text : Text) : Option Shape := do
  let (term, delimiter, description) ← splitTerm? (trimLeft text)
  return .term (← capture? term) delimiter description

/-- Text that starts with a space or a tab. -/
def indentedText? (text : Text) : Option Shape :=
  let indent := text.takeWhile isIndent
  if indent.isEmpty then none else some (.indentedText (trim text) indent.length)

/-- The shape of a line without carriage returns at its end. -/
def shapeOf (commentMarker text : Text) : Shape :=
  (blank? text <|> commentDelimiter? text <|> comment? commentMarker text <|>
    documentAttribute? text <|> blockAnchor? text <|> tableDelimiter? text <|>
    blockDelimiter? text <|> fence? text <|> sign? text <|> blockAttributes? text <|>
    sectionTitle? text <|>
    blockTitle? text <|> blockMacro? text <|> admonition? text <|> callout? text <|>
    unordered? text <|> ordered? text <|> term? text <|> indentedText? text).getD
      (.plainText (trimRight text))

/-- The classified line with a given number. Carriage returns at its end are no content. -/
def classify (commentMarker text : Text) (number : Int) : Line :=
  let input := text.dropRightWhile (· == '\r')
  { shape := shapeOf commentMarker input, input, number }

/-- Consecutive lines, classified and numbered from a first number on. -/
def classifyAll (commentMarker : Text) (first : Int) : List Text → List Line
  | [] => []
  | text :: rest =>
    classify commentMarker text first :: classifyAll commentMarker (first + 1) rest

end AsciidocSpans.Line
