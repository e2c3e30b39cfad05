import AsciidocSpans.Attributes
import AsciidocSpans.Text.Blank
import AsciidocSpans.Text.Word

/-!
Block attribute lists such as `source,ruby` or `cols="1,2",options="header"`: the text between
the square brackets of a block attribute line. The list is split at the commas outside quotes.
An entry `name=value` is named; any other entry is positional and stored under its index. The
first positional entry gives the block's style and may go on with the shorthands `#id`, `.role`
and `%option`. Options are kept twice: as one comma-separated value of `options`, and as a flag
`<name>-option` each.
-/

set_option autoImplicit false
set_option relaxedAutoImplicit false

namespace AsciidocSpans.AttributeList

open Text

/-- Whether a character opens or closes a quoted stretch. -/
def isQuote (c : Char) : Bool :=
  c == '"' || c == '\''

/-- The raw parts of a list, cut at the commas outside quotes. The state is the quote that is
open, if any. -/
def cutEntries (openQuote : Option Char) : Text → List Text
  | [] => [[]]
  | c :: rest =>
    if openQuote = none ∧ c = ',' then [] :: cutEntries none rest
    else
      let next := match openQuote with
        | some quote => if c = quote then none else some quote
        | none => if isQuote c then some c else none
      match cutEntries next rest with
      | [] => [[c]]
      | entry :: others => (c :: entry) :: others

/-- The entries of a list, without surrounding white space. A list that holds nothing but white
space has no entries at all. -/
def splitEntries (text : Text) : List Text :=
  match (cutEntries none text).map trim with
  | [[]] => []
  | entries => entries

/-- A value without one level of matching quotes. -/
def unquote (value : Text) : Text :=
  match value.trim with
  | first :: second :: rest =>
    if isQuote first ∧ (second :: rest).getLast? = some first then (second :: rest).dropLast
    else first :: second :: rest
  | short => short

/-- The name and the raw value of an entry of the form `name=value`, with white space allowed
around the sign. -/
def nameAndValue? (entry : Text) : Option (Text × Text) :=
  match entry with
  | [] => none
  | first :: rest =>
    if isWord first then
      match trimLeft (rest.dropWhile isNameChar) with
      | '=' :: value => some (first :: rest.takeWhile isNameChar, value)
      | _ => none
    else none

/-- The names among `options` that are added to those already recorded, without repeats. -/
def mergeOptions (existing options : List Text) : List Text :=
  options.foldl (fun known option ↦ if known.contains option then known else known ++ [option])
    existing

/-- Record options, as flags and in the list of options. Blank names are left out. -/
def addOptions (attributes : Attributes) (options : List Text) : Attributes :=
  let existing := (cutAt ',' ((attributes.get? "options".toList).getD [])).filter (!·.isEmpty)
  let named := (options.map trim).filter (!·.isEmpty)
  let flagged := named.foldl (fun result option ↦ result.insert (option ++ "-option".toList) [])
    attributes
  flagged.insert "options".toList (joinWith [','] (mergeOptions existing named))

/-- Whether a character starts a shorthand. -/
def isShorthand (c : Char) : Bool :=
  c == '#' || c == '.' || c == '%'

/-- The shorthands of a text that starts with one: each marker with the name after it. -/
def shorthands : Text → List (Char × Text)
  | [] => []
  | c :: rest =>
    if isShorthand c then (c, rest.takeWhile (!isShorthand ·)) :: shorthands rest
    else shorthands rest

/-- The non-empty names that follow one shorthand marker, in order. -/
def shorthandNames (marker : Char) (items : List (Char × Text)) : List Text :=
  items.filterMap fun item ↦ if item.1 = marker ∧ item.2 ≠ [] then some item.2 else none

/-- Record the first positional entry: as it is, and its style, id, roles and options. -/
def addFirstPositional (attributes : Attributes) (value : Text) : Attributes :=
  let style := value.takeWhile (!isShorthand ·)
  let items := shorthands (value.dropWhile (!isShorthand ·))
  let roles := shorthandNames '.' items
  let options := shorthandNames '%' items
  let start := attributes.insert "1".toList value
  let styled := if style.isEmpty then start else start.insert "style".toList style
  let identified := match (shorthandNames '#' items).getLast? with
    | some id => styled.insert "id".toList id
    | none => styled
  let withRoles :=
    if roles.isEmpty then identified
    else identified.insert "role".toList (joinWith [' '] roles)
  if options.isEmpty then withRoles else addOptions withRoles options

/-- Whether a name lists options. -/
def isOptionsName (name : Text) : Bool :=
  name == "options".toList || name == "opts".toList

/-- Record the entries in turn, given the number of positional entries so far. -/
def addEntries (attributes : Attributes) (position : Nat) : List Text → Attributes
  | [] => attributes
  | entry :: rest =>
    match nameAndValue? entry with
    | some (name, raw) =>
      let value := unquote raw
      if isOptionsName name then addEntries (addOptions attributes (cutAt ',' value)) position rest
      else addEntries (attributes.insert name value) position rest
    | none =>
      let value := unquote entry
      if position = 0 then addEntries (addFirstPositional attributes value) 1 rest
      else addEntries (attributes.insert (ofInt (position + 1)) value) (position + 1) rest

/-- The attributes that a list gives, in source order. -/
def parse (text : Text) : Attributes :=
  addEntries ∅ 0 (splitEntries text)

end AsciidocSpans.AttributeList
