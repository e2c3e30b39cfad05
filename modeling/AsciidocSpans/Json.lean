import AsciidocSpans.Text.Quoted

/-!
JSON values and their text. The text is plain ASCII: every other character, and every control
character without a letter of its own, is written as `\u` with four hexadecimal digits, a character
beyond the basic plane as a pair of surrogates. With an indentation each item stands on a line of
its own; without one the whole value is written on a single line.
-/

set_option autoImplicit false
set_option relaxedAutoImplicit false

namespace AsciidocSpans

/-- A JSON value; the members of an object keep their order. -/
inductive Json where
  | integer (value : Int)
  | text (value : Text)
  | array (items : List Json)
  | object (members : List (Text × Json))

namespace Json

/-- A code unit as an escape sequence. -/
def escapeUnit (unit : Nat) : Text :=
  '\\' :: 'u' :: Text.hexDigits 4 unit

/-- How a character is written inside a JSON text. -/
def escapeChar (c : Char) : Text :=
  if c = '"' ∨ c = '\\' then ['\\', c]
  else if c = '\n' then ['\\', 'n']
  else if c = '\r' then ['\\', 'r']
  else if c = '\t' then ['\\', 't']
  else if c = '\x0c' then ['\\', 'f']
  else if c = '\x08' then ['\\', 'b']
  else if 32 ≤ c.toNat ∧ c.toNat < 127 then [c]
  else if c.toNat < 0x10000 then escapeUnit c.toNat
  else
    let offset := c.toNat - 0x10000
    escapeUnit (0xD800 + offset / 0x400) ++ escapeUnit (0xDC00 + offset % 0x400)

/-- A text between double quotes, with escapes. -/
def writeText (text : Text) : Text :=
  '"' :: text.flatMap escapeChar ++ ['"']

/-- The break before an item at a nesting depth, if the value is indented. -/
def lineBreak (indent : Option Nat) (depth : Nat) : Text :=
  match indent with
  | some width => '\n' :: List.replicate (width * depth) ' '
  | none => []

/-- What stands between two items at a nesting depth. -/
def itemSeparator (indent : Option Nat) (depth : Nat) : Text :=
  match indent with
  | some _ => ',' :: lineBreak indent depth
  | none => [',', ' ']

/-- Written items between brackets at a nesting depth. -/
def bracketed (indent : Option Nat) (depth : Nat) (opening closing : Char) (items : List Text) :
    Text :=
  if items.isEmpty then [opening, closing]
  else
    opening :: lineBreak indent (depth + 1) ++
      Text.joinWith (itemSeparator indent (depth + 1)) items ++ lineBreak indent depth ++ [closing]

mutual

/-- The text of a value at a nesting depth. -/
def write (indent : Option Nat) (depth : Nat) : Json → Text
  | integer n => Text.ofInt n
  | text t => writeText t
  | array items => bracketed indent depth '[' ']' (writeItems indent (depth + 1) items)
  | object members => bracketed indent depth '\x7b' '\x7d' (writeMembers indent (depth + 1) members)

/-- The texts of the items of an array. -/
def writeItems (indent : Option Nat) (depth : Nat) : List Json → List Text
  | [] => []
  | item :: rest => write indent depth item :: writeItems indent depth rest

/-- The texts of the members of an object. -/
def writeMembers (indent : Option Nat) (depth : Nat) : List (Text × Json) → List Text
  | [] => []
  | (name, item) :: rest =>
    (writeText name ++ [':', ' '] ++ write indent depth item) :: writeMembers indent depth rest

end

/-- The text of a value, indented by so many spaces per level or else on one line. -/
def render (indent : Option Nat) (value : Json) : Text :=
  write indent 0 value

end Json

end AsciidocSpans
