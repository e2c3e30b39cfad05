import AsciidocSpans.Text.Basic

/-!
The characters that give YAML its form. Lines end at a newline, a next-line character or one of the
two Unicode separators; line endings of other kinds have been made newlines before. Most questions
are about the text that follows: the end of it counts like a line break.
-/

set_option autoImplicit false
set_option relaxedAutoImplicit false

namespace AsciidocSpans.Yaml

/-- Whether a text may hold a character. -/
def isAllowed (c : Char) : Bool :=
  c == '\t' || c == '\n' || c == '\r' || (' ' ≤ c && c ≤ '~') || c == '\x85' ||
    ('\xa0' ≤ c && c != '\ufffe' && c != '\uffff')

/-- Whether a character ends a line. -/
def isBreak (c : Char) : Bool :=
  c == '\n' || c == '\x85' || c == '\u2028' || c == '\u2029'

/-- Whether a character is a space or a tab. -/
def isBlank (c : Char) : Bool :=
  c == ' ' || c == '\t'

/-- Whether a text begins with a line break or is at its end. -/
def atBreak (text : Text) : Bool :=
  text.head?.all isBreak

/-- Whether a text begins with a space or a line break or is at its end. -/
def atSpace (text : Text) : Bool :=
  text.head?.all fun c ↦ c == ' ' || isBreak c

/-- Whether a text begins with white space or is at its end. -/
def atBlank (text : Text) : Bool :=
  text.head?.all fun c ↦ isBlank c || isBreak c

/-- Whether a text begins with one of some characters. -/
def atAny (characters : String) (text : Text) : Bool :=
  text.head?.any characters.toList.contains

/-- Whether a text begins with three characters that stand alone. -/
def atTriple (c : Char) : Text → Bool
  | c₁ :: c₂ :: c₃ :: rest => c₁ == c && c₂ == c && c₃ == c && atBlank rest
  | _ => false

/-- Whether a text begins with the mark at which a document starts or ends. -/
def atMarker (text : Text) : Bool :=
  atTriple '-' text || atTriple '.' text

/-- Whether a character may be part of a name. -/
def isNameCharacter (c : Char) : Bool :=
  c.isAlphanum || c == '-' || c == '_'

/-- The value of a digit in a base of at most sixteen. -/
def digitValue? (base : Nat) (c : Char) : Option Nat :=
  let value :=
    if '0' ≤ c ∧ c ≤ '9' then some (c.toNat - '0'.toNat)
    else if 'a' ≤ c ∧ c ≤ 'f' then some (c.toNat - 'a'.toNat + 10)
    else if 'A' ≤ c ∧ c ≤ 'F' then some (c.toNat - 'A'.toNat + 10)
    else none
  value.filter (· < base)

/-- Whether a character is a digit in a base of at most sixteen. -/
def isDigitOf (base : Nat) (c : Char) : Bool :=
  (digitValue? base c).isSome

/-- The number that digits write in a base; what is no digit counts for nothing. -/
def numberOf (base : Nat) (digits : Text) : Nat :=
  digits.foldl (fun n c ↦ match digitValue? base c with
    | some d => base * n + d
    | none => n) 0

/-- The letters that follow a backslash between double quotes, each with the character it means. -/
def escapeLetters : List (Char × Char) :=
  [('0', '\x00'), ('a', '\x07'), ('b', '\x08'), ('t', '\t'), ('\t', '\t'), ('n', '\n'),
    ('v', '\x0b'), ('f', '\x0c'), ('r', '\r'), ('e', '\x1b'), (' ', ' '), ('"', '"'), ('\\', '\\'),
    ('/', '/'), ('N', '\x85'), ('_', '\xa0'), ('L', '\u2028'), ('P', '\u2029')]

end AsciidocSpans.Yaml
