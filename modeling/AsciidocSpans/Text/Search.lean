import AsciidocSpans.Text.Basic

/-!
Occurrences of one text inside another. `find?` gives the first column at which a text occurs,
`findFrom?` the first one from a given column on. A search that starts beyond the end of the line
finds nothing, not even the empty text; the empty text occurs at every column up to the end.
-/

set_option autoImplicit false
set_option relaxedAutoImplicit false

namespace AsciidocSpans.Text

/-- The first index at which `needle` occurs in a text. -/
def find? (needle : Text) : Text → Option Nat
  | [] => if needle.isEmpty then some 0 else none
  | c :: rest =>
    if needle.isPrefixOf (c :: rest) then some 0 else (find? needle rest).map (· + 1)

/-- The first index from `start` on at which `needle` occurs. -/
def findFrom? (needle text : Text) (start : Nat) : Option Nat :=
  if text.length < start then none
  else (find? needle (text.drop start)).map (· + start)

/-- The column that a signed start means in a text: one below zero counts from the end. -/
def startIndex (text : Text) (start : Int) : Nat :=
  if 0 ≤ start then start.toNat else (start + text.length).toNat

/-- The first column from a signed start on at which `needle` occurs. -/
def column? (needle text : Text) (start : Int) : Option Nat :=
  findFrom? needle text (text.startIndex start)

/-- The slice of a text between two signed offsets; an offset below zero counts from the end. -/
def slice (text : Text) (first last : Int) : Text :=
  (text.take (text.startIndex last)).drop (text.startIndex first)

end AsciidocSpans.Text
