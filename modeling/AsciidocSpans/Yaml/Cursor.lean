import AsciidocSpans.Yaml.Character

/-!
A place in a YAML text: what is left of the text, and on which line and in which column it begins.
A byte order mark takes up no column.
-/

set_option autoImplicit false
set_option relaxedAutoImplicit false

namespace AsciidocSpans.Yaml

/-- A place in a text. -/
structure Cursor where
  /-- The text from here on. -/
  rest : Text
  /-- The number of characters before it. -/
  index : Nat := 0
  line : Nat := 0
  column : Nat := 0
  deriving DecidableEq, Repr

namespace Cursor

/-- The place behind the next character. -/
def next (cursor : Cursor) : Cursor :=
  match cursor.rest with
  | [] => cursor
  | c :: rest =>
    let index := cursor.index + 1
    if isBreak c then { rest, index, line := cursor.line + 1, column := 0 }
    else if c = '\ufeff' then { cursor with rest, index }
    else { cursor with rest, index, column := cursor.column + 1 }

/-- The place so many characters further on. -/
def skip (cursor : Cursor) : Nat → Cursor
  | 0 => cursor
  | count + 1 => cursor.next.skip count

/-- The characters from here on that pass a test, and the place behind them. -/
def span (cursor : Cursor) (test : Char → Bool) : Text × Cursor :=
  let word := cursor.rest.takeWhile test
  (word, cursor.skip word.length)

/-- The place behind the characters that pass a test. -/
def behind (cursor : Cursor) (test : Char → Bool) : Cursor :=
  (cursor.span test).2

/-- The line break that stands here, as the character it counts as, and the place behind it. -/
def lineBreak? (cursor : Cursor) : Option (Char × Cursor) :=
  match cursor.rest with
  | c :: _ =>
    if isBreak c then some (if c = '\x85' then '\n' else c, cursor.next) else none
  | [] => none

/-- The place behind a comment, if one stands here. -/
def behindComment (cursor : Cursor) : Cursor :=
  if atAny "#" cursor.rest then cursor.behind (!isBreak ·) else cursor

/-- More steps than there are characters left. -/
def steps (cursor : Cursor) : Nat :=
  cursor.rest.length + 1

end Cursor

end AsciidocSpans.Yaml
