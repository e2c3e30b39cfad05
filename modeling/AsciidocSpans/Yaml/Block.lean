import AsciidocSpans.Yaml.Cursor
import AsciidocSpans.Yaml.ReadError

/-!
Block scalars: texts that stand on lines of their own behind a line that announces them. The
announcement may say how far the lines are indented, and what becomes of the line breaks at the end.
In a folded text a single break between two lines that begin with words becomes a space.
-/

set_option autoImplicit false
set_option relaxedAutoImplicit false

namespace AsciidocSpans.Yaml

/-- What becomes of the line breaks at the end of a text: one of them stays, none or all. -/
inductive Chomping where
  | clip
  | strip
  | keep
  deriving DecidableEq, Repr

/-- What the announcement of a text says. -/
structure BlockHeader where
  chomping : Chomping := .clip
  /-- How far the text is indented further than what it belongs to, if that is said. -/
  indent : Option Nat := none
  deriving DecidableEq, Repr

/-- What the next character says about a text, and the place behind it. -/
def readIndicator (header : BlockHeader) (cursor : Cursor) :
    Except ReadError (BlockHeader × Cursor) :=
  match cursor.rest with
  | [] => .ok (header, cursor)
  | c :: _ =>
    if c = '+' ∨ c = '-' then
      if header.chomping = .clip then
        .ok ({ header with chomping := if c = '+' then .keep else .strip }, cursor.next)
      else .ok (header, cursor)
    else match digitValue? 10 c with
      | some (n + 1) =>
        if header.indent.isNone then .ok ({ header with indent := some (n + 1) }, cursor.next)
        else .ok (header, cursor)
      | _ => .ok (header, cursor)

/-- The place behind the end of a line on which only a comment is left. -/
def behindLine (problem : TokenError) (cursor : Cursor) : Except ReadError Cursor :=
  let final := (cursor.behind (· == ' ')).behindComment
  if atBreak final.rest then .ok final.next else .error (.token problem)

/-- What the announcement of a text says, and the place behind it. -/
def readHeader (cursor : Cursor) : Except ReadError (BlockHeader × Cursor) := do
  let (header, cursor) ← readIndicator {} cursor
  let (header, cursor) ← readIndicator header cursor
  if atSpace cursor.rest then return (header, ← behindLine .improperHeader cursor)
  else throw (.token .improperHeader)

/-- The empty lines at a place, how far the widest of them and the next line are indented, and the
place where the next line has its first word. -/
def leadingLines (widest : Nat) : Nat → Cursor → Text × Nat × Cursor
  | 0, cursor => ([], widest, cursor)
  | steps + 1, cursor =>
    let word := cursor.behind (· == ' ')
    let widest := max widest word.column
    match word.lineBreak? with
    | none => ([], widest, word)
    | some (c, behind) =>
      let (further, widest, final) := leadingLines widest steps behind
      (c :: further, widest, final)

/-- The place behind the spaces that indent a line, at most up to a column. -/
def indented (column : Nat) (cursor : Cursor) : Cursor :=
  cursor.skip ((cursor.rest.take (column - cursor.column)).takeWhile (· == ' ')).length

/-- The empty lines at a place, and the place behind them and the indentation of the next line. -/
def emptyLines (column : Nat) : Nat → Cursor → Text × Cursor
  | 0, cursor => ([], cursor)
  | steps + 1, cursor =>
    let start := indented column cursor
    match start.lineBreak? with
    | none => ([], start)
    | some (c, behind) =>
      let (further, final) := emptyLines column steps behind
      (c :: further, final)

/-- What has been read of a text: its lines, the break behind the last one, the empty lines behind
that, and the place behind them. -/
structure BlockLines where
  content : Text
  lastBreak : Text
  breaks : Text
  behind : Cursor

/-- The lines of a text whose indentation is passed at a place, behind some empty lines. -/
def blockLines (folded : Bool) (column : Nat) : Nat → Text → Cursor → BlockLines
  | 0, breaks, cursor => ⟨[], [], breaks, cursor⟩
  | steps + 1, breaks, cursor =>
    if cursor.column ≠ column ∨ cursor.rest.isEmpty then ⟨[], [], breaks, cursor⟩
    else
      let (line, lineEnd) := cursor.span (!isBreak ·)
      let (lastBreak, start) := match lineEnd.lineBreak? with
        | some (c, start) => ([c], start)
        | none => ([], lineEnd)
      let (further, next) := emptyLines column start.steps start
      if next.column = column ∧ !next.rest.isEmpty then
        let isFolded := folded && lastBreak == ['\n'] && !line.head?.any isBlank &&
          !next.rest.head?.any isBlank
        let joint := if isFolded then if further.isEmpty then [' '] else [] else lastBreak
        let more := blockLines folded column steps further next
        { more with content := breaks ++ line ++ joint ++ more.content }
      else ⟨breaks ++ line, lastBreak, further, next⟩

/-- The text that is announced at a place, and the place behind it. What it belongs to is indented
to a given column, which is below zero outside of everything. -/
def readBlock (folded : Bool) (column : Int) (cursor : Cursor) :
    Except ReadError (Text × Cursor) := do
  let (header, start) ← readHeader cursor
  let least := max 1 (column + 1).toNat
  let (width, breaks, first) := match header.indent with
    | some further =>
      let width := least + further - 1
      let (breaks, first) := emptyLines width start.steps start
      (width, breaks, first)
    | none =>
      let (breaks, widest, first) := leadingLines 0 start.steps start
      (max least widest, breaks, first)
  let lines := blockLines folded width first.steps breaks first
  return match header.chomping with
    | .clip => (lines.content ++ lines.lastBreak, lines.behind)
    | .strip => (lines.content, lines.behind)
    | .keep => (lines.content ++ lines.lastBreak ++ lines.breaks, lines.behind)

end AsciidocSpans.Yaml
