import AsciidocSpans.Yaml.Quoted

/-!
Plain scalars. They go on over spaces, and over further lines that are indented far enough, up to a
colon before white space, a number sign behind white space or, in a flow collection, one of the
characters that give it its form. Lines are folded as between quotes.
-/

set_option autoImplicit false
set_option relaxedAutoImplicit false

namespace AsciidocSpans.Yaml

/-- Whether a run of plain characters ends before a character. -/
def endsRun (inFlow : Bool) (c : Char) (behind : Text) : Bool :=
  isBlank c || isBreak c ||
    (c == ':' && (atBlank behind || (inFlow && atAny ",[]\x7b\x7d" behind))) ||
    (inFlow && atAny ",?[]\x7b\x7d" [c])

/-- The plain characters at the start of a text. -/
def plainRun (inFlow : Bool) : Text → Text
  | [] => []
  | c :: rest => if endsRun inFlow c rest then [] else c :: plainRun inFlow rest

/-- The line breaks from a place on, with spaces before each of them, and the place behind them and
the spaces before the next word. There are none if a document starts or ends on the way. -/
def plainBreaks : Nat → Cursor → Option Text × Cursor
  | 0, cursor => (none, cursor)
  | steps + 1, cursor =>
    let word := cursor.behind (· == ' ')
    match word.lineBreak? with
    | none => (some [], word)
    | some (c, behind) =>
      if atMarker behind.rest then (none, behind)
      else
        let (further, final) := plainBreaks steps behind
        (further.map (c :: ·), final)

/-- The gap between two runs. -/
structure PlainGap where
  /-- What it means; nothing if the scalar does not go on behind it. -/
  meaning : Text
  /-- Whether a line ends in it. -/
  breaks : Bool
  behind : Cursor

/-- The gap at a place. -/
def plainGap (cursor : Cursor) : PlainGap :=
  let (spaces, behind) := cursor.span (· == ' ')
  match behind.lineBreak? with
  | none => ⟨spaces, false, behind⟩
  | some (c, start) =>
    if atMarker start.rest then ⟨[], true, start⟩
    else match plainBreaks start.steps start with
      | (some further, final) => ⟨foldedBreak c further, true, final⟩
      | (none, final) => ⟨[], true, final⟩

/-- The plain scalar at a place, whether a line ends behind it, and the place behind it. Its further
lines are indented at least to column `least`. -/
def readPlain (inFlow : Bool) (least : Int) : Nat → Cursor → Text × Bool × Cursor
  | 0, cursor => ([], false, cursor)
  | steps + 1, cursor =>
    let run := plainRun inFlow cursor.rest
    let gap := plainGap (cursor.skip run.length)
    let goesOn := !gap.meaning.isEmpty && !atAny "#" gap.behind.rest &&
      (inFlow || least ≤ gap.behind.column) && !(plainRun inFlow gap.behind.rest).isEmpty
    if goesOn then
      let (further, breaks, final) := readPlain inFlow least steps gap.behind
      (run ++ gap.meaning ++ further, breaks, final)
    else (run, gap.breaks, gap.behind)

end AsciidocSpans.Yaml
