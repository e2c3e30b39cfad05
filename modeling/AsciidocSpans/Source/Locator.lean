import AsciidocSpans.Source.Basic
import AsciidocSpans.Text.Search
import AsciidocSpans.Window

/-!
Finding literal text in a source. An element's text is a list of segments, one per line; they are
found where they occur, in order, on consecutive lines of a window. Comment lines before and
between the segments are passed over, except for verbatim text, which may look like comments.

`Locator.find?` gives the first place in a window, trying start lines from the first one on.
`Locator.findBefore?` looks at the lines before a window, the nearest first.
-/

set_option autoImplicit false
set_option relaxedAutoImplicit false

namespace AsciidocSpans

open Text

/-- What a search needs to know: the source, and the marker of its comment lines. -/
structure Locator where
  source : Source
  commentMarker : Text
  deriving DecidableEq, Repr

namespace Locator

/-- Whether a search passes over a line. Verbatim text takes every line as it is. -/
def skips (locator : Locator) (verbatim : Bool) (line : Text) : Bool :=
  !verbatim && locator.commentMarker.isPrefixOf line

/-- The first line that is not passed over, with its number, and the lines behind it; the state is
the number of the first line. -/
def nextLine? (skipped : Text → Bool) (number : Int) : List Text → Option (Int × Text × List Text)
  | [] => none
  | line :: rest =>
    if skipped line then nextLine? skipped (number + 1) rest else some (number, line, rest)

/-- The line of the last segment, with its number, if the segments occur one after the other from a
given line on. The first segment has to occur at `start` or behind it. -/
def lastLine? (skipped : Text → Bool) (start number : Int) (lines : List Text) :
    List Text → Option (Int × Text)
  | [] => none
  | segment :: more =>
    match nextLine? skipped number lines with
    | none => none
    | some (found, line, rest) =>
      if (column? segment line start).isNone then none
      else if more.isEmpty then some (found, line)
      else lastLine? skipped 0 (found + 1) rest more

/-- The span of the segments, given the line on which the search for them began and the line of the
last of them. The span starts on the former line: where the first segment occurs on it, or at column
zero if that line was passed over and does not hold the segment. -/
def spanOf (segments : List Text) (start : Int) (number : Int) (line : Text)
    (last : Int × Text) : Location :=
  let first := segments.headD []
  let final := segments.getLastD []
  let finalStart := if segments.length = 1 then start else 0
  { start := ⟨number, ((column? first line start).getD 0 : Nat)⟩
    stop := ⟨last.1, ((column? final last.2 finalStart).getD 0 + final.length : Nat)⟩ }

/-- The first match among so many start lines. Only the first of them is searched from `start`. -/
def scan? (skipped : Text → Bool) (segments : List Text) (start number : Int) :
    Nat → List Text → Option Location
  | 0, _ => none
  | _ + 1, [] => none
  | count + 1, line :: rest =>
    match lastLine? skipped start number (line :: rest) segments with
    | some last => some (spanOf segments start number line last)
    | none => scan? skipped segments 0 (number + 1) count rest

/-- The first line on which segments may start in a window. -/
def firstStart (window : Window) : Int :=
  max 1 window.minLine

/-- The last line on which segments may start in a window. -/
def lastStart (locator : Locator) (segments : List Text) (window : Window) : Int :=
  min window.maxLine locator.source.lineCount - segments.length + 1

/-- Whether a search in a window looks at any line. -/
def looks (locator : Locator) (segments : List Text) (window : Window) : Bool :=
  !segments.isEmpty && firstStart window ≤ locator.lastStart segments window

/-- The first place in a window at which the segments occur. -/
def find? (locator : Locator) (verbatim : Bool) (segments : List Text) (window : Window) :
    Option Location :=
  if segments.isEmpty then none
  else
    let first := firstStart window
    let last := locator.lastStart segments window
    scan? (locator.skips verbatim) segments window.startColumn first (last - first + 1).toNat
      (locator.source.lines.drop (first - 1).toNat)

/-- The window of a search from a line before another window: it ends with that window's first
line. -/
def windowFrom (line : Int) (window : Window) : Window :=
  { window with minLine := line, maxLine := window.minLine }

/-- The first match of a search from each of so many lines, going up from a given line. -/
def searchUp? (locator : Locator) (verbatim : Bool) (segments : List Text) (window : Window)
    (line : Int) : Nat → Option Location
  | 0 => none
  | count + 1 =>
    match locator.find? verbatim segments (windowFrom line window) with
    | some location => some location
    | none => searchUp? locator verbatim segments window (line - 1) count

/-- The nearest place before a window, from the highest line on, at which the segments occur. -/
def findBackTo? (locator : Locator) (verbatim : Bool) (segments : List Text) (window : Window)
    (highest : Int) : Option Location :=
  locator.searchUp? verbatim segments window (window.minLine - 1) (window.minLine - highest).toNat

/-- Whether a search before a window, from the highest line on, looks at any line. -/
def looksBackTo (locator : Locator) (segments : List Text) (window : Window) (highest : Int) :
    Bool :=
  highest < window.minLine && locator.looks segments (windowFrom highest window)

/-- The nearest place at most `lookback` lines before a window at which the segments occur. -/
def findBefore? (locator : Locator) (verbatim : Bool) (segments : List Text) (window : Window)
    (lookback : Int) : Option Location :=
  locator.findBackTo? verbatim segments window (window.highestLine lookback)

end Locator

end AsciidocSpans
