import AsciidocSpans.Proofs.Span.Matched

/-!
How far a search reads. A window has room for as many lines as there are segments from every line
on which a search tries to start, but the lines that the search passes over take up room too: behind
them it goes on past the last line of the window.

A search along the first lines of a list gives what the search along all of them gives, if that
comes to its end among the first ones (`lastLine?_take`). The same holds of a scan: once a try goes
past the first lines, there are too few lines that are not passed over left for a later one to end
there (`scan?_take`). So a match ends in its window just if it is found without the lines behind
that window too, and just if enough lines of the window are not passed over (`Extent`,
`extent_of_find?`).
-/

set_option autoImplicit false
set_option relaxedAutoImplicit false

namespace AsciidocSpans.Locator

open Text

variable {skipped : Text → Bool} {start number : Int} {lines segments : List Text}

/-! ### Searching the first lines -/

section FirstLines

/-- Without lines, a search finds nothing. -/
theorem lastLine?_nil : lastLine? skipped start number [] segments = none := by
  cases segments <;> rfl

/-- A search comes to its end on none of the lines before its first one. -/
theorem le_of_lastLine? {last : Int × Text}
    (h : lastLine? skipped start number lines segments = some last) : number ≤ last.1 := by
  obtain ⟨count, hlast, -⟩ := forall₂_of_lastLine? h
  omega

/-- A search along the first lines comes to its end where the search along all lines does, if it
does so among them. -/
theorem lastLine?_take (count : Nat) :
    lastLine? skipped start number (lines.take count) segments =
      (lastLine? skipped start number lines segments).filter fun last ↦
        last.1 < number + count := by
  induction lines generalizing start number segments count with
  | nil =>
    rw [List.take_nil, lastLine?_nil]
    rfl
  | cons line rest ih =>
    cases count with
    | zero =>
      rw [List.take_zero, lastLine?_nil, eq_comm, Option.filter_eq_none_iff]
      intro last hlast
      have hfirst := le_of_lastLine? hlast
      simpa using hfirst
    | succ count =>
      have hbound : number + 1 + (count : Int) = number + (count + 1 : Nat) := by
        push_cast
        omega
      rw [List.take_succ_cons]
      cases hline : skipped line with
      | true => rw [lastLine?_of_skipped hline, lastLine?_of_skipped hline, ih, hbound]
      | false =>
        cases segments with
        | nil => rfl
        | cons segment more =>
          rw [lastLine?_cons_of_not_skipped hline, lastLine?_cons_of_not_skipped hline, ih, hbound]
          split
          · rfl
          · split
            · have hhere : number < number + (count + 1 : Nat) := by omega
              rw [Option.filter_some, if_pos (decide_eq_true hhere)]
            · rfl

/-- A search comes to its end among the first lines just if enough of them are not passed over. -/
theorem lastLine?_lt_iff {last : Int × Text}
    (h : lastLine? skipped start number lines segments = some last) (count : Nat) :
    last.1 < number + count ↔
      segments.length ≤ ((lines.take count).filter fun line ↦ !skipped line).length := by
  obtain ⟨index, hlast, hget, hkept, hvalues⟩ := forall₂_of_lastLine? h
  have hlength := hvalues.length_eq
  constructor
  · intro hlt
    have hfirst : (lines.take (index + 1)).Sublist (lines.take count) :=
      (List.take_prefix_take_left (by omega)).sublist
    rw [hlength]
    exact (hfirst.filter _).length_le
  · intro hle
    by_contra hge
    -- The line on which the search ends is the last one that it takes.
    have hbefore : segments.length =
        ((lines.take index).filter fun line ↦ !skipped line).length + 1 := by
      rw [hlength, List.take_add_one, hget, Option.toList_some, List.filter_append,
        List.filter_cons_of_pos (by rw [hkept]; rfl), List.filter_nil, List.length_append,
        List.length_singleton]
    have hfirst : (lines.take count).Sublist (lines.take index) :=
      (List.take_prefix_take_left (by omega)).sublist
    have hfew : ((lines.take count).filter fun line ↦ !skipped line).length ≤
        ((lines.take index).filter fun line ↦ !skipped line).length :=
      (hfirst.filter _).length_le
    omega

/-- Where a scan finds something, there are at least as many lines that are not passed over as there
are segments, and the match ends on none of the lines before. -/
theorem le_of_scan? {count : Nat} {location : Location}
    (h : scan? skipped segments start number count lines = some location) :
    segments.length ≤ (lines.filter fun line ↦ !skipped line).length ∧
      number ≤ location.stop.line := by
  obtain ⟨index, line, rest, last, -, hdrop, hlast, rfl⟩ := scan?_eq_some h
  have hfirst := le_of_lastLine? hlast
  obtain ⟨further, -, -, -, hvalues⟩ := forall₂_of_lastLine? hlast
  have hpart : ((line :: rest).take (further + 1)).Sublist lines :=
    (List.take_sublist _ _).trans (hdrop ▸ List.drop_sublist index lines)
  constructor
  · rw [hvalues.length_eq]
    exact (hpart.filter _).length_le
  · rw [spanOf]
    dsimp only
    omega

/-- A scan of the first lines gives what the scan of all lines gives, if that ends among them. -/
theorem scan?_take (count bound : Nat) :
    scan? skipped segments start number count (lines.take bound) =
      (scan? skipped segments start number count lines).filter fun location ↦
        location.stop.line < number + bound := by
  induction count generalizing start number lines bound with
  | zero => rfl
  | succ count ih =>
    cases lines with
    | nil =>
      rw [List.take_nil]
      rfl
    | cons line rest =>
      cases bound with
      | zero =>
        rw [List.take_zero, scan?, eq_comm, Option.filter_eq_none_iff]
        intro location hlocation
        have hfirst := (le_of_scan? hlocation).2
        simpa using hfirst
      | succ bound =>
        have hbound : number + 1 + (bound : Int) = number + (bound + 1 : Nat) := by
          push_cast
          omega
        rw [List.take_succ_cons, scan?, scan?, ← List.take_succ_cons, lastLine?_take]
        cases hlast : lastLine? skipped start number (line :: rest) segments with
        | none => simp only [Option.filter_none, ih, hbound]
        | some last =>
          have hstop : (spanOf segments start number line last).stop.line = last.1 := rfl
          by_cases hinside : last.1 < number + (bound + 1 : Nat)
          · simp only [Option.filter_some, hinside, hstop, decide_true, if_true]
          · -- The lines that are left hold too few that are not passed over for a later try.
            have hfew : ¬ segments.length ≤ _ := mt (lastLine?_lt_iff hlast (bound + 1)).mpr hinside
            have hnone : scan? skipped segments 0 (number + 1) count (rest.take bound) = none := by
              by_contra hsome
              obtain ⟨location, hlocation⟩ := Option.ne_none_iff_exists'.mp hsome
              have hleft := (le_of_scan? hlocation).1
              have hpart : (rest.take bound).Sublist ((line :: rest).take (bound + 1)) :=
                List.sublist_cons_self _ _
              exact hfew (hleft.trans (hpart.filter _).length_le)
            simp only [Option.filter_some, hinside, hstop, decide_false, Bool.false_eq_true,
              if_false, hnone]

end FirstLines

/-! ### Searching a window -/

section Windows

variable {locator cut : Locator} {verbatim : Bool} {window : Window} {location : Location}

/-- The lines of a window from a line on that a search does not pass over. -/
def linesLeft (locator : Locator) (verbatim : Bool) (window : Window) (first : Int) : List Text :=
  locator.source.keptLines (locator.skips verbatim) ⟨⟨first, 0⟩, ⟨window.maxLine, 0⟩⟩

/-- A source is cut behind a line: there are only the lines up to that one. -/
structure CutBehind (cut locator : Locator) (line : Int) : Prop where
  commentMarker : cut.commentMarker = locator.commentMarker
  lines : cut.source.lines = locator.source.lines.take line.toNat

/-- How far a match reaches. It starts in its window, on a line from which the window and the source
have room for all segments. It ends in the window just if as many of the window's lines from its
start on as there are segments are not passed over, which holds if none of them is. Without the
lines behind the window it is found just if it ends in the window, and nothing else is found. -/
structure Extent (locator : Locator) (verbatim : Bool) (segments : List Text) (window : Window)
    (location : Location) : Prop where
  low : window.minLine ≤ location.start.line
  room : location.start.line + segments.length ≤
    min window.maxLine locator.source.lineCount + 1
  stop_le_iff : location.stop.line ≤ window.maxLine ↔
    segments.length ≤ (locator.linesLeft verbatim window location.start.line).length
  stop_le : (∀ number line, location.start.line ≤ number → number ≤ window.maxLine →
    locator.source.line? number = some line → locator.skips verbatim line = false) →
      location.stop.line ≤ window.maxLine
  without : ∀ cut : Locator, cut.CutBehind locator window.maxLine →
    cut.find? verbatim segments window =
      if location.stop.line ≤ window.maxLine then some location else none

/-- Without the lines behind a window, a search in it finds what it finds with them if that ends in
the window, and nothing otherwise. -/
theorem find?_of_cutBehind (h : cut.CutBehind locator window.maxLine) :
    cut.find? verbatim segments window =
      (locator.find? verbatim segments window).filter fun location ↦
        location.stop.line ≤ window.maxLine := by
  have hskips : cut.skips verbatim = locator.skips verbatim := by
    funext line
    rw [skips, skips, h.commentMarker]
  have hlast : cut.lastStart segments window = locator.lastStart segments window := by
    rw [lastStart, lastStart, Source.lineCount, Source.lineCount, h.lines, List.length_take]
    omega
  rw [find?, find?, hskips, hlast, h.lines]
  dsimp only
  split
  · rfl
  · next hsegments =>
    have hlength := List.length_pos_iff.mpr fun hnil ↦ hsegments (List.isEmpty_iff.mpr hnil)
    rw [List.drop_take, scan?_take]
    by_cases hnever : locator.lastStart segments window < firstStart window
    · have hcount : (locator.lastStart segments window - firstStart window + 1).toNat = 0 := by
        omega
      rw [hcount]
      rfl
    · have hend : firstStart window +
          ((window.maxLine.toNat - (firstStart window - 1).toNat : Nat) : Int) =
            window.maxLine + 1 := by
        rw [lastStart, firstStart] at hnever
        rw [firstStart]
        omega
      simp only [hend, Int.lt_add_one_iff]

/-- A match ends in its window just if enough lines of the window are not passed over. -/
theorem stop_le_iff_of_find? (h : locator.find? verbatim segments window = some location) :
    location.stop.line ≤ window.maxLine ↔
      segments.length ≤ (locator.linesLeft verbatim window location.start.line).length := by
  obtain ⟨number, line, rest, last, hsegments, -, hroom, hdrop, hlast, rfl⟩ :=
    exists_hit_of_find? h
  have hlength := List.length_pos_iff.mpr hsegments
  rw [lastStart] at hroom
  rw [linesLeft, Source.keptLines, spanOf]
  dsimp only
  rw [hdrop, ← lastLine?_lt_iff hlast]
  omega

/-- A match starts in its window, where this and the source have room for all segments. -/
theorem room_of_find? (h : locator.find? verbatim segments window = some location) :
    segments ≠ [] ∧ max 1 window.minLine ≤ location.start.line ∧
      location.start.line + segments.length ≤ min window.maxLine locator.source.lineCount + 1 := by
  obtain ⟨number, line, rest, last, hsegments, hfirst, hroom, -, -, rfl⟩ := exists_hit_of_find? h
  rw [lastStart] at hroom
  refine ⟨hsegments, hfirst, ?_⟩
  rw [spanOf]
  dsimp only
  omega

/-- A match ends no higher than its window starts. -/
theorem minLine_le_stop_of_find? (h : locator.find? verbatim segments window = some location) :
    window.minLine ≤ location.stop.line := by
  have hstart := (room_of_find? h).2.1
  have hordered := Position.line_le_of_le (ordered_of_find? h)
  omega

/-- Where nothing is passed over, all lines of a window are left. -/
theorem length_linesLeft {first : Int} (hfirst : 1 ≤ first)
    (h : ∀ number line, first ≤ number → number ≤ window.maxLine →
      locator.source.line? number = some line → locator.skips verbatim line = false) :
    min window.maxLine locator.source.lineCount + 1 ≤
      first + (locator.linesLeft verbatim window first).length := by
  have hall : ((locator.source.lines.drop (first - 1).toNat).take
      (window.maxLine - first + 1).toNat).filter (fun line ↦ !locator.skips verbatim line) =
      (locator.source.lines.drop (first - 1).toNat).take (window.maxLine - first + 1).toNat := by
    refine List.filter_eq_self.mpr fun line hline ↦ ?_
    obtain ⟨index, hindex, rfl⟩ := List.mem_iff_getElem.mp hline
    rw [List.length_take] at hindex
    have hlast : first + index ≤ window.maxLine := by omega
    rw [h (first + index) _ (by omega) hlast, Bool.not_false]
    rw [Source.line?_eq_getElem? _ (by omega), List.getElem_take, List.getElem_drop,
      show (first + index - 1).toNat = (first - 1).toNat + index by omega]
    exact List.getElem?_eq_getElem _
  rw [linesLeft, Source.keptLines]
  dsimp only
  rw [hall, List.length_take, List.length_drop, Source.lineCount]
  omega

/-- Every match starts in its window, and ends there just if the lines behind the window do not
matter, that is, if enough of the window's lines are not passed over. -/
theorem extent_of_find? (h : locator.find? verbatim segments window = some location) :
    Extent locator verbatim segments window location := by
  obtain ⟨-, hlow, hroom⟩ := room_of_find? h
  have hstop := stop_le_iff_of_find? h
  refine ⟨Int.le_trans (Int.le_max_right 1 _) hlow, hroom, hstop, fun hkept ↦ ?_, fun cut hcut ↦ ?_⟩
  · have hleft := length_linesLeft (Int.le_trans (Int.le_max_left 1 _) hlow) hkept
    exact hstop.mpr (by omega)
  · rw [find?_of_cutBehind hcut, h, Option.filter_some]
    simp only [decide_eq_true_eq]

/-- A source with comments, of which only the first one is passed over by a match of `a` and `b`. -/
def interruptedSource : Locator :=
  { source := .ofText "a\n// c\nb\n// d\nb".toList, commentMarker := "//".toList }

/-- In a window of three lines, two of them are left, and the match ends on the last one. -/
theorem extent_of_find?_interruptedSource :
    interruptedSource.find? false [['a'], ['b']] { minLine := 0, maxLine := 3 } =
        some ⟨⟨1, 0⟩, ⟨3, 1⟩⟩ ∧
      Extent interruptedSource false [['a'], ['b']] { minLine := 0, maxLine := 3 }
        ⟨⟨1, 0⟩, ⟨3, 1⟩⟩ :=
  ⟨by decide, extent_of_find? (by decide)⟩

/-- In a window of the comment line alone, the text behind it is found, on the line behind the
window. -/
theorem exists_match_behind_window :
    ∃ (locator : Locator) (segments : List Text) (window : Window) (location : Location),
      0 ≤ window.startColumn ∧ locator.find? false segments window = some location ∧
        ¬ (window.minLine ≤ location.start.line ∧ location.stop.line ≤ window.maxLine) :=
  ⟨⟨.ofText "// c\na".toList, "//".toList⟩, [['a']], { minLine := 1, maxLine := 1 },
    ⟨⟨1, 0⟩, ⟨2, 1⟩⟩, by decide, by decide, by decide⟩

end Windows

end AsciidocSpans.Locator
