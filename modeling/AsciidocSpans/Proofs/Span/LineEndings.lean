import AsciidocSpans.Proofs.Span.Search
import AsciidocSpans.Proofs.Text.LineEndings
import Mathlib.Data.Option.Basic

/-!
Searches in texts with other line endings. The lines of a padded source are the lines of another one
with carriage returns at their ends (`Locator.Padded`). A search for segments without carriage
returns finds the same spans in both (`find?_of_padded`, `findBackTo?_of_padded`). The exception are
empty segments, which may occur behind the end of the shorter line. A search for them has to begin
at the start of a line or at a position of a line that is not passed over (`Sound`), and that is
where every span that was found ends (`grounded_of_find?`).

The spans of a source exist in the padded source too, where the carriage returns before a position
come on top of its offset (`range?_withReturns`).
-/

set_option autoImplicit false
set_option relaxedAutoImplicit false

namespace AsciidocSpans

open Text

namespace Locator

section Lines

variable {skipped : Text → Bool} {lines longer segments : List Text} {start : Int}

/-- A search from a start on the first of some lines reaches the end of the line that it takes: the
first segment is not empty, or the search begins at the start of a line or on the line itself. -/
def Reaches (skipped : Text → Bool) (segments : List Text) (start : Int) (lines : List Text) :
    Prop :=
  0 ≤ start ∧ (segments.headD [] ≠ [] ∨ start = 0 ∨
    ∀ line ∈ lines.head?, skipped line = false ∧ start ≤ line.length)

theorem reaches_zero (skipped : Text → Bool) (segments lines : List Text) :
    Reaches skipped segments 0 lines :=
  ⟨Int.le_refl 0, .inr (.inl rfl)⟩

/-- What a search takes next among padded lines. -/
theorem nextLine?_of_padded
    (hskipped : ∀ line longer, Text.Padded line longer → skipped longer = skipped line)
    (h : List.Forall₂ Text.Padded lines longer) (number : Int) :
    Option.Rel (fun next padded : Int × Text × List Text ↦ padded.1 = next.1 ∧
        Text.Padded next.2.1 padded.2.1 ∧ List.Forall₂ Text.Padded next.2.2 padded.2.2)
      (nextLine? skipped number lines) (nextLine? skipped number longer) := by
  induction h generalizing number with
  | nil => exact .none
  | cons hline hrest ih =>
    rw [nextLine?, nextLine?, hskipped _ _ hline]
    split
    · exact ih (number + 1)
    · exact .some ⟨rfl, hline, hrest⟩

/-- The line that a search takes lies no further left than its start reaches. -/
theorem Reaches.le_length (h : Reaches skipped segments start lines) {number found : Int}
    {line : Text} {rest : List Text}
    (hnext : nextLine? skipped number lines = some (found, line, rest)) :
    segments.headD [] ≠ [] ∨ start ≤ line.length := by
  rcases h.2 with hsome | rfl | hfirst
  · exact .inl hsome
  · exact .inr (Int.natCast_nonneg _)
  · cases lines with
    | nil => cases hnext
    | cons first others =>
      obtain ⟨hkept, hlength⟩ := hfirst first rfl
      rw [nextLine?, hkept, if_neg Bool.false_ne_true] at hnext
      cases hnext
      exact .inr hlength

/-- The segments come to their end on the same line among padded lines. -/
theorem lastLine?_of_padded
    (hskipped : ∀ line longer, Text.Padded line longer → skipped longer = skipped line)
    (h : List.Forall₂ Text.Padded lines longer) (hsegments : ∀ segment ∈ segments, '\r' ∉ segment)
    (hreach : Reaches skipped segments start lines) (number : Int) :
    Option.Rel (fun last padded : Int × Text ↦ padded.1 = last.1 ∧ Text.Padded last.2 padded.2)
      (lastLine? skipped start number lines segments)
      (lastLine? skipped start number longer segments) := by
  induction segments generalizing start number lines longer with
  | nil => exact .none
  | cons segment more ih =>
    obtain ⟨hsegment, hmore⟩ := List.forall_mem_cons.mp hsegments
    have hnext := nextLine?_of_padded hskipped h number
    rw [lastLine?, lastLine?]
    generalize hshort : nextLine? skipped number lines = next at hnext ⊢
    generalize nextLine? skipped number longer = padded at hnext ⊢
    cases hnext with
    | none => exact .none
    | @some next padded hrel =>
      obtain ⟨found, line, rest⟩ := next
      obtain ⟨same, wide, behind⟩ := padded
      obtain ⟨hfound, hline, hrest⟩ := hrel
      dsimp only at hfound hline hrest ⊢
      subst hfound
      rw [column?_of_padded hline hsegment hreach.1 (hreach.le_length hshort)]
      split
      · exact .none
      · split
        · exact .some ⟨rfl, hline⟩
        · exact ih hrest hmore (reaches_zero _ _ _) _

/-- The span of segments is the same among padded lines. -/
theorem spanOf_of_padded {line wide : Text} {rest : List Text} {number : Int}
    {last padded : Int × Text} (hline : Text.Padded line wide)
    (hsegments : ∀ segment ∈ segments, '\r' ∉ segment)
    (hreach : Reaches skipped segments start (line :: rest))
    (hlast : lastLine? skipped start number (line :: rest) segments = some last)
    (hnumber : padded.1 = last.1) (hpadded : Text.Padded last.2 padded.2) :
    spanOf segments start number wide padded = spanOf segments start number line last := by
  have hsome : segments ≠ [] := by
    rintro rfl
    cases hlast
  have hfirst : '\r' ∉ segments.headD [] := by
    obtain ⟨first, others, rfl⟩ := List.exists_cons_of_ne_nil hsome
    exact hsegments first List.mem_cons_self
  have hfinal : '\r' ∉ segments.getLastD [] := by
    rw [List.getLastD_eq_getLast?, List.getLast?_eq_some_getLast hsome]
    exact hsegments _ (List.getLast_mem hsome)
  obtain ⟨-, -, -, -, -, hcolumn⟩ := lastLine?_eq_some hsome hlast
  have hstart : 0 ≤ (if segments.length = 1 then start else 0) := by
    split
    · exact hreach.1
    · exact Int.le_refl 0
  have hwithin : (if segments.length = 1 then start else 0) ≤ last.2.length := by
    obtain ⟨column, hcolumn⟩ := Option.isSome_iff_exists.mp hcolumn
    have hindex := (column?_eq_some_iff.mp hcolumn).1
    rw [startIndex, if_pos hstart] at hindex
    omega
  have hopen : segments.headD [] ≠ [] ∨ start ≤ line.length := by
    rcases hreach.2 with hnonempty | rfl | hkept
    · exact .inl hnonempty
    · exact .inr (Int.natCast_nonneg _)
    · exact .inr (hkept line rfl).2
  rw [spanOf, spanOf, hnumber, column?_of_padded hline hfirst hreach.1 hopen,
    column?_of_padded hpadded hfinal hstart (.inr hwithin)]

/-- A scan of padded lines finds the same span. -/
theorem scan?_of_padded
    (hskipped : ∀ line longer, Text.Padded line longer → skipped longer = skipped line)
    (h : List.Forall₂ Text.Padded lines longer) (hsegments : ∀ segment ∈ segments, '\r' ∉ segment)
    (hreach : Reaches skipped segments start lines) (number : Int) (count : Nat) :
    scan? skipped segments start number count longer =
      scan? skipped segments start number count lines := by
  induction count generalizing start number lines longer with
  | zero => rfl
  | succ count ih =>
    cases h with
    | nil => rfl
    | @cons line wide rest behind hline hrest =>
      have hlast := lastLine?_of_padded hskipped (.cons hline hrest) hsegments hreach number
      rw [scan?, scan?]
      generalize hshort : lastLine? skipped start number (line :: rest) segments = last at hlast ⊢
      generalize lastLine? skipped start number (wide :: behind) segments = padded at hlast ⊢
      cases hlast with
      | none => exact ih hrest (reaches_zero _ _ _) _
      | some hrel =>
        exact congrArg some (spanOf_of_padded hline hsegments hreach hshort hrel.1 hrel.2)

end Lines

/-- A source whose lines are those of another one with carriage returns at their ends, searched with
the same marker. -/
structure Padded (locator padded : Locator) : Prop where
  lines : List.Forall₂ Text.Padded locator.source.lines padded.source.lines
  marker : padded.commentMarker = locator.commentMarker
  returnless : '\r' ∉ locator.commentMarker

/-- A position on a line that is not passed over. -/
def Landed (locator : Locator) (position : Position) : Prop :=
  locator.source.HasPosition position ∧
    ∀ line ∈ locator.source.line? position.line, locator.skips false line = false

/-- A window whose first line is searched from its start, or from a position on a line that is not
passed over. -/
def Sound (locator : Locator) (window : Window) : Prop :=
  window.startColumn = 0 ∨ locator.Landed ⟨window.minLine, window.startColumn⟩

/-- A span that exists and ends on a line that is not passed over. -/
structure Grounded (locator : Locator) (location : Location) : Prop where
  span : locator.source.HasSpan location
  stop : locator.Landed location.stop

section Searches

variable {locator padded : Locator} {segments : List Text} {window : Window} {location : Location}

theorem Padded.skips_eq (h : locator.Padded padded) : padded.skips = locator.skips := by
  funext inListing line
  rw [skips, skips, h.marker]

/-- Comments are passed over among padded lines as they are among the lines. -/
theorem Padded.skips_of_padded (h : locator.Padded padded) {line longer : Text}
    (hline : Text.Padded line longer) : locator.skips false longer = locator.skips false line := by
  rw [skips, skips, isPrefixOf_padded hline h.returnless]

theorem Padded.lineCount_eq (h : locator.Padded padded) :
    padded.source.lineCount = locator.source.lineCount :=
  h.lines.length_eq.symm

theorem Sound.startColumn_nonneg (h : locator.Sound window) : 0 ≤ window.startColumn := by
  rcases h with hzero | hlanded
  · omega
  · exact hlanded.1.2.1

theorem Sound.reaches (h : locator.Sound window) :
    Reaches (locator.skips false) segments window.startColumn
      (locator.source.lines.drop (firstStart window - 1).toNat) := by
  refine ⟨h.startColumn_nonneg, .inr ?_⟩
  rcases h with hzero | ⟨⟨hone, -, line, hline, hlength⟩, hkept⟩
  · exact .inl hzero
  · refine .inr fun first hfirst ↦ ?_
    have hstart : firstStart window = window.minLine := Int.max_eq_right hone
    rw [List.head?_drop, hstart, ← Source.line?_eq_getElem? _ hone] at hfirst
    refine ⟨hkept first hfirst, ?_⟩
    rw [Option.mem_def.mp hfirst] at hline
    cases hline
    exact hlength

/-- A search for segments without carriage returns finds the same in a padded source. -/
theorem find?_of_padded (h : locator.Padded padded)
    (hsegments : ∀ segment ∈ segments, '\r' ∉ segment)
    (hopen : locator.Sound window ∨ 0 ≤ window.startColumn ∧ segments.headD [] ≠ []) :
    padded.find? false segments window = locator.find? false segments window := by
  have hreach : Reaches (locator.skips false) segments window.startColumn
      (locator.source.lines.drop (firstStart window - 1).toNat) := by
    rcases hopen with hsound | ⟨hcolumn, hfirst⟩
    · exact hsound.reaches
    · exact ⟨hcolumn, .inl hfirst⟩
  rw [find?, find?]
  split
  · rfl
  · rw [lastStart, lastStart, h.lineCount_eq, h.skips_eq]
    exact scan?_of_padded (fun _ _ ↦ h.skips_of_padded) (List.forall₂_drop _ h.lines) hsegments
      hreach _ _

/-- So does a search for a text before a window. -/
theorem findBackTo?_of_padded (h : locator.Padded padded) {segment : Text} (hsome : segment ≠ [])
    (hsegment : '\r' ∉ segment) (hcolumn : 0 ≤ window.startColumn) (highest : Int) :
    padded.findBackTo? false [segment] window highest =
      locator.findBackTo? false [segment] window highest := by
  have hsegments : ∀ other ∈ [segment], '\r' ∉ other :=
    fun other hother ↦ List.mem_singleton.mp hother ▸ hsegment
  rw [findBackTo?, findBackTo?]
  generalize window.minLine - 1 = line
  generalize (window.minLine - highest).toNat = count
  induction count generalizing line with
  | zero => rfl
  | succ count ih =>
    have hopen : 0 ≤ (windowFrom line window).startColumn ∧ [segment].headD [] ≠ [] :=
      ⟨hcolumn, hsome⟩
    rw [searchUp?, searchUp?, find?_of_padded h hsegments (.inr hopen), ih]

theorem looks_of_padded (h : locator.Padded padded) (segments : List Text) (window : Window) :
    padded.looks segments window = locator.looks segments window := by
  rw [looks, looks, lastStart, lastStart, h.lineCount_eq]

/-- A span that was found ends on a line that is not passed over. -/
theorem grounded_of_find? (h : locator.find? false segments window = some location) :
    locator.Grounded location := by
  refine ⟨hasSpan_of_find? h, (hasPosition_of_find? h).2, fun line hline ↦ ?_⟩
  obtain ⟨number, first, rest, last, hsegments, hfirst, -, hdrop, hlast, rfl⟩ :=
    exists_hit_of_find? h
  have hone : (1 : Int) ≤ number := Int.le_trans (Int.le_max_left _ _) hfirst
  obtain ⟨count, hcount, -, hget, hkept, -⟩ := lastLine?_eq_some hsegments hlast
  have hlater : locator.source.line? last.1 = some last.2 := by
    rw [Source.line?_eq_getElem? _ (by omega), ← hget, ← hdrop, List.getElem?_drop]
    exact congrArg (fun n ↦ locator.source.lines[n]?) (by omega)
  change locator.source.line? last.1 = some line at hline
  rw [hlater] at hline
  cases hline
  exact hkept

/-- The span that covers such spans is one of them. -/
theorem grounded_unionAll {first : Location} {others : List Location}
    (h : ∀ location ∈ first :: others, locator.Grounded location) :
    locator.Grounded (first.unionAll others) := by
  refine ⟨Source.hasSpan_unionAll fun location hlocation ↦ (h location hlocation).span, ?_⟩
  obtain ⟨latest, hlatest, hstop⟩ := Location.exists_stop_unionAll first others
  rw [hstop]
  exact (h latest hlatest).stop

end Searches

theorem padded_ofText {marker : Text} (h : '\r' ∉ marker) (text : Text) :
    Padded ⟨Source.ofText text, marker⟩ ⟨Source.ofText text.withReturns, marker⟩ where
  lines := forall₂_padded_lines text
  marker := rfl
  returnless := h

end Locator

/-- The offsets of a span with one more for every line before its ends. -/
def Location.withReturns (location : Location) (range : Int × Int) : Int × Int :=
  (range.1 + (location.start.line - 1), range.2 + (location.stop.line - 1))

namespace Source

variable {text : Text} {position : Position} {location : Location}

/-- One carriage return for every line that stands before the line with an index. -/
theorem charactersBefore_returned {lines : List Text} {index : Nat} (h : index < lines.length) :
    charactersBefore (returned lines) index = charactersBefore lines index + index := by
  induction lines generalizing index with
  | nil => cases h
  | cons line rest ih =>
    cases index with
    | zero => rw [charactersBefore_zero, charactersBefore_zero]
    | succ inner =>
      have hinner : inner < rest.length := Nat.lt_of_succ_lt_succ h
      have hrest : rest ≠ [] := List.ne_nil_of_length_pos (by omega)
      rw [returned_cons line hrest, charactersBefore, charactersBefore, ih hinner,
        List.length_append, List.length_singleton]
      omega

/-- The positions of a text exist with carriage returns before its newlines too. -/
theorem hasPosition_withReturns (h : (ofText text).HasPosition position) :
    (ofText text.withReturns).HasPosition position := by
  obtain ⟨hone, hcolumn, line, hline, hlength⟩ := h
  rw [line?_eq_getElem? _ hone] at hline
  obtain ⟨longer, hlonger, hpadded⟩ := exists_padded_of_getElem? (forall₂_padded_lines text) hline
  have hwidth := hpadded.length_le
  refine ⟨hone, hcolumn, longer, ?_, by omega⟩
  rw [line?_eq_getElem? _ hone]
  exact hlonger

/-- The carriage returns before a position come on top of its offset. -/
theorem positionOffset?_withReturns {offset : Int} (h : (ofText text).HasPosition position)
    (hoffset : (ofText text).positionOffset? position = some offset) :
    (ofText text.withReturns).positionOffset? position = some (offset + (position.line - 1)) := by
  have hline := line_le_lineCount h
  have hone := h.1
  rw [positionOffset?_of_hasPosition h] at hoffset
  cases hoffset
  have hindex : (position.line - 1).toNat < text.lines.length := by
    change position.line ≤ text.lines.length at hline
    omega
  rw [positionOffset?_of_hasPosition (hasPosition_withReturns h), lines_withReturns,
    charactersBefore_returned hindex]
  exact congrArg some (by push_cast; omega)

/-- The spans of a text exist with carriage returns before its newlines too, and their offsets are
larger by one for every line before them. -/
theorem range?_withReturns {range : Int × Int} (h : (ofText text).HasSpan location)
    (hrange : (ofText text).range? location = some range) :
    (ofText text.withReturns).range? location = some (location.withReturns range) := by
  obtain ⟨hfirst, hlast⟩ := range?_eq_some_iff.mp hrange
  exact range?_eq_some_iff.mpr ⟨positionOffset?_withReturns h.start hfirst,
    positionOffset?_withReturns h.stop hlast⟩

end Source

end AsciidocSpans
