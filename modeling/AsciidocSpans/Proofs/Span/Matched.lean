import AsciidocSpans.Proofs.Span.Written
import AsciidocSpans.Proofs.Text.Lines
import Mathlib.Data.List.Forall2

/-!
What stands where a search found its segments. The lines of a span that are not passed over are as
many as there are segments, and each of them holds its segment; the first segment stands at the
start of the span, unless a line that is passed over does, and the last one ends where the span ends
(`Locator.matched_of_find?`). A span on a single line therefore cuts exactly its segment out of the
text (`Source.slice_of_matched`).
-/

set_option autoImplicit false
set_option relaxedAutoImplicit false

namespace AsciidocSpans

open Text

namespace Text

/-- A text that occurs at an index is the slice from there as long as it is. -/
theorem slice_of_isPrefix {needle text : Text} {first : Nat} (h : needle <+: text.drop first) :
    text.slice (first : Int) ((first : Int) + needle.length) = needle := by
  have hfirst : text.startIndex (first : Int) = first := by
    rw [startIndex, if_pos (Int.natCast_nonneg first), Int.toNat_natCast]
  have hlast : text.startIndex ((first : Int) + needle.length) = first + needle.length := by
    rw [startIndex, if_pos (by omega)]
    omega
  rw [slice, hfirst, hlast, List.drop_take, Nat.add_sub_cancel_left]
  exact (List.prefix_iff_eq_take.mp h).symm

/-- A text occurs at the column that a search reports. -/
theorem isPrefix_drop_of_column? {needle text : Text} {start : Int} {column : Nat}
    (h : column? needle text start = some column) : needle <+: text.drop column := by
  obtain ⟨-, found, hfound, rfl⟩ := column?_eq_some_iff.mp h
  have hoccurs := (occurs_of_find? hfound).1
  rwa [List.drop_drop, Nat.add_comm] at hoccurs

end Text

/-- The entry at the end of the first ones that pass a test, if it passes the test itself. -/
theorem getLast?_filter_take {α : Type} {items : List α} {test : α → Bool} {index : Nat} {item : α}
    (hitem : items[index]? = some item) (htest : test item = true) :
    ((items.take (index + 1)).filter test).getLast? = some item := by
  rw [List.take_add_one, hitem, List.filter_append, Option.toList_some,
    List.filter_cons_of_pos htest, List.filter_nil, List.getLast?_concat]

/-- What an entry of a list is related to stands in the other list. -/
theorem exists_of_forall₂_of_mem {α β : Type} {R : α → β → Prop} {items : List α} {others : List β}
    (h : List.Forall₂ R items others) {item : α} (hitem : item ∈ items) :
    ∃ other ∈ others, R item other := by
  induction h with
  | nil => cases hitem
  | cons hfirst _ ih =>
    rcases List.mem_cons.mp hitem with rfl | hrest
    · exact ⟨_, List.mem_cons_self, hfirst⟩
    · obtain ⟨other, hother, hrel⟩ := ih hrest
      exact ⟨other, List.mem_cons_of_mem _ hother, hrel⟩

namespace Source

/-- Behind the characters before a line come that line and the ones after it. -/
theorem drop_charactersBefore {lines : List Text} {index : Nat} (h : index < lines.length) :
    (unlines lines).drop (charactersBefore lines index) = unlines (lines.drop index) := by
  induction lines generalizing index with
  | nil => exact absurd h (Nat.not_lt_zero _)
  | cons line rest ih =>
    cases index with
    | zero => rw [charactersBefore_zero, List.drop_zero, List.drop_zero]
    | succ inner =>
      have hinner : inner < rest.length := Nat.lt_of_succ_lt_succ h
      have hrest : rest ≠ [] := List.ne_nil_of_length_pos (Nat.zero_lt_of_lt hinner)
      have hhead : (line ++ ['\n']).length = line.length + 1 := by
        rw [List.length_append, List.length_singleton]
      rw [charactersBefore, List.drop_succ_cons, ← ih hinner, unlines, joinWith_cons _ _ hrest,
        ← hhead, ← List.drop_drop, List.drop_left]
      rfl

/-- What occurs at a column of a line occurs in the text, as far behind the characters before that
line. -/
theorem isPrefix_drop_text {text line needle : Text} {index column : Nat}
    (hline : text.lines[index]? = some line) (hcolumn : column ≤ line.length)
    (h : needle <+: line.drop column) :
    needle <+: text.drop (charactersBefore text.lines index + column) := by
  obtain ⟨hindex, -⟩ := List.getElem?_eq_some_iff.mp hline
  obtain ⟨behind, hbehind⟩ := isPrefix_unlines_cons line (text.lines.drop (index + 1))
  have htext : text.drop (charactersBefore text.lines index) = line ++ behind := by
    rw [hbehind, ← Locator.drop_eq_cons hline, ← drop_charactersBefore hindex, unlines_lines]
  rw [← List.drop_drop, htext, List.drop_append_of_le_length hcolumn]
  exact h.trans (List.prefix_append _ _)

/-- The lines of a span that are not passed over. -/
def keptLines (source : Source) (skipped : Text → Bool) (location : Location) : List Text :=
  ((source.lines.drop (location.start.line - 1).toNat).take
    (location.stop.line - location.start.line + 1).toNat).filter fun line ↦ !skipped line

/-- Segments stand where a span says: each on its own line of those that are not passed over, the
first one from the start of the span on unless that is on a line that is passed over, and the last
one up to the stop. -/
structure Matched (source : Source) (skipped : Text → Bool) (segments : List Text)
    (location : Location) : Prop where
  values : List.Forall₂ (· <:+: ·) segments (source.keptLines skipped location)
  first : ∃ (line : Text) (column : Nat), source.line? location.start.line = some line ∧
    location.start.column = column ∧
    (skipped line = false → ∃ segment ∈ segments.head?, segment <+: line.drop column)
  last : ∃ (line : Text) (column : Nat), source.line? location.stop.line = some line ∧
    (source.keptLines skipped location).getLast? = some line ∧ location.stop.column = column ∧
    ∃ segment ∈ segments.getLast?, segment <:+ line.take column
  oneLine : location.start.line = location.stop.line → ∃ (line segment : Text) (column : Nat),
    segments = [segment] ∧ source.line? location.start.line = some line ∧
    location.start.column = column ∧ location.stop.column = column + segment.length ∧
    column ≤ line.length ∧ segment <+: line.drop column

/-- Segments that stand in the lines of a text are the lines of what they make. -/
theorem lines_unlines_of_matched {text : Text} {skipped : Text → Bool} {segments : List Text}
    {location : Location} (h : (ofText text).Matched skipped segments location) :
    (unlines segments).lines = segments := by
  refine lines_unlines ?_ fun segment hsegment hnewline ↦ ?_
  · rintro rfl
    obtain ⟨_, _, _, hlast, -⟩ := h.last
    rw [List.forall₂_nil_left_iff.mp h.values] at hlast
    cases hlast
  · obtain ⟨line, hline, hstands⟩ := exists_of_forall₂_of_mem h.values hsegment
    have hsource : line ∈ text.lines :=
      List.mem_of_mem_drop (List.mem_of_mem_take (List.mem_of_mem_filter hline))
    exact not_mem_of_mem_lines hsource (hstands.subset hnewline)

/-- A span on a single line cuts its only segment out of the text. -/
theorem slice_of_matched {text : Text} {skipped : Text → Bool} {segments : List Text}
    {location : Location} {range : Int × Int}
    (h : (ofText text).Matched skipped segments location)
    (hspan : (ofText text).HasSpan location) (hrange : (ofText text).range? location = some range)
    (hline : location.start.line = location.stop.line) :
    ∃ segment, segments = [segment] ∧ text.slice range.1 range.2 = segment := by
  obtain ⟨line, segment, column, hsegments, hown, hstart, hstop, hcolumn, hoccurs⟩ :=
    h.oneLine hline
  refine ⟨segment, hsegments, ?_⟩
  obtain ⟨hfirst, hlast⟩ := range?_eq_some_iff.mp hrange
  rw [positionOffset?_of_hasPosition hspan.start, hstart] at hfirst
  rw [positionOffset?_of_hasPosition hspan.stop, ← hline, hstop] at hlast
  rw [line?_eq_getElem? _ hspan.start.1] at hown
  have hprefix := isPrefix_drop_text (show text.lines[_]? = some line from hown) hcolumn hoccurs
  rw [← Option.some.inj hfirst, ← Option.some.inj hlast, ← Int.add_assoc]
  exact_mod_cast slice_of_isPrefix hprefix

end Source

namespace Locator

variable {skipped : Text → Bool} {start number : Int} {lines segments : List Text}

/-- A search that succeeds: a line that is not passed over holds the first segment, and it is either
the last line or the search goes on behind it. -/
theorem lastLine?_of_not_skipped_eq_some {line : Text} {rest : List Text} {last : Int × Text}
    (hline : skipped line = false)
    (h : lastLine? skipped start number (line :: rest) segments = some last) :
    ∃ segment more, segments = segment :: more ∧ (column? segment line start).isSome ∧
      (more = [] ∧ last = (number, line) ∨
        lastLine? skipped 0 (number + 1) rest more = some last) := by
  cases segments with
  | nil => cases h
  | cons segment more =>
    refine ⟨segment, more, rfl, ?_⟩
    cases hcolumn : column? segment line start with
    | none =>
      rw [lastLine?_cons_of_not_skipped hline, hcolumn] at h
      cases h
    | some column =>
      rw [lastLine?_of_not_skipped hline hcolumn] at h
      split at h
      · next hmore => exact ⟨rfl, Or.inl ⟨List.isEmpty_iff.mp hmore, (Option.some.inj h).symm⟩⟩
      · exact ⟨rfl, Or.inr h⟩

/-- A text that is found on a line stands in it. -/
theorem isInfix_of_isSome_column? {needle line : Text} (h : (column? needle line start).isSome) :
    needle <:+: line := by
  obtain ⟨column, hcolumn⟩ := Option.isSome_iff_exists.mp h
  exact (isPrefix_drop_of_column? hcolumn).isInfix.trans (List.drop_suffix _ line).isInfix

/-- A search takes as many lines as there are segments, each of which holds its segment, and passes
over all the others up to the last line that it takes. -/
theorem forall₂_of_lastLine? {last : Int × Text}
    (h : lastLine? skipped start number lines segments = some last) :
    ∃ count : Nat, last.1 = number + count ∧ lines[count]? = some last.2 ∧
      skipped last.2 = false ∧
      List.Forall₂ (· <:+: ·) segments
        ((lines.take (count + 1)).filter fun line ↦ !skipped line) := by
  induction lines generalizing start number segments with
  | nil =>
    cases segments <;> cases h
  | cons line rest ih =>
    cases hline : skipped line with
    | true =>
      rw [lastLine?_of_skipped hline] at h
      obtain ⟨count, hnumber, hget, hlast, hall⟩ := ih h
      refine ⟨count + 1, by push_cast; omega, hget, hlast, ?_⟩
      rw [List.take_succ_cons, List.filter_cons, if_neg (by rw [hline]; nofun)]
      exact hall
    | false =>
      obtain ⟨segment, more, rfl, hsegment, hrest⟩ := lastLine?_of_not_skipped_eq_some hline h
      have hstands := isInfix_of_isSome_column? hsegment
      rcases hrest with ⟨rfl, rfl⟩ | hrest
      · refine ⟨0, by simp, rfl, hline, ?_⟩
        rw [List.take_succ_cons, List.filter_cons, if_pos (by rw [hline]; rfl)]
        exact .cons hstands .nil
      · obtain ⟨count, hnumber, hget, hlast, hall⟩ := ih hrest
        refine ⟨count + 1, by push_cast; omega, hget, hlast, ?_⟩
        rw [List.take_succ_cons, List.filter_cons, if_pos (by rw [hline]; rfl)]
        exact .cons hstands hall

/-- A search that starts on a line that it does not pass over finds the first segment there, where
the span starts. -/
theorem exists_head_of_lastLine? {line : Text} {rest : List Text} {last : Int × Text}
    (hline : skipped line = false)
    (h : lastLine? skipped start number (line :: rest) segments = some last) :
    ∃ segment ∈ segments.head?,
      segment <+: line.drop ((column? (segments.headD []) line start).getD 0) := by
  obtain ⟨segment, more, rfl, hcolumn, -⟩ := lastLine?_of_not_skipped_eq_some hline h
  obtain ⟨column, hcolumn⟩ := Option.isSome_iff_exists.mp hcolumn
  refine ⟨segment, rfl, ?_⟩
  rw [List.headD_cons, hcolumn, Option.getD_some]
  exact isPrefix_drop_of_column? hcolumn

/-- The last segment is found on the last line, where the span ends behind it. -/
theorem exists_column_of_lastLine? {line : Text} {last : Int × Text} (hsegments : segments ≠ [])
    (h : lastLine? skipped start number lines segments = some last) :
    ∃ column : Nat, column? (segments.getLastD []) last.2
        (if segments.length = 1 then start else 0) = some column ∧
      (spanOf segments start number line last).stop.column =
        column + (segments.getLastD []).length := by
  obtain ⟨-, -, -, -, -, hcolumn⟩ := lastLine?_eq_some hsegments h
  obtain ⟨column, hcolumn⟩ := Option.isSome_iff_exists.mp hcolumn
  refine ⟨column, hcolumn, ?_⟩
  rw [spanOf, hcolumn]
  rfl

/-- The last segment ends where the span does. -/
theorem exists_getLast_of_lastLine? {line : Text} {last : Int × Text} (hsegments : segments ≠ [])
    (h : lastLine? skipped start number lines segments = some last) :
    ∃ column : Nat, (spanOf segments start number line last).stop.column = column ∧
      ∃ segment ∈ segments.getLast?, segment <:+ last.2.take column := by
  obtain ⟨column, hcolumn, hstop⟩ := exists_column_of_lastLine? hsegments h
  refine ⟨column + (segments.getLastD []).length, by rw [hstop, Int.natCast_add],
    segments.getLastD [], ?_, ?_⟩
  · rw [List.getLastD_eq_getLast?, List.getLast?_eq_some_getLast hsegments, Option.getD_some,
      Option.mem_some_iff]
  · obtain ⟨behind, hbehind⟩ := isPrefix_drop_of_column? hcolumn
    rw [List.take_add, ← hbehind, List.take_left]
    exact List.suffix_append _ _

/-- A search that comes to its end on the line where it starts is for a single segment, which is
where the span says. -/
theorem exists_single_of_lastLine? {line : Text} {rest : List Text} {last : Int × Text}
    (h : lastLine? skipped start number (line :: rest) segments = some last)
    (hsame : last.1 = number) :
    ∃ (segment : Text) (column : Nat), segments = [segment] ∧
      (spanOf segments start number line last).start.column = column ∧
      (spanOf segments start number line last).stop.column = column + segment.length ∧
      column ≤ line.length ∧ segment <+: line.drop column := by
  obtain ⟨count, hcount, hget, hkept, hvalues⟩ := forall₂_of_lastLine? h
  obtain rfl : count = 0 := by omega
  obtain rfl : line = last.2 := Option.some.inj hget
  rw [List.take_succ_cons, List.take_zero, List.filter_cons, if_pos (by rw [hkept]; rfl),
    List.filter_nil] at hvalues
  obtain ⟨segment, rfl⟩ := List.length_eq_one_iff.mp hvalues.length_eq
  obtain ⟨column, hcolumn, hstop⟩ := exists_column_of_lastLine? (List.cons_ne_nil segment []) h
  have hfound : column? segment last.2 start = some column := hcolumn
  have hfits := column?_add_length_le hfound
  refine ⟨segment, column, rfl, ?_, hstop, by omega, isPrefix_drop_of_column? hfound⟩
  rw [spanOf, List.headD_cons, hfound, Option.getD_some]

variable {locator : Locator} {verbatim : Bool} {window : Window} {location : Location}

/-- The segments that a search found stand at the span that it reports. -/
theorem matched_of_find? (h : locator.find? verbatim segments window = some location) :
    locator.source.Matched (locator.skips verbatim) segments location := by
  obtain ⟨number, line, rest, last, hsegments, hfirst, -, hdrop, hlast, hlocation⟩ :=
    exists_hit_of_find? h
  have hone : (1 : Int) ≤ number := Int.le_trans (Int.le_max_left _ _) hfirst
  have hline : locator.source.line? number = some line := by
    rw [Source.line?_eq_getElem? _ hone, ← List.head?_drop, hdrop]
    rfl
  generalize (if number = firstStart window then window.startColumn else 0) = start
    at hlast hlocation
  subst hlocation
  obtain ⟨count, hcount, hget, hkept, hvalues⟩ := forall₂_of_lastLine? hlast
  have hlines : locator.source.keptLines (locator.skips verbatim)
      (spanOf segments start number line last) =
        ((line :: rest).take (count + 1)).filter fun line ↦ !locator.skips verbatim line := by
    rw [Source.keptLines, spanOf, hdrop]
    exact congrArg (fun n ↦ ((line :: rest).take n).filter _) (by dsimp only; omega)
  refine ⟨?_, ?_, ?_, fun hsame ↦ ?_⟩
  · rw [hlines]
    exact hvalues
  · exact ⟨line, _, hline, rfl, fun hskip ↦ exists_head_of_lastLine? hskip hlast⟩
  · obtain ⟨column, hstop, hsegment⟩ := exists_getLast_of_lastLine? hsegments hlast
    refine ⟨last.2, column, ?_, ?_, hstop, hsegment⟩
    · change locator.source.line? last.1 = some last.2
      rw [Source.line?_eq_getElem? _ (by omega), ← hget, ← hdrop, List.getElem?_drop]
      exact congrArg (fun n ↦ locator.source.lines[n]?) (by omega)
    · rw [hlines]
      exact getLast?_filter_take hget (by rw [hkept]; rfl)
  · obtain ⟨segment, column, hsingle, hstart, hstop, hfits, hoccurs⟩ :=
      exists_single_of_lastLine? hlast hsame.symm
    exact ⟨line, segment, column, hsingle, hline, hstart, hstop, hfits, hoccurs⟩

end Locator

end AsciidocSpans
