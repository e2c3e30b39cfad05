import AsciidocSpans.Proofs.Span.Admissible
import AsciidocSpans.Proofs.Span.Order

/-!
Placements of several texts in a window. Texts are `PlacedFrom` a line if each of them stands on
lines of the window, the first one from there or later, and each other one below the one before it.

A placement need not be the one that searches find. But a search that may start where a text is
placed finds that text, and what it finds ends no later than the placement
(`exists_find?_of_standsOn`): segments that stand on lines from an earlier line on stand no later,
one by one (`StandsOn.forall₂_le`). What a search finds from a column of a line on, which it takes,
starts no earlier (`le_start_of_find?`).
-/

set_option autoImplicit false
set_option relaxedAutoImplicit false

namespace AsciidocSpans

open Text

/-- The last entries of two lists that are related entry by entry are related. -/
theorem exists_getLast?_of_forall₂ {α β : Type} {R : α → β → Prop} {items : List α}
    {others : List β} (h : List.Forall₂ R items others) {other : β}
    (hother : others.getLast? = some other) :
    ∃ item, items.getLast? = some item ∧ R item other := by
  induction h with
  | nil => simp at hother
  | cons hfirst hrest ih =>
    cases hrest with
    | nil =>
      simp only [List.getLast?_singleton, Option.some.injEq] at hother ⊢
      exact ⟨_, rfl, hother ▸ hfirst⟩
    | cons =>
      rw [List.getLast?_cons_cons] at hother ⊢
      exact ih hother

namespace Locator

variable {locator : Locator} {verbatim : Bool} {segments : List Text} {window : Window}
  {location : Location}

/-- Texts stand on lines up to a last start line, the first text from a line on and each other one
below the text before it. -/
inductive PlacedFrom (locator : Locator) (maxLine : Int) : Int → List (List Text) → Prop
  | nil {low : Int} : PlacedFrom locator maxLine low []
  | cons {low first last : Int} {segments : List Text} {others : List (List Text)}
      {numbers : List Int} (low_le : low ≤ first) (taken : locator.Takes false first)
      (room : first + segments.length - 1 ≤ maxLine)
      (stands : locator.StandsOn false first segments numbers)
      (ends : numbers.getLast? = some last)
      (below : PlacedFrom locator maxLine (last + 1) others) :
      PlacedFrom locator maxLine low (segments :: others)

section Lines

variable {first later last : Int} {numbers others : List Int}

/-- The lines on which segments stand are taken, and none of them comes too early. -/
theorem StandsOn.takes_of_mem (h : locator.StandsOn verbatim first segments numbers) {number : Int}
    (hmem : number ∈ numbers) : first ≤ number ∧ locator.Takes verbatim number := by
  induction h with
  | nil => simp at hmem
  | cons next here stands others ih =>
    have hfirst := next.1.1
    rcases List.mem_cons.mp hmem with rfl | hrest
    · exact next.1
    · obtain ⟨hnumber, htaken⟩ := ih hrest
      exact ⟨by omega, htaken⟩

/-- Segments need as many lines as there are segments. -/
theorem StandsOn.length_le (h : locator.StandsOn verbatim first segments numbers)
    (hlast : numbers.getLast? = some last) : first + segments.length - 1 ≤ last := by
  induction h with
  | nil => simp at hlast
  | cons next here stands others ih =>
    have hfirst := next.1.1
    cases others with
    | nil =>
      simp only [List.getLast?_singleton, Option.some.injEq] at hlast
      simp only [List.length_cons, List.length_nil]
      omega
    | cons =>
      rw [List.getLast?_cons_cons] at hlast
      have hrest := ih hlast
      simp only [List.length_cons] at hrest ⊢
      omega

/-- Segments that stand on lines from an earlier line on stand no later. -/
theorem StandsOn.forall₂_le (h : locator.StandsOn verbatim first segments numbers)
    (hother : locator.StandsOn verbatim later segments others) (hle : first ≤ later) :
    List.Forall₂ (· ≤ ·) numbers others := by
  induction h generalizing later others with
  | nil =>
    cases hother
    exact .nil
  | cons next here stands rest ih =>
    cases hother with
    | cons nextOther hereOther standsOther restOther =>
      have hnumber := next.2 ⟨hle.trans nextOther.1.1, nextOther.1.2⟩
      exact .cons hnumber (ih restOther (by omega))

end Lines

section Searches

variable {first last : Int} {numbers : List Int}

/-- A text that stands on lines where a search may start is found, no later than it stands. -/
theorem exists_find?_of_standsOn (hstart : 0 ≤ window.startColumn)
    (hlow : max 1 window.minLine ≤ first) (hcolumn : startColumnOn window first = 0)
    (hroom : first + segments.length - 1 ≤ window.maxLine)
    (hstands : locator.StandsOn verbatim first segments numbers)
    (hlast : numbers.getLast? = some last) :
    ∃ location, locator.find? verbatim segments window = some location ∧
      location.stop.line ≤ last := by
  have hsegments : segments ≠ [] := by
    rintro rfl
    cases hstands
    simp at hlast
  have hcount : last ≤ locator.source.lineCount := by
    have hmem := List.mem_of_getLast? hlast
    have hfirst := (hstands.takes_of_mem hmem).1
    obtain ⟨line, hline⟩ := hstands.exists_line hmem
    rw [Source.line?_eq_getElem? _ (by omega)] at hline
    have hindex := (List.getElem?_eq_some_iff.mp hline).1
    rw [Source.lineCount]
    omega
  have hlength := hstands.length_le hlast
  have hadmissible : locator.Admissible verbatim segments window first := by
    refine ⟨hlow, by omega, numbers, hstands, ?_⟩
    rw [hcolumn]
    exact hstands.startsFrom_zero
  -- The search takes the least admissible line, and from there the segments stand no later.
  obtain ⟨least, hleast⟩ := exists_isLeast_admissible hadmissible
  obtain ⟨location, hlocation, hreports⟩ := exists_reports_of_isLeast hstart hsegments hleast
  obtain ⟨found, line, segment, column, hfound, hstop, -⟩ := hreports.stop
  obtain ⟨number, hnumber, hle⟩ :=
    exists_getLast?_of_forall₂ (hfound.forall₂_le hstands (hleast.2 hadmissible)) hlast
  rw [hstop] at hnumber
  cases hnumber
  exact ⟨location, hlocation, hle⟩

/-- What is found ends on a line that the search takes, in its window or below it. -/
theorem takes_stop_of_find? (hstart : 0 ≤ window.startColumn)
    (h : locator.find? verbatim segments window = some location) :
    max 1 window.minLine ≤ location.stop.line ∧ locator.Takes verbatim location.stop.line := by
  obtain ⟨first, hadmissible, hreports⟩ := exists_reports_of_find? hstart h
  obtain ⟨numbers, line, segment, column, hstands, hstop, -⟩ := hreports.stop
  obtain ⟨hfirst, htaken⟩ := hstands.takes_of_mem (List.mem_of_getLast? hstop)
  exact ⟨hadmissible.low.trans hfirst, htaken⟩

/-- What is found in a window that starts with a line that the search takes starts no earlier than
the window. -/
theorem le_start_of_find? (hstart : 0 ≤ window.startColumn)
    (h : locator.find? verbatim segments window = some location)
    (htaken : locator.Takes verbatim (max 1 window.minLine)) :
    (⟨max 1 window.minLine, window.startColumn⟩ : Position) ≤ location.start := by
  obtain ⟨first, hadmissible, hreports⟩ := exists_reports_of_find? hstart h
  have hlow := hadmissible.low
  rw [Position.le_iff, hreports.start_line]
  by_cases hfirst : first = max 1 window.minLine
  · refine Or.inr ⟨hfirst.symm, ?_⟩
    have hcolumn : startColumnOn window first = window.startColumn := if_pos hfirst
    obtain ⟨line, segment, hline, hsegment, hfound⟩ := hreports.start_column
    obtain ⟨numbers, hstands, hfrom⟩ := hadmissible.stands
    rw [hcolumn] at hfound hfrom
    rcases hfound with ⟨column, hstarts, hleast⟩ | ⟨-, hnone⟩
    · rw [hstarts]
      exact hleast.1.1
    · -- The first segment stands on the start line itself, which the search does not pass over.
      exfalso
      cases hstands with
      | nil => simp at hsegment
      | cons next here stands others =>
        have hnumber := next.2 ⟨Int.le_refl first, hfirst ▸ htaken⟩
        obtain rfl := Int.le_antisymm hnumber next.1.1
        obtain ⟨column, hle, hoccurs⟩ := hfrom segment hsegment _ rfl line hline
        exact hnone column hle hoccurs
  · exact Or.inl (Int.lt_iff_le_and_ne.mpr ⟨hlow, Ne.symm hfirst⟩)

end Searches

end Locator

end AsciidocSpans
