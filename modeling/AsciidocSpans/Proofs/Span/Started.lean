import AsciidocSpans.Proofs.Span.Admissible

/-!
Where what a search finds starts. A search starts at a column of a line (`Locator.StartsAt`) if that
line is the first one on which its segments may start and the first segment is reported at that
column of it. Whatever is found starts where the search does, and nowhere else
(`Locator.start_eq_iff`). If that may be the first line of the window, an occurrence of the first
segment there is the start just if none stands before it (`Locator.start_eq_iff_of_minLine`).

A single segment may start on a line if the next line from there on that is not passed over holds it
(`Locator.Opens`). So a search for it that reads whole lines starts where it first stands on a line,
if that line opens it and none of those before does (`Locator.startsAt_singleton_iff`). A comment
right above a line opens what stands on that line.
-/

set_option autoImplicit false
set_option relaxedAutoImplicit false

namespace AsciidocSpans

open Text

namespace Locator

variable {locator : Locator} {verbatim : Bool} {segments : List Text} {segment : Text}
  {window : Window} {location : Location} {index column : Nat}

/-- A search starts at a column of a line: that line is the first one on which the segments may
start, and the first of them occurs there at that column first, or nowhere if it is passed over. -/
structure StartsAt (locator : Locator) (verbatim : Bool) (segments : List Text) (window : Window)
    (index column : Nat) : Prop where
  least : IsLeast {i | locator.Admissible verbatim segments window i} (index + 1)
  reported : ∃ line segment, locator.source.lines[index]? = some line ∧
    segments.head? = some segment ∧
    (IsLeast {c : Nat | startColumnOn window (index + 1) ≤ c ∧ OccursAt segment line c} column ∨
      column = 0 ∧ ∀ c : Nat, startColumnOn window (index + 1) ≤ c → ¬ OccursAt segment line c)

/-- What is found starts where the search does. -/
theorem start_eq_iff (hstart : 0 ≤ window.startColumn)
    (h : locator.find? verbatim segments window = some location) :
    location.start = ⟨index + 1, column⟩ ↔
      locator.StartsAt verbatim segments window index column := by
  obtain ⟨hsegments, other, hother⟩ := exists_admissible_of_find? hstart h
  obtain ⟨first, hfirst⟩ := exists_isLeast_admissible hother
  obtain ⟨found, hfound, hreports⟩ := exists_reports_of_isLeast hstart hsegments hfirst
  cases h.symm.trans hfound
  obtain ⟨line, segment, hline, hsegment, hcolumn⟩ := hreports.start_column
  constructor
  · intro hplace
    obtain rfl : first = index + 1 := hreports.start_line.symm.trans (congrArg (·.line) hplace)
    rw [line?_add_one] at hline
    refine ⟨hfirst, line, segment, hline, hsegment, ?_⟩
    rw [hplace] at hcolumn
    rcases hcolumn with ⟨c, hc, hleast⟩ | ⟨hzero, hnever⟩
    · exact .inl (Int.ofNat.inj hc ▸ hleast)
    · exact .inr ⟨Int.ofNat.inj hzero, hnever⟩
  · rintro ⟨hleast, raw, shown, hraw, hshown, hreported⟩
    obtain rfl := hfirst.unique hleast
    rw [line?_add_one, hraw] at hline
    cases hline
    cases hsegment.symm.trans hshown
    have hstartColumn : location.start.column = column := by
      rcases hcolumn with ⟨c, hc, hc'⟩ | ⟨hzero, hnever⟩
      · rcases hreported with hcolumn | ⟨-, hnever⟩
        · rw [hc, hc'.unique hcolumn]
        · exact absurd hc'.1.2 (hnever c hc'.1.1)
      · rcases hreported with hcolumn | ⟨rfl, -⟩
        · exact absurd hcolumn.1.2 (hnever column hcolumn.1.1)
        · exact hzero
    have hstartLine := hreports.start_line
    obtain ⟨⟨number, c⟩, stop⟩ := location
    cases hstartLine
    cases hstartColumn
    rfl

/-- The line that a window starts with is searched from the start column of the window on. -/
theorem startColumnOn_of_minLine (h : window.minLine = index + 1) :
    startColumnOn window (index + 1) = window.startColumn := by
  rw [startColumnOn, h, if_pos (by omega)]

/-- A single segment may start on a line of a window that holds it from the start column on, if the
line is not passed over. -/
theorem admissible_singleton {line : Text} (hline : locator.source.lines[index]? = some line)
    (hkept : locator.skips verbatim line = false) (hoccurs : OccursAt segment line column)
    (hlow : max 1 window.minLine ≤ index + 1) (hhigh : (index : Int) + 1 ≤ window.maxLine)
    (hcolumn : startColumnOn window (index + 1) ≤ column) :
    locator.Admissible verbatim [segment] window (index + 1) := by
  have hnumber : locator.source.line? ((index : Int) + 1) = some line :=
    (line?_add_one locator.source index).trans hline
  have hnext : locator.TakesNext verbatim (index + 1) (index + 1) :=
    ⟨⟨Int.le_refl _, line, hnumber, hkept⟩, fun other hother ↦ hother.1⟩
  have hinside : segment <:+: line := hoccurs.2.isInfix.trans (List.drop_suffix _ _).isInfix
  refine ⟨hlow, ?_, [index + 1], .cons hnext hnumber hinside .nil, ?_⟩
  · have hcount := (List.getElem?_eq_some_iff.mp hline).1
    rw [Source.lineCount, List.length_singleton]
    omega
  · rintro _ ⟨⟩ _ ⟨⟩ raw hraw
    cases hnumber.symm.trans hraw
    exact ⟨column, hcolumn, hoccurs⟩

/-- Where segments may start on the first line of a window, what is found starts at an occurrence of
the first segment on that line just if none stands before, from the start column on. -/
theorem start_eq_iff_of_minLine (hstart : 0 ≤ window.startColumn)
    (h : locator.find? verbatim segments window = some location) {line : Text}
    (hline : locator.source.lines[index]? = some line) (hsegment : segments.head? = some segment)
    (hoccurs : OccursAt segment line column) (hminLine : window.minLine = index + 1)
    (hcolumn : window.startColumn ≤ column)
    (hadmissible : locator.Admissible verbatim segments window (index + 1)) :
    location.start = ⟨index + 1, column⟩ ↔
      ∀ c < column, window.startColumn ≤ c → ¬ OccursAt segment line c := by
  have hfrom := startColumnOn_of_minLine hminLine
  rw [start_eq_iff hstart h]
  constructor
  · rintro ⟨-, raw, shown, hraw, hshown, hreported⟩ c hc hlow hother
    cases hraw.symm.trans hline
    cases hshown.symm.trans hsegment
    rw [hfrom] at hreported
    rcases hreported with hleast | ⟨rfl, -⟩
    · exact absurd (hleast.2 ⟨hlow, hother⟩) (Nat.not_le.mpr hc)
    · exact absurd hc (Nat.not_lt_zero c)
  · intro hnone
    refine ⟨⟨hadmissible, fun number hnumber ↦ ?_⟩, line, segment, hline, hsegment, .inl ?_⟩
    · have hfirst := hnumber.low
      omega
    · rw [hfrom]
      exact ⟨⟨hcolumn, hoccurs⟩, fun c hc ↦
        Nat.not_lt.mp fun hlt ↦ hnone c hlt hc.1 hc.2⟩

/-- A line opens a segment: the next line from there on that is not passed over holds it. -/
def Opens (locator : Locator) (verbatim : Bool) (segment : Text) (number : Int) : Prop :=
  ∃ next line, locator.TakesNext verbatim number next ∧ locator.source.line? next = some line ∧
    segment <:+: line

/-- A single segment may start on the lines of a window that open it, if these are read from their
start on. -/
theorem admissible_singleton_iff (hcolumn : window.startColumn = 0) {number : Int} :
    locator.Admissible verbatim [segment] window number ↔
      max 1 window.minLine ≤ number ∧ number ≤ min window.maxLine locator.source.lineCount ∧
        locator.Opens verbatim segment number := by
  have hzero : startColumnOn window number = 0 := by
    rw [startColumnOn, hcolumn, ite_self]
  constructor
  · rintro ⟨hlow, hhigh, numbers, hstands, -⟩
    rw [List.length_singleton] at hhigh
    cases hstands with
    | cons next here stands _ => exact ⟨hlow, by omega, _, _, next, here, stands⟩
  · rintro ⟨hlow, hhigh, next, line, hnext, hline, hstands⟩
    have hall : locator.StandsOn verbatim number [segment] [next] :=
      .cons hnext hline hstands .nil
    refine ⟨hlow, ?_, [next], hall, hzero ▸ hall.startsFrom_zero⟩
    rw [List.length_singleton]
    omega

/-- A search for a single segment starts where that first stands on a line which opens it, if none
of the lines before does. -/
theorem startsAt_singleton_iff (hcolumn : window.startColumn = 0) {line : Text}
    (hline : locator.source.lines[index]? = some line) (hoccurs : OccursAt segment line column) :
    locator.StartsAt verbatim [segment] window index column ↔
      (max 1 window.minLine ≤ index + 1 ∧ (index : Int) + 1 ≤ window.maxLine) ∧
        locator.Opens verbatim segment (index + 1) ∧ (∀ c < column, ¬ OccursAt segment line c) ∧
        ∀ number < (index : Int) + 1, max 1 window.minLine ≤ number →
          ¬ locator.Opens verbatim segment number := by
  have hzero : startColumnOn window (index + 1) = 0 := by
    rw [startColumnOn, hcolumn, ite_self]
  have hcount : (index : Int) + 1 ≤ locator.source.lineCount := by
    have := (List.getElem?_eq_some_iff.mp hline).1
    rw [Source.lineCount]
    omega
  constructor
  · rintro ⟨hleast, raw, shown, hraw, hshown, hreported⟩
    cases hraw.symm.trans hline
    cases hshown
    rw [hzero] at hreported
    obtain ⟨hlow, hhigh, hopens⟩ := (admissible_singleton_iff hcolumn).mp hleast.1
    refine ⟨⟨hlow, by omega⟩, hopens, fun c hc hother ↦ ?_, fun number hnumber hfirst hother ↦ ?_⟩
    · rcases hreported with hfirst | ⟨rfl, -⟩
      · exact absurd (hfirst.2 ⟨Int.natCast_nonneg c, hother⟩) (Nat.not_le.mpr hc)
      · exact absurd hc (Nat.not_lt_zero c)
    · have hle := hleast.2 ((admissible_singleton_iff hcolumn).mpr ⟨hfirst, by omega, hother⟩)
      omega
  · rintro ⟨⟨hlow, hhigh⟩, hopens, hbefore, hnone⟩
    refine ⟨⟨(admissible_singleton_iff hcolumn).mpr ⟨hlow, by omega, hopens⟩, ?_⟩, line, segment,
      hline, rfl, .inl ⟨⟨by rw [hzero]; exact Int.natCast_nonneg column, hoccurs⟩, ?_⟩⟩
    · intro number hnumber
      obtain ⟨hfirst, -, hother⟩ := (admissible_singleton_iff hcolumn).mp hnumber
      exact Int.not_lt.mp fun hlt ↦ hnone number hlt hfirst hother
    · rintro c ⟨-, hother⟩
      exact Nat.not_lt.mp fun hlt ↦ hbefore c hlt hother

end Locator

end AsciidocSpans
