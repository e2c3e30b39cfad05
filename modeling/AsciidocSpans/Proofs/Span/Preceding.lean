import AsciidocSpans.Proofs.Span.Admissible
import AsciidocSpans.Proofs.Span.Verbatim

/-!
What a search before a window finds. Every start line above the window is tried, the nearest first,
and what is found from the first one that gives anything is the result (`findBackTo?_eq_some_iff`).
Each try goes on to the first line of the window. So a search before a window starts no further up
than it may, but it may end in the window: it does if the segments, or the last ones of them, stand
in the lines of the window and nothing is found nearer above it (`Precedes`,
`precedes_of_findBackTo?`).
-/

set_option autoImplicit false
set_option relaxedAutoImplicit false

namespace AsciidocSpans.Locator

open Text

variable {locator : Locator} {verbatim : Bool} {segments : List Text} {window : Window}
  {location : Location}

/-- Segments, or at least the last ones of them, stand on lines from a given one on. -/
def EndStandsFrom (locator : Locator) (verbatim : Bool) (segments : List Text) (first : Int) :
    Prop :=
  ∃ tail numbers, tail ≠ [] ∧ tail <:+ segments ∧ locator.StandsOn verbatim first tail numbers

/-- The line directly above a window is not passed over and holds a segment, from the start column
of the window on. -/
def StandsAbove (locator : Locator) (verbatim : Bool) (segment : Text) (window : Window) : Prop :=
  ∃ line, locator.source.line? (window.minLine - 1) = some line ∧
    locator.skips verbatim line = false ∧ (column? segment line window.startColumn).isSome

/-- Where a search before a window, from a highest line on, locates segments: no further up than it
may, with room for all segments up to the first line of the window, and above the window unless the
last segments stand in the lines of the window. A single segment is located in those lines just if
it stands there and not on the line directly above. -/
structure Precedes (locator : Locator) (verbatim : Bool) (segments : List Text) (window : Window)
    (highest : Int) (location : Location) : Prop where
  reach : highest ≤ location.start.line
  room : location.start.line + segments.length ≤ window.minLine + 1
  above : ¬locator.EndStandsFrom verbatim segments window.minLine →
    location.stop.line < window.minLine
  single : ∀ segment, segments = [segment] → (window.minLine ≤ location.stop.line ↔
    ¬locator.StandsAbove verbatim segment window ∧
      locator.EndStandsFrom verbatim [segment] window.minLine)

section Tries

/-- A search upwards results in what is found from the nearest line that gives anything. -/
theorem searchUp?_eq_some_iff {line : Int} {count : Nat} :
    locator.searchUp? verbatim segments window line count = some location ↔
      ∃ tried, line - count < tried ∧ tried ≤ line ∧
        locator.find? verbatim segments (windowFrom tried window) = some location ∧
        ∀ nearer, tried < nearer → nearer ≤ line →
          locator.find? verbatim segments (windowFrom nearer window) = none := by
  induction count generalizing line with
  | zero =>
    constructor
    · intro h
      cases h
    · rintro ⟨tried, hlow, hhigh, -⟩
      omega
  | succ count ih =>
    rw [searchUp?]
    cases hfound : locator.find? verbatim segments (windowFrom line window) with
    | some found =>
      constructor
      · rintro ⟨⟩
        exact ⟨line, by push_cast; omega, Int.le_refl line, hfound, fun _ _ _ ↦ by omega⟩
      · rintro ⟨tried, -, hhigh, htried, hnearer⟩
        rcases Int.lt_or_eq_of_le hhigh with hlt | rfl
        · rw [hnearer line hlt (Int.le_refl line)] at hfound
          cases hfound
        · rw [← hfound, htried]
    | none =>
      dsimp only
      rw [ih]
      constructor
      · rintro ⟨tried, hlow, hhigh, htried, hnearer⟩
        refine ⟨tried, by push_cast; omega, by omega, htried, fun nearer hlt hle ↦ ?_⟩
        rcases Int.lt_or_eq_of_le hle with hbefore | rfl
        · exact hnearer nearer hlt (by omega)
        · exact hfound
      · rintro ⟨tried, hlow, hhigh, htried, hnearer⟩
        have hne : tried ≠ line := by
          rintro rfl
          rw [hfound] at htried
          cases htried
        exact ⟨tried, by push_cast at hlow; omega, by omega, htried,
          fun nearer hlt hle ↦ hnearer nearer hlt (by omega)⟩

/-- A search before a window results in what is found from the nearest line above the window that
gives anything. -/
theorem findBackTo?_eq_some_iff {highest : Int} :
    locator.findBackTo? verbatim segments window highest = some location ↔
      ∃ tried, highest ≤ tried ∧ tried < window.minLine ∧
        locator.find? verbatim segments (windowFrom tried window) = some location ∧
        ∀ nearer, tried < nearer → nearer < window.minLine →
          locator.find? verbatim segments (windowFrom nearer window) = none := by
  rw [findBackTo?, searchUp?_eq_some_iff]
  refine exists_congr fun tried ↦ ⟨?_, ?_⟩
  · rintro ⟨hlow, hhigh, htried, hnearer⟩
    exact ⟨by omega, by omega, htried, fun nearer hlt hbelow ↦ hnearer nearer hlt (by omega)⟩
  · rintro ⟨hlow, hhigh, htried, hnearer⟩
    exact ⟨by omega, by omega, htried, fun nearer hlt hbelow ↦ hnearer nearer hlt (by omega)⟩

end Tries

section Lines

variable {first : Nat} {start : Int}

/-- What a search comes to the end of stands on lines, the last of which is the one that it came
to. -/
theorem exists_standsOn_of_lastLine? {last : Int × Text}
    (h : lastLine? (locator.skips verbatim) start ((first : Int) + 1)
      (locator.source.lines.drop first) segments = some last) :
    ∃ numbers, locator.StandsOn verbatim ((first : Int) + 1) segments numbers ∧
      numbers.getLast? = some last.1 := by
  induction segments generalizing first start with
  | nil => cases h
  | cons segment more ih =>
    rw [lastLine?] at h
    split at h
    · cases h
    · next number line rest hnext =>
      obtain ⟨hnumber, hline, rfl⟩ := nextLine?_eq_some_iff.mp hnext
      split at h
      · cases h
      · next hfound =>
        have hstands : segment <:+: line :=
          isInfix_of_isSome_column?
            (Option.isNone_eq_false_iff.mp (Bool.eq_false_iff.mpr hfound))
        split at h
        · next hmore =>
          obtain rfl := List.isEmpty_iff.mp hmore
          cases h
          exact ⟨[number], .cons hnumber hline hstands .nil, rfl⟩
        · next hmore =>
          obtain ⟨index, rfl⟩ : ∃ index : Nat, number = index :=
            ⟨number.toNat, by have := hnumber.1.1; omega⟩
          rw [Int.toNat_natCast] at h
          obtain ⟨numbers, hnumbers, hlast⟩ := ih h
          refine ⟨index :: numbers, .cons hnumber hline hstands hnumbers, ?_⟩
          rw [List.getLast?_cons, hlast]
          rfl

/-- Where segments stand on lines up to one from a given line on, the last ones of them stand on
lines from there on. -/
theorem StandsOn.endStandsFrom {begin middle stop : Int} {numbers : List Int}
    (h : locator.StandsOn verbatim begin segments numbers) (hbegin : begin ≤ middle)
    (hlast : numbers.getLast? = some stop) (hstop : middle ≤ stop) :
    locator.EndStandsFrom verbatim segments middle := by
  induction h with
  | nil => cases hlast
  | @cons begin number line segment segments numbers next here stands others ih =>
    by_cases hnumber : middle ≤ number
    · refine ⟨segment :: segments, number :: numbers, List.cons_ne_nil _ _, List.suffix_rfl,
        .cons ⟨⟨hnumber, next.1.2⟩, fun other hother ↦ ?_⟩ here stands others⟩
      exact next.2 ⟨Int.le_trans hbegin hother.1, hother.2⟩
    · have hne : numbers ≠ [] := by
        rintro rfl
        cases hlast
        exact hnumber hstop
      obtain ⟨final, hfinal⟩ := List.getLast?_isSome.mpr hne |> Option.isSome_iff_exists.mp
      rw [List.getLast?_cons, hfinal] at hlast
      cases hlast
      obtain ⟨tail, tailNumbers, htail, hsuffix, hstands⟩ := ih (by omega) hfinal
      exact ⟨tail, tailNumbers, htail, hsuffix.trans (List.suffix_cons _ _), hstands⟩

/-- A segment that stands on lines from a given one on stands on the next one that is not passed
over. -/
theorem exists_line_of_endStandsFrom {segment : Text} {begin : Int}
    (h : locator.EndStandsFrom verbatim [segment] begin) :
    ∃ number line, locator.TakesNext verbatim begin number ∧
      locator.source.line? number = some line ∧ segment <:+: line := by
  obtain ⟨tail, numbers, htail, hsuffix, hstands⟩ := h
  rcases List.suffix_cons_iff.mp hsuffix with rfl | hnil
  · cases hstands with
    | cons next here stands others => exact ⟨_, _, next, here, stands⟩
  · exact absurd (List.suffix_nil.mp hnil) htail

/-- A search for a single segment comes to its end on the next line that is not passed over, if the
segment occurs there from the start column on. -/
theorem lastLine?_singleton_iff {segment : Text} {last : Int × Text} :
    lastLine? (locator.skips verbatim) start ((first : Int) + 1)
        (locator.source.lines.drop first) [segment] = some last ↔
      locator.TakesNext verbatim ((first : Int) + 1) last.1 ∧
        locator.source.line? last.1 = some last.2 ∧ (column? segment last.2 start).isSome := by
  rw [lastLine?]
  constructor
  · intro h
    split at h
    · cases h
    · next number line rest hnext =>
      obtain ⟨hnumber, hline, -⟩ := nextLine?_eq_some_iff.mp hnext
      split at h
      · cases h
      · next hfound =>
        cases h
        exact ⟨hnumber, hline, Option.isNone_eq_false_iff.mp (Bool.eq_false_iff.mpr hfound)⟩
  · rintro ⟨hnumber, hline, hcolumn⟩
    rw [nextLine?_eq_some_iff.mpr ⟨hnumber, hline, rfl⟩]
    simp only [Option.isNone_eq_false_iff.mpr hcolumn, List.isEmpty_nil, Bool.false_eq_true,
      if_false, if_true]

end Lines

section Windows

variable {highest : Int} {segment : Text}

/-- A try from a line: what it finds starts there or below, with room up to the window, and comes to
an end in the window only if the last segments stand there. -/
theorem reach_of_find? {tried : Int}
    (h : locator.find? verbatim segments (windowFrom tried window) = some location) :
    tried ≤ location.start.line ∧
      location.start.line + segments.length ≤ window.minLine + 1 ∧
      (¬locator.EndStandsFrom verbatim segments window.minLine →
        location.stop.line < window.minLine) := by
  obtain ⟨number, line, rest, last, hsegments, hlow, hhigh, hdrop, hlast, rfl⟩ :=
    exists_hit_of_find? h
  have hroom : number ≤ window.minLine - segments.length + 1 :=
    hhigh.trans (by rw [lastStart, windowFrom]; dsimp only; omega)
  have hpositive := List.length_pos_iff.mpr hsegments
  rw [firstStart, windowFrom] at hlow
  dsimp only at hlow
  refine ⟨by rw [spanOf]; dsimp only; omega, by rw [spanOf]; dsimp only; omega, fun hnot ↦ ?_⟩
  by_contra hstop
  obtain ⟨index, rfl⟩ : ∃ index : Nat, number = index + 1 := ⟨(number - 1).toNat, by omega⟩
  rw [show ((index : Int) + 1 - 1).toNat = index by omega] at hdrop
  rw [← hdrop] at hlast
  obtain ⟨numbers, hstands, hfinal⟩ := exists_standsOn_of_lastLine? hlast
  exact hnot (hstands.endStandsFrom (by omega) hfinal (Int.not_lt.mp hstop))

/-- A segment on the line directly above a window is found there by the first try. -/
theorem exists_find?_of_standsAbove (hminLine : 2 ≤ window.minLine)
    (h : locator.StandsAbove verbatim segment window) :
    ∃ location, locator.find? verbatim [segment] (windowFrom (window.minLine - 1) window) =
      some location ∧ location.stop.line < window.minLine := by
  obtain ⟨line, hline, hkept, hcolumn⟩ := h
  obtain ⟨own, hown⟩ : ∃ own : Nat, window.minLine = own + 2 :=
    ⟨(window.minLine - 2).toNat, by omega⟩
  have habove : window.minLine - 1 = (own : Int) + 1 := by omega
  rw [habove] at hline ⊢
  have hsource := hline
  rw [line?_add_one] at hsource
  have hcount := (List.getElem?_eq_some_iff.mp hsource).1
  have hlast : lastLine? (locator.skips verbatim) window.startColumn ((own : Int) + 1)
      (locator.source.lines.drop own) [segment] = some ((own : Int) + 1, line) :=
    lastLine?_singleton_iff.mpr
      ⟨⟨⟨Int.le_refl _, line, hline, hkept⟩, fun other hother ↦ hother.1⟩, hline, hcolumn⟩
  refine ⟨_, find?_of_lastLine? (List.cons_ne_nil segment []) hsource rfl ?_ hlast, ?_⟩
  · rw [lastStart, windowFrom, Source.lineCount, List.length_singleton]
    dsimp only
    omega
  · rw [spanOf]
    dsimp only
    omega

/-- A segment in the lines of a window that does not stand on the line directly above is found in
those lines by the first try. -/
theorem exists_find?_of_not_standsAbove (hminLine : 2 ≤ window.minLine)
    (habove : ¬locator.StandsAbove verbatim segment window)
    (h : locator.EndStandsFrom verbatim [segment] window.minLine) :
    ∃ location, locator.find? verbatim [segment] (windowFrom (window.minLine - 1) window) =
      some location ∧ window.minLine ≤ location.stop.line := by
  obtain ⟨number, line, hnext, hline, hstands⟩ := exists_line_of_endStandsFrom h
  obtain ⟨own, hown⟩ : ∃ own : Nat, window.minLine = own + 2 :=
    ⟨(window.minLine - 2).toNat, by omega⟩
  rw [hown] at hnext
  have hnumber := hnext.1.1
  have hbound : number ≤ locator.source.lineCount := by
    rw [Source.line?_eq_getElem? _ (by omega)] at hline
    have hlength := (List.getElem?_eq_some_iff.mp hline).1
    rw [Source.lineCount]
    omega
  have hroom : (own : Int) + 2 ≤ locator.lastStart [segment]
      (windowFrom (window.minLine - 1) window) := by
    rw [lastStart, windowFrom, List.length_singleton]
    dsimp only
    omega
  rw [Source.lineCount] at hbound
  have hfirst : ∃ first, locator.source.lines[own]? = some first :=
    ⟨_, List.getElem?_eq_getElem (by omega)⟩
  obtain ⟨first, hfirst⟩ := hfirst
  have htry : (windowFrom (window.minLine - 1) window).minLine = own + 1 := by
    rw [windowFrom]
    dsimp only
    omega
  cases hlast : lastLine? (locator.skips verbatim) window.startColumn ((own : Int) + 1)
      (locator.source.lines.drop own) [segment] with
  | some last =>
    refine ⟨_, find?_of_lastLine? (List.cons_ne_nil segment []) hfirst htry (by omega) hlast, ?_⟩
    -- The line directly above does not hold the segment, so the search went on behind it.
    obtain ⟨htaken, hlastLine, hcolumn⟩ := lastLine?_singleton_iff.mp hlast
    have hlow := htaken.1.1
    have hne : last.1 ≠ (own : Int) + 1 := by
      intro heq
      obtain ⟨taken, htakenLine, hkept⟩ := htaken.1.2
      rw [hlastLine] at htakenLine
      cases htakenLine
      refine habove ⟨last.2, ?_, hkept, hcolumn⟩
      rw [← hlastLine]
      congr 1
      omega
    rw [spanOf]
    dsimp only
    omega
  | none =>
    have hsecond : ∃ second, locator.source.lines[own + 1]? = some second :=
      ⟨_, List.getElem?_eq_getElem (by omega)⟩
    obtain ⟨second, hsecond⟩ := hsecond
    obtain ⟨column, hcolumn⟩ := exists_column_of_infix hstands
    have hfound : (column? segment line 0).isSome := by
      rw [Option.isSome_iff_ne_none, ne_eq, column?_eq_none_iff (Int.le_refl 0)]
      exact fun hnever ↦ hnever column (Int.natCast_nonneg column) hcolumn
    have hlater : lastLine? (locator.skips verbatim) 0 (((own + 1 : Nat) : Int) + 1)
        (locator.source.lines.drop (own + 1)) [segment] = some (number, line) :=
      lastLine?_singleton_iff.mpr ⟨by push_cast; rwa [Int.add_assoc], hline, hfound⟩
    rw [find?_of_lastLine?_eq_none (List.cons_ne_nil segment []) hfirst htry (by omega) hlast]
    refine ⟨_, find?_of_lastLine? (List.cons_ne_nil segment []) hsecond ?_ ?_ hlater, ?_⟩
    · rw [Window.narrowed]
      push_cast
      rfl
    · push_cast
      exact hroom
    · rw [spanOf]
      dsimp only
      omega

/-- A search before a window locates segments above the window, or in its lines if they stand
there. -/
theorem precedes_of_findBackTo? (hhighest : 1 ≤ highest)
    (h : locator.findBackTo? verbatim segments window highest = some location) :
    locator.Precedes verbatim segments window highest location := by
  obtain ⟨tried, hlow, hhigh, htried, hnearer⟩ := findBackTo?_eq_some_iff.mp h
  obtain ⟨hreach, hroom, habove⟩ := reach_of_find? htried
  refine ⟨by omega, hroom, habove, ?_⟩
  rintro segment rfl
  -- Whatever the first try finds is the result, because no line is nearer.
  have hfirst : ∀ found, locator.find? verbatim [segment]
      (windowFrom (window.minLine - 1) window) = some found → found = location := by
    intro found hfound
    by_cases hlast : tried = window.minLine - 1
    · subst hlast
      exact Option.some.inj (hfound.symm.trans htried)
    · rw [hnearer _ (by omega) (by omega)] at hfound
      cases hfound
  constructor
  · intro hstop
    refine ⟨fun hstands ↦ ?_, ?_⟩
    · obtain ⟨found, hfound, hbefore⟩ := exists_find?_of_standsAbove (by omega) hstands
      rw [hfirst found hfound] at hbefore
      omega
    · by_contra hnot
      have hbefore := habove hnot
      omega
  · rintro ⟨hnot, hstands⟩
    obtain ⟨found, hfound, hbehind⟩ := exists_find?_of_not_standsAbove (by omega) hnot hstands
    rwa [hfirst found hfound] at hbehind

end Windows

end AsciidocSpans.Locator
