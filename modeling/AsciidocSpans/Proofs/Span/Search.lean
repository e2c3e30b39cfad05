import AsciidocSpans.Proofs.Span.Offsets
import AsciidocSpans.Proofs.Text.Occurrence
import AsciidocSpans.Source.Locator

/-!
What a successful search found. `exists_hit_of_find?` opens a result of `Locator.find?`: a start
line inside the bounds of the window, and the line on which the segments, taken in turn from there,
come to their end. Both ends of the span exist in the source (`hasPosition_of_find?`) and stand in
order (`ordered_of_find?`), whatever lines were passed over on the way.
-/

set_option autoImplicit false
set_option relaxedAutoImplicit false

namespace AsciidocSpans.Locator

open Text

variable {skipped : Text → Bool} {start number : Int} {lines segments : List Text}

/-- The line that a search takes next: the ones before it are passed over, it is not. -/
theorem nextLine?_eq_some {found : Int} {line : Text} {rest : List Text}
    (h : nextLine? skipped number lines = some (found, line, rest)) :
    ∃ count : Nat, found = number + count ∧ lines.drop count = line :: rest ∧
      skipped line = false ∧ ∀ passed ∈ lines.take count, skipped passed = true := by
  induction lines generalizing number with
  | nil => cases h
  | cons first others ih =>
    rw [nextLine?] at h
    split at h
    · next hskipped =>
      obtain ⟨count, hfound, hdrop, hline, hpassed⟩ := ih h
      refine ⟨count + 1, by push_cast; omega, hdrop, hline, fun passed hmem ↦ ?_⟩
      rcases List.mem_cons.mp hmem with rfl | hrest
      · exact hskipped
      · exact hpassed passed hrest
    · next hkept =>
      cases h
      exact ⟨0, by simp, rfl, Bool.eq_false_iff.mpr hkept, fun _ hmem ↦ by cases hmem⟩

/-- The last segment is found on a line that is not passed over, as many lines behind the first line
of the search as there are further segments, or more. -/
theorem lastLine?_eq_some {last : Int × Text} (hsegments : segments ≠ [])
    (h : lastLine? skipped start number lines segments = some last) :
    ∃ count : Nat, last.1 = number + count ∧ segments.length ≤ count + 1 ∧
      lines[count]? = some last.2 ∧ skipped last.2 = false ∧
      (column? (segments.getLastD []) last.2
        (if segments.length = 1 then start else 0)).isSome := by
  induction segments generalizing start number lines with
  | nil => exact absurd rfl hsegments
  | cons segment more ih =>
    rw [lastLine?] at h
    split at h
    · cases h
    · next found line rest hnext =>
      obtain ⟨count, rfl, hdrop, hline, -⟩ := nextLine?_eq_some hnext
      have hhere : lines[count]? = some line := by
        rw [← List.head?_drop, hdrop]
        rfl
      split at h
      · cases h
      · next hcolumn =>
        split at h
        · next hmore =>
          cases h
          rw [List.isEmpty_iff.mp hmore]
          refine ⟨count, rfl, by simp, hhere, hline, ?_⟩
          simpa [Option.isSome_iff_ne_none] using hcolumn
        · next hmore =>
          have hne : more ≠ [] := fun hnil ↦ hmore (by rw [hnil]; rfl)
          obtain ⟨further, hlast, hlength, hget, hkept, hfinal⟩ := ih hne h
          have hlater : lines[count + 1 + further]? = some last.2 := by
            have htail : rest = lines.drop (count + 1) := by
              rw [← List.drop_drop, hdrop]
              rfl
            rw [← hget, htail, List.getElem?_drop]
          refine ⟨count + 1 + further, by rw [hlast]; push_cast; omega, by simp; omega, hlater,
            hkept, ?_⟩
          have hmany : (segment :: more).length ≠ 1 := by
            have := List.length_pos_iff.mpr hne
            rw [List.length_cons]
            omega
          have hgetLast : (segment :: more).getLastD [] = more.getLastD [] := by
            cases more with
            | nil => exact absurd rfl hne
            | cons _ _ => rfl
          rw [if_neg hmany, hgetLast]
          split at hfinal
          · exact hfinal
          · exact hfinal

/-- A scan succeeds on one of the lines that it tries. Only the first of them is searched from the
start column. -/
theorem scan?_eq_some {count : Nat} {location : Location}
    (h : scan? skipped segments start number count lines = some location) :
    ∃ (index : Nat) (line : Text) (rest : List Text) (last : Int × Text),
      index < count ∧ lines.drop index = line :: rest ∧
      lastLine? skipped (if index = 0 then start else 0) (number + index) (line :: rest) segments =
        some last ∧
      location = spanOf segments (if index = 0 then start else 0) (number + index) line last := by
  induction count generalizing start number lines with
  | zero => cases h
  | succ count ih =>
    cases lines with
    | nil => cases h
    | cons line rest =>
      rw [scan?] at h
      split at h
      · next last hlast =>
        cases h
        exact ⟨0, line, rest, last, by omega, rfl, by simpa using hlast, by simp⟩
      · obtain ⟨index, line, rest, last, hindex, hdrop, hlast, hspan⟩ := ih h
        have hnumber : number + 1 + (index : Int) = number + ((index + 1 : Nat) : Int) := by
          push_cast
          omega
        rw [hnumber, ite_self] at hlast hspan
        exact ⟨index + 1, line, rest, last, by omega, hdrop, by simpa using hlast,
          by simpa using hspan⟩

variable {locator : Locator} {verbatim : Bool} {window : Window} {location : Location}

/-- A search that finds something: on which line it started and where it came to its end. -/
theorem exists_hit_of_find? (h : locator.find? verbatim segments window = some location) :
    ∃ (number : Int) (line : Text) (rest : List Text) (last : Int × Text),
      segments ≠ [] ∧ firstStart window ≤ number ∧
      number ≤ locator.lastStart segments window ∧
      locator.source.lines.drop (number - 1).toNat = line :: rest ∧
      lastLine? (locator.skips verbatim)
        (if number = firstStart window then window.startColumn else 0) number (line :: rest)
        segments = some last ∧
      location = spanOf segments (if number = firstStart window then window.startColumn else 0)
        number line last := by
  rw [find?] at h
  split at h
  · cases h
  · next hempty =>
    obtain ⟨index, line, rest, last, hindex, hdrop, hlast, hspan⟩ := scan?_eq_some h
    have hfirst : (1 : Int) ≤ firstStart window := Int.le_max_left _ _
    have hstart : (firstStart window + index = firstStart window) ↔ index = 0 := by omega
    refine ⟨firstStart window + index, line, rest, last, fun hnil ↦ hempty (by rw [hnil]; rfl),
      by omega, by omega, ?_, ?_, ?_⟩
    · rw [List.drop_drop] at hdrop
      rw [← hdrop]
      exact congrArg (fun n ↦ locator.source.lines.drop n) (by omega)
    · simpa only [hstart] using hlast
    · simpa only [hstart] using hspan

/-- A column that a search reports, or column zero, lies on the line. -/
theorem column?_getD_le (segment line : Text) (start : Int) :
    (column? segment line start).getD 0 ≤ line.length := by
  cases hcolumn : column? segment line start with
  | none => exact Nat.zero_le _
  | some column =>
    have := column?_add_length_le hcolumn
    rw [Option.getD_some]
    omega

/-- Both ends of a span that is found exist in the source. -/
theorem hasPosition_of_find? (h : locator.find? verbatim segments window = some location) :
    locator.source.HasPosition location.start ∧ locator.source.HasPosition location.stop := by
  obtain ⟨number, line, rest, last, hsegments, hfirst, -, hdrop, hlast, rfl⟩ :=
    exists_hit_of_find? h
  have hone : (1 : Int) ≤ number := Int.le_trans (Int.le_max_left _ _) hfirst
  have hline : locator.source.line? number = some line := by
    rw [Source.line?_eq_getElem? _ hone, ← List.head?_drop, hdrop]
    rfl
  obtain ⟨count, hcount, -, hget, -, hcolumn⟩ := lastLine?_eq_some hsegments hlast
  have hlater : locator.source.line? last.1 = some last.2 := by
    rw [Source.line?_eq_getElem? _ (by omega), ← hget, ← hdrop, List.getElem?_drop]
    exact congrArg (fun n ↦ locator.source.lines[n]?) (by omega)
  obtain ⟨column, hcolumn⟩ := Option.isSome_iff_exists.mp hcolumn
  have hfits := column?_add_length_le hcolumn
  refine ⟨⟨hone, Int.natCast_nonneg _, line, hline, ?_⟩,
    ⟨by rw [spanOf]; dsimp only; omega, Int.natCast_nonneg _, last.2, hlater, ?_⟩⟩
  · exact Int.ofNat_le.mpr (column?_getD_le _ _ _)
  · rw [spanOf]
    dsimp only
    rw [hcolumn, Option.getD_some]
    exact Int.ofNat_le.mpr hfits

/-- A span that is found ends no earlier than it starts. -/
theorem ordered_of_find? (h : locator.find? verbatim segments window = some location) :
    location.Ordered := by
  obtain ⟨number, line, rest, last, hsegments, -, -, -, hlast, rfl⟩ := exists_hit_of_find? h
  obtain ⟨count, hcount, hlength, hget, -, -⟩ := lastLine?_eq_some hsegments hlast
  rw [Location.Ordered, Position.le_iff]
  cases count with
  | succ further => exact Or.inl (by rw [spanOf]; dsimp only; omega)
  | zero =>
    -- A span on one line belongs to a single segment, which starts where it was found.
    have hsingle : segments.length = 1 := by
      have := List.length_pos_iff.mpr hsegments
      omega
    obtain ⟨segment, rfl⟩ := List.length_eq_one_iff.mp hsingle
    have hsame : last.2 = line := by
      rw [List.getElem?_cons_zero] at hget
      exact (Option.some.inj hget).symm
    refine Or.inr ⟨by rw [spanOf]; dsimp only; omega, ?_⟩
    simp only [spanOf, hsame, List.headD_cons, List.getLastD_cons, List.getLastD_nil,
      List.length_singleton, if_true]
    push_cast
    omega

/-- A span that is found exists in the source. -/
theorem hasSpan_of_find? (h : locator.find? verbatim segments window = some location) :
    locator.source.HasSpan location :=
  ⟨(hasPosition_of_find? h).1, (hasPosition_of_find? h).2, ordered_of_find? h⟩

/-- What a search before a window finds is found by a search from one of the lines that it
tries. -/
theorem exists_find?_of_findBackTo? {highest : Int}
    (h : locator.findBackTo? verbatim segments window highest = some location) :
    ∃ line, highest ≤ line ∧ line < window.minLine ∧
      locator.find? verbatim segments (windowFrom line window) = some location := by
  have hstep : ∀ (count : Nat) (line : Int), highest ≤ line - count + 1 → line < window.minLine →
      locator.searchUp? verbatim segments window line count = some location →
      ∃ line, highest ≤ line ∧ line < window.minLine ∧
        locator.find? verbatim segments (windowFrom line window) = some location := by
    intro count
    induction count with
    | zero =>
      intro line _ _ h
      cases h
    | succ count ih =>
      intro line hhighest hline h
      rw [searchUp?] at h
      split at h
      · next found hfound =>
        cases h
        exact ⟨line, by push_cast at hhighest; omega, hline, hfound⟩
      · exact ih (line - 1) (by push_cast at hhighest; omega) (by omega) h
  rw [findBackTo?] at h
  by_cases hempty : window.minLine ≤ highest
  · rw [Int.toNat_of_nonpos (by omega)] at h
    cases h
  · exact hstep _ _ (by omega) (by omega) h

end AsciidocSpans.Locator
