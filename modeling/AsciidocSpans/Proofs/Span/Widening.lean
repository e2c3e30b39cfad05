import AsciidocSpans.Proofs.Span.Preceding

/-!
Searches that are widened. A search in a window tries the start lines from the first one on, and how
many it may try is all that the last line of the window says; so what is found in a window is found
at the same place in any window that only goes on further (`find?_of_maxLine_le`). A search before a
window tries the start lines from the nearest one up, so what is found stays the result when it may
go further up (`findBackTo?_of_highest_le`).

`findFurther?` is for what only the wider one of two searches before a window finds. For a single
segment, this ends above the window if the line directly above the window was tried before
(`stop_line_lt_of_findFurther?`): what ends in the window is found from that line.
-/

set_option autoImplicit false
set_option relaxedAutoImplicit false

namespace AsciidocSpans.Locator

open Text

variable {locator : Locator} {verbatim : Bool} {segments : List Text} {window : Window}
  {location : Location}

section Forward

variable {skipped : Text → Bool} {start number : Int} {lines : List Text} {count more : Nat}

/-- A scan that may try more start lines finds what it found among the first ones. -/
theorem scan?_of_count_le (hmore : count ≤ more)
    (h : scan? skipped segments start number count lines = some location) :
    scan? skipped segments start number more lines = some location := by
  induction count generalizing start number lines more with
  | zero => cases h
  | succ count ih =>
    obtain ⟨further, rfl⟩ : ∃ further, more = further + 1 := ⟨more - 1, by omega⟩
    cases lines with
    | nil => cases h
    | cons line rest =>
      rw [scan?] at h ⊢
      cases hlast : lastLine? skipped start number (line :: rest) segments with
      | some last => rwa [hlast] at h
      | none =>
        rw [hlast] at h
        exact ih (Nat.le_of_succ_le_succ hmore) h

/-- What is found in a window is found in a window that goes on further. -/
theorem find?_of_maxLine_le {maxLine : Int} (hmax : window.maxLine ≤ maxLine)
    (h : locator.find? verbatim segments window = some location) :
    locator.find? verbatim segments { window with maxLine } = some location := by
  have hfirst : firstStart { window with maxLine } = firstStart window := rfl
  have hlast : locator.lastStart segments window ≤
      locator.lastStart segments { window with maxLine } := by
    rw [lastStart, lastStart]
    dsimp only
    omega
  rw [find?] at h ⊢
  split at h
  · cases h
  · next hsegments =>
    rw [if_neg hsegments]
    refine scan?_of_count_le ?_ h
    rw [hfirst]
    omega

end Forward

section Backward

variable {highest further lookback : Int} {segment : Text}

/-- What is found before a window is found by a search that may go further up. -/
theorem findBackTo?_of_highest_le (hfurther : further ≤ highest)
    (h : locator.findBackTo? verbatim segments window highest = some location) :
    locator.findBackTo? verbatim segments window further = some location := by
  obtain ⟨tried, hlow, hhigh, htried, hnearer⟩ := findBackTo?_eq_some_iff.mp h
  exact findBackTo?_eq_some_iff.mpr
    ⟨tried, Int.le_trans hfurther hlow, hhigh, htried, hnearer⟩

/-- A larger lookback leads no less far up. -/
theorem highestLine_le_of_le (hle : lookback ≤ further) :
    window.highestLine further ≤ window.highestLine lookback := by
  rw [Window.highestLine, Window.highestLine]
  omega

/-- What is found within a lookback is found within a larger one. -/
theorem findBefore?_of_lookback_le (hle : lookback ≤ further)
    (h : locator.findBefore? verbatim segments window lookback = some location) :
    locator.findBefore? verbatim segments window further = some location :=
  findBackTo?_of_highest_le (highestLine_le_of_le hle) h

/-- Where a segment is found before a window with a larger lookback only. -/
def findFurther? (locator : Locator) (segment : Text) (window : Window) (lookback further : Int) :
    Option Location :=
  match locator.findBefore? false [segment] window lookback with
  | some _ => none
  | none => locator.findBefore? false [segment] window further

theorem findFurther?_eq_some_iff :
    locator.findFurther? segment window lookback further = some location ↔
      locator.findBefore? false [segment] window lookback = none ∧
        locator.findBefore? false [segment] window further = some location := by
  rw [findFurther?]
  split
  · next hfound => simp [hfound]
  · next hnone => simp [hnone]

/-- With the same lookback, nothing else is found. -/
theorem findFurther?_self : locator.findFurther? segment window lookback lookback = none := by
  rw [Option.eq_none_iff_forall_not_mem]
  intro location hlocation
  obtain ⟨hnone, hfound⟩ := findFurther?_eq_some_iff.mp hlocation
  cases hnone.symm.trans hfound

/-- What is found with a larger lookback only ends above the window, if the line directly above was
tried before: from there, a search would have found what ends in the window. -/
theorem stop_line_lt_of_findFurther? (htried : 1 ≤ lookback)
    (h : locator.findFurther? segment window lookback further = some location) :
    location.stop.line < window.minLine := by
  obtain ⟨hnone, hfound⟩ := findFurther?_eq_some_iff.mp h
  have hfirst : 1 ≤ window.highestLine further := Int.le_max_left _ _
  obtain ⟨tried, hlow, hhigh, -⟩ := findBackTo?_eq_some_iff.mp hfound
  by_contra hinside
  obtain ⟨hnot, hstands⟩ :=
    ((precedes_of_findBackTo? hfirst hfound).single segment rfl).mp (Int.not_lt.mp hinside)
  obtain ⟨other, hother, -⟩ := exists_find?_of_not_standsAbove (by omega) hnot hstands
  -- The search from the line directly above the window is the first that was tried.
  have hbefore : locator.findBefore? false [segment] window lookback = some other := by
    refine findBackTo?_eq_some_iff.mpr
      ⟨window.minLine - 1, ?_, by omega, hother, fun nearer _ _ ↦ by omega⟩
    rw [Window.highestLine]
    omega
  cases hnone.symm.trans hbefore

end Backward

end AsciidocSpans.Locator
