/-!
Classes of characters as tables of closed code point ranges in ascending order. A lookup stops
at the first range that starts above the code point, so low characters are answered at once.
-/

set_option autoImplicit false
set_option relaxedAutoImplicit false

namespace AsciidocSpans.Text

/-- Closed ranges of code points, in ascending order. -/
abbrev RangeTable := List (Nat × Nat)

namespace RangeTable

/-- Whether a code point lies in one of the ranges. -/
def contains : RangeTable → Nat → Bool
  | [], _ => false
  | (first, last) :: rest, n =>
    if n < first then false else n ≤ last || contains rest n

/-- The range in which a code point lies. -/
def find? : RangeTable → Nat → Option (Nat × Nat)
  | [], _ => none
  | (first, last) :: rest, n =>
    if n < first then none else if n ≤ last then some (first, last) else find? rest n

/-- A code point that a table contains lies in one of its ranges. -/
theorem exists_of_contains {table : RangeTable} {n : Nat} (h : table.contains n = true) :
    ∃ range ∈ table, range.1 ≤ n ∧ n ≤ range.2 := by
  induction table with
  | nil => simp [contains] at h
  | cons range rest ih =>
    obtain ⟨first, last⟩ := range
    rw [contains] at h
    split at h
    · simp at h
    · next hfirst =>
      rw [Bool.or_eq_true, decide_eq_true_eq] at h
      rcases h with hlast | hrest
      · exact ⟨(first, last), by simp, by simpa using hfirst, hlast⟩
      · obtain ⟨range, hmem, hrange⟩ := ih hrest
        exact ⟨range, by simp [hmem], hrange⟩

end RangeTable

end AsciidocSpans.Text
