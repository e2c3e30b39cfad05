import AsciidocSpans.Proofs.Span.Matched
import Mathlib.Data.Int.LeastGreatest
import Mathlib.Order.Bounds.Basic

/-!
What a search is. Segments stand on lines from a given one on (`StandsOn`) if each of them stands on
the first line that is not passed over, from there or from behind the line of the segment before it.
A start line is `Admissible` in a window if the window has room for the segments behind it and they
stand on lines from there on, the first of them from the start column on if the window starts there.

`find?_least_admissible` says that a search finds something just if there is an admissible line, and
that it then reports the span which the least one gives (`Reports`): from the first occurrence of
the first segment, on the start line itself, to behind the first occurrence of the last one.
-/

set_option autoImplicit false
set_option relaxedAutoImplicit false

namespace AsciidocSpans

namespace Text

/-- A text occurs at a column of a line. -/
def OccursAt (needle line : Text) (column : Nat) : Prop :=
  column ≤ line.length ∧ needle <+: line.drop column

variable {needle line : Text} {start : Int} {column : Nat}

/-- A search reports the first column at which a text occurs, from its start on. -/
theorem column?_eq_some_iff_isLeast (hstart : 0 ≤ start) :
    column? needle line start = some column ↔
      IsLeast {c : Nat | start ≤ c ∧ OccursAt needle line c} column := by
  obtain ⟨first, rfl⟩ := Int.eq_ofNat_of_zero_le hstart
  have hsound : ∀ {found : Nat}, column? needle line first = some found →
      IsLeast {c : Nat | (first : Int) ≤ c ∧ OccursAt needle line c} found := by
    intro found hfound
    have hfits := column?_add_length_le hfound
    obtain ⟨hbound, inner, hinner, rfl⟩ := column?_eq_some_iff.mp hfound
    have hindex : line.startIndex (first : Int) = first := by simp [startIndex]
    rw [hindex] at hinner hfits
    have hoccurs := (occurs_of_find? hinner).1
    rw [List.drop_drop, Nat.add_comm] at hoccurs
    refine ⟨⟨by rw [hindex]; omega, by rw [hindex]; omega, by rwa [hindex]⟩, ?_⟩
    rintro other ⟨hother, hlength, hprefix⟩
    obtain ⟨least, hleast, -, hle⟩ := exists_column?_le (Int.ofNat_le.mp hother) hlength hprefix
    rw [hfound] at hleast
    cases hleast
    exact hle
  constructor
  · exact hsound
  · intro h
    obtain ⟨found, hfound, -⟩ := exists_column?_le (Int.ofNat_le.mp h.1.1) h.1.2.1 h.1.2.2
    rw [hfound, (hsound hfound).unique h]

theorem column?_eq_none_iff (hstart : 0 ≤ start) :
    column? needle line start = none ↔ ∀ c : Nat, start ≤ c → ¬ OccursAt needle line c := by
  obtain ⟨first, rfl⟩ := Int.eq_ofNat_of_zero_le hstart
  constructor
  · rintro h c hc ⟨hlength, hprefix⟩
    obtain ⟨found, hfound, -⟩ := exists_column?_le (Int.ofNat_le.mp hc) hlength hprefix
    rw [h] at hfound
    cases hfound
  · intro h
    by_contra hne
    obtain ⟨found, hfound⟩ := Option.ne_none_iff_exists'.mp hne
    have hleast := (column?_eq_some_iff_isLeast (Int.natCast_nonneg first)).mp hfound
    exact h found hleast.1.1 hleast.1.2

end Text

open Text

namespace Locator

variable {locator : Locator} {verbatim : Bool} {segments : List Text} {window : Window}

/-- A search does not pass over a line of the source. -/
def Takes (locator : Locator) (verbatim : Bool) (number : Int) : Prop :=
  ∃ line, locator.source.line? number = some line ∧ locator.skips verbatim line = false

/-- The first line from a given one on that a search does not pass over. -/
def TakesNext (locator : Locator) (verbatim : Bool) (first number : Int) : Prop :=
  IsLeast {n | first ≤ n ∧ locator.Takes verbatim n} number

/-- Segments stand on lines from a given one on: the first segment on the first line that is not
passed over, and each other one on the first such line behind that of the segment before it. -/
inductive StandsOn (locator : Locator) (verbatim : Bool) : Int → List Text → List Int → Prop
  | nil {first : Int} : StandsOn locator verbatim first [] []
  | cons {first number : Int} {line segment : Text} {segments : List Text} {numbers : List Int}
      (next : locator.TakesNext verbatim first number)
      (here : locator.source.line? number = some line) (stands : segment <:+: line)
      (others : StandsOn locator verbatim (number + 1) segments numbers) :
      StandsOn locator verbatim first (segment :: segments) (number :: numbers)

/-- The first segment occurs from a column on, on the first of the lines on which segments stand. -/
def StartsFrom (locator : Locator) (start : Int) (segments : List Text) (numbers : List Int) :
    Prop :=
  ∀ segment ∈ segments.head?, ∀ number ∈ numbers.head?, ∀ line ∈ locator.source.line? number,
    ∃ column : Nat, start ≤ column ∧ OccursAt segment line column

/-- The column from which a start line of a window is searched: only the first one is not searched
as a whole. -/
def startColumnOn (window : Window) (first : Int) : Int :=
  if first = max 1 window.minLine then window.startColumn else 0

/-- Segments may start on a line of a window. -/
structure Admissible (locator : Locator) (verbatim : Bool) (segments : List Text) (window : Window)
    (first : Int) : Prop where
  low : max 1 window.minLine ≤ first
  high : first ≤ min window.maxLine locator.source.lineCount - segments.length + 1
  stands : ∃ numbers, locator.StandsOn verbatim first segments numbers ∧
    locator.StartsFrom (startColumnOn window first) segments numbers

/-- The span of segments that stand on lines from a start line on. It starts on that line, at the
first occurrence of the first segment or else at column zero, and stops behind the first occurrence
of the last segment on the last line. -/
structure Reports (locator : Locator) (verbatim : Bool) (segments : List Text) (window : Window)
    (first : Int) (location : Location) : Prop where
  start_line : location.start.line = first
  start_column : ∃ line segment, locator.source.line? first = some line ∧
    segments.head? = some segment ∧
    ((∃ column : Nat, location.start.column = column ∧
        IsLeast {c : Nat | startColumnOn window first ≤ c ∧ OccursAt segment line c} column) ∨
      (location.start.column = 0 ∧
        ∀ column : Nat, startColumnOn window first ≤ column → ¬ OccursAt segment line column))
  stop : ∃ numbers line segment, ∃ column : Nat,
    locator.StandsOn verbatim first segments numbers ∧
    numbers.getLast? = some location.stop.line ∧
    locator.source.line? location.stop.line = some line ∧ segments.getLast? = some segment ∧
    location.stop.column = (column + segment.length : Nat) ∧
    IsLeast {c : Nat | (if segments.length = 1 then startColumnOn window first else 0) ≤ c ∧
      OccursAt segment line c} column

section Lines

variable {first : Nat} {start : Int}

theorem line?_add_one (source : Source) (index : Nat) :
    source.line? ((index : Int) + 1) = source.lines[index]? := by
  rw [Source.line?_eq_getElem? _ (by omega)]
  congr 1
  omega

/-- Behind some lines, all of which a search passes over, stands the next one that it takes. -/
theorem takesNext_of_drop {index : Nat} {line : Text} (hle : first ≤ index)
    (hline : locator.source.lines[index]? = some line) (hkept : locator.skips verbatim line = false)
    (hpassed : ∀ passed ∈ (locator.source.lines.drop first).take (index - first),
      locator.skips verbatim passed = true) :
    locator.TakesNext verbatim ((first : Int) + 1) ((index : Int) + 1) := by
  refine ⟨⟨by omega, line, by rw [line?_add_one, hline], hkept⟩, ?_⟩
  rintro number ⟨hnumber, other, hother, htaken⟩
  by_contra hbefore
  obtain ⟨inner, rfl⟩ : ∃ inner : Nat, number = inner + 1 := ⟨(number - 1).toNat, by omega⟩
  rw [line?_add_one] at hother
  have hmem : other ∈ (locator.source.lines.drop first).take (index - first) := by
    refine List.mem_of_getElem? (i := inner - first) ?_
    rw [List.getElem?_take_of_lt (by omega), List.getElem?_drop, ← hother]
    congr 1
    omega
  rw [hpassed other hmem] at htaken
  cases htaken

/-- Where a search takes no line, it passes over all of them. -/
theorem skips_of_nextLine?_eq_none {skipped : Text → Bool} {number : Int} {lines : List Text}
    (h : nextLine? skipped number lines = none) : ∀ line ∈ lines, skipped line = true := by
  induction lines generalizing number with
  | nil => exact List.forall_mem_nil _
  | cons line rest ih =>
    rw [nextLine?] at h
    split at h
    · next hskipped => exact List.forall_mem_cons.mpr ⟨hskipped, ih h⟩
    · cases h

/-- The line that a search takes next. -/
theorem nextLine?_eq_some_iff {number : Int} {line : Text} {rest : List Text} :
    nextLine? (locator.skips verbatim) ((first : Int) + 1) (locator.source.lines.drop first) =
        some (number, line, rest) ↔
      locator.TakesNext verbatim ((first : Int) + 1) number ∧
        locator.source.line? number = some line ∧
        rest = locator.source.lines.drop number.toNat := by
  have hsound : ∀ {number line rest}, nextLine? (locator.skips verbatim) ((first : Int) + 1)
      (locator.source.lines.drop first) = some (number, line, rest) →
      locator.TakesNext verbatim ((first : Int) + 1) number ∧
        locator.source.line? number = some line ∧
        rest = locator.source.lines.drop number.toNat := by
    intro number line rest h
    obtain ⟨count, rfl, hdrop, hkept, hpassed⟩ := nextLine?_eq_some h
    rw [List.drop_drop] at hdrop
    have hline : locator.source.lines[first + count]? = some line := by
      rw [← List.head?_drop, hdrop]
      rfl
    have hnumber : (first : Int) + 1 + count = ((first + count : Nat) : Int) + 1 := by
      push_cast
      omega
    rw [hnumber, line?_add_one]
    refine ⟨takesNext_of_drop (Nat.le_add_right _ _) hline hkept (by simpa using hpassed), hline,
      ?_⟩
    rw [show (((first + count : Nat) : Int) + 1).toNat = first + count + 1 by omega,
      ← List.drop_drop, hdrop]
    rfl
  constructor
  · exact hsound
  · rintro ⟨hnext, hline, rfl⟩
    cases hfound : nextLine? (locator.skips verbatim) ((first : Int) + 1)
        (locator.source.lines.drop first) with
    | some taken =>
      obtain ⟨other, otherLine, behind⟩ := taken
      obtain ⟨hother, hotherLine, rfl⟩ := hsound hfound
      obtain rfl := hother.unique hnext
      rw [hline] at hotherLine
      cases hotherLine
      rfl
    | none =>
      obtain ⟨⟨hle, taken, htaken, hkept⟩, -⟩ := hnext
      obtain ⟨index, rfl⟩ : ∃ index : Nat, number = index + 1 := ⟨(number - 1).toNat, by omega⟩
      rw [line?_add_one] at htaken
      have hmem : taken ∈ locator.source.lines.drop first := by
        refine List.mem_of_getElem? (i := index - first) ?_
        rw [List.getElem?_drop, ← htaken]
        congr 1
        omega
      rw [skips_of_nextLine?_eq_none hfound taken hmem] at hkept
      cases hkept

/-- A search for segments takes the next line for the first of them, on which it occurs from the
start column on, and goes on behind that line for the others. -/
theorem lastLine?_cons_iff {segment : Text} {more : List Text} {last : Int × Text}
    (hstart : 0 ≤ start) :
    lastLine? (locator.skips verbatim) start ((first : Int) + 1)
        (locator.source.lines.drop first) (segment :: more) = some last ↔
      ∃ (index : Nat) (line : Text),
        locator.TakesNext verbatim ((first : Int) + 1) ((index : Int) + 1) ∧
        locator.source.line? ((index : Int) + 1) = some line ∧
        (∃ column : Nat, start ≤ column ∧ OccursAt segment line column) ∧
        (more = [] ∧ last = ((index : Int) + 1, line) ∨
          more ≠ [] ∧ lastLine? (locator.skips verbatim) 0 (((index + 1 : Nat) : Int) + 1)
            (locator.source.lines.drop (index + 1)) more = some last) := by
  have hcolumn : ∀ line, (column? segment line start).isNone = false ↔
      ∃ column : Nat, start ≤ column ∧ OccursAt segment line column := by
    intro line
    rw [← Bool.not_eq_true, Option.isNone_iff_eq_none, column?_eq_none_iff hstart]
    simp only [not_forall, not_not, exists_prop]
  rw [lastLine?]
  constructor
  · intro h
    split at h
    · cases h
    · next number line rest hnext =>
      obtain ⟨hnumber, hline, rfl⟩ := nextLine?_eq_some_iff.mp hnext
      obtain ⟨index, rfl⟩ : ∃ index : Nat, number = index + 1 :=
        ⟨(number - 1).toNat, by have := hnumber.1.1; omega⟩
      split at h
      · cases h
      · next hfound =>
        refine ⟨index, line, hnumber, hline, (hcolumn line).mp (Bool.eq_false_iff.mpr hfound), ?_⟩
        by_cases hmore : more = []
        · subst hmore
          cases h
          exact Or.inl ⟨rfl, rfl⟩
        · rw [if_neg (by simpa using hmore)] at h
          exact Or.inr ⟨hmore, h⟩
  · rintro ⟨index, line, hnumber, hline, hoccurs, hrest⟩
    rw [nextLine?_eq_some_iff.mpr ⟨hnumber, hline, rfl⟩]
    simp only [(hcolumn line).mpr hoccurs, Bool.false_eq_true, if_false]
    rcases hrest with ⟨rfl, rfl⟩ | ⟨hmore, hrest⟩
    · rfl
    · rw [if_neg (by simpa using hmore)]
      exact hrest

/-- Whatever stands on lines starts there from the first column on. -/
theorem StandsOn.startsFrom_zero {first : Int} {numbers : List Int}
    (h : locator.StandsOn verbatim first segments numbers) :
    locator.StartsFrom 0 segments numbers := by
  cases h with
  | nil =>
    intro segment hsegment
    cases hsegment
  | cons next here stands others =>
    intro segment hsegment number hnumber line hline
    cases hsegment
    cases hnumber
    rw [here] at hline
    cases hline
    obtain ⟨column, hcolumn⟩ := exists_column_of_infix stands
    exact ⟨column, Int.natCast_nonneg column, hcolumn⟩

/-- The lines on which segments stand are lines of the source. -/
theorem StandsOn.exists_line {first : Int} {numbers : List Int}
    (h : locator.StandsOn verbatim first segments numbers) {number : Int}
    (hmem : number ∈ numbers) :
    ∃ line, locator.source.line? number = some line := by
  induction h with
  | nil => cases hmem
  | cons next here stands others ih =>
    rcases List.mem_cons.mp hmem with rfl | hrest
    · exact ⟨_, here⟩
    · exact ih hrest

/-- A search comes to its end on the last of the lines on which the segments stand. -/
theorem lastLine?_eq_some_iff {last : Int × Text} (hstart : 0 ≤ start) (hsegments : segments ≠ []) :
    lastLine? (locator.skips verbatim) start ((first : Int) + 1)
        (locator.source.lines.drop first) segments = some last ↔
      ∃ numbers, locator.StandsOn verbatim ((first : Int) + 1) segments numbers ∧
        locator.StartsFrom start segments numbers ∧ numbers.getLast? = some last.1 ∧
        locator.source.line? last.1 = some last.2 := by
  induction segments generalizing first start with
  | nil => exact absurd rfl hsegments
  | cons segment more ih =>
    rw [lastLine?_cons_iff hstart]
    constructor
    · rintro ⟨index, line, hnumber, hline, ⟨column, hoccurs⟩, hrest⟩
      have hstands : segment <:+: line :=
        hoccurs.2.2.isInfix.trans (List.drop_suffix _ line).isInfix
      have hfrom : ∀ numbers, locator.StartsFrom start (segment :: more)
          (((index : Int) + 1) :: numbers) := by
        intro numbers found hfound number hnumber other hother
        cases hfound
        cases hnumber
        rw [hline] at hother
        cases hother
        exact ⟨column, hoccurs⟩
      rcases hrest with ⟨rfl, rfl⟩ | ⟨hmore, hrest⟩
      · exact ⟨_, .cons hnumber hline hstands .nil, hfrom [], rfl, hline⟩
      · obtain ⟨numbers, hnumbers, -, hlast, hlastLine⟩ := (ih (Int.le_refl 0) hmore).mp hrest
        refine ⟨_, .cons hnumber hline hstands hnumbers, hfrom numbers, ?_, hlastLine⟩
        rw [List.getLast?_cons, hlast]
        rfl
    · rintro ⟨numbers, hnumbers, hfrom, hlast, hlastLine⟩
      cases hnumbers with
      | @cons _ number line _ _ numbers hnumber hline hstands hothers =>
        obtain ⟨index, rfl⟩ : ∃ index : Nat, number = index + 1 :=
          ⟨(number - 1).toNat, by have := hnumber.1.1; omega⟩
        refine ⟨index, line, hnumber, hline, hfrom segment rfl _ rfl line hline, ?_⟩
        by_cases hmore : more = []
        · subst hmore
          cases hothers
          refine Or.inl ⟨rfl, ?_⟩
          obtain ⟨lastNumber, lastText⟩ := last
          simp only [List.getLast?_singleton, Option.some.injEq] at hlast
          subst hlast
          rw [hline] at hlastLine
          cases hlastLine
          rfl
        · refine Or.inr ⟨hmore, (ih (Int.le_refl 0) hmore).mpr ⟨numbers, hothers,
            hothers.startsFrom_zero, ?_, hlastLine⟩⟩
          cases hothers with
          | nil => exact absurd rfl hmore
          | cons => rwa [List.getLast?_cons_cons] at hlast

end Lines

section Starts

variable {skipped : Text → Bool} {start number : Int} {index count : Nat} {lines : List Text}

/-- The first start line from which the segments come to their end is the one that is reported. -/
theorem scan?_of_first {line : Text} {last : Int × Text} (hcount : index < count)
    (hline : lines[index]? = some line)
    (hhit : lastLine? skipped (if index = 0 then start else 0) (number + index) (lines.drop index)
      segments = some last)
    (hbefore : ∀ earlier < index, lastLine? skipped (if earlier = 0 then start else 0)
      (number + earlier) (lines.drop earlier) segments = none) :
    scan? skipped segments start number count lines =
      some (spanOf segments (if index = 0 then start else 0) (number + index) line last) := by
  induction index generalizing start number count lines with
  | zero =>
    obtain ⟨more, rfl⟩ : ∃ more, count = more + 1 := ⟨count - 1, by omega⟩
    obtain ⟨rest, rfl⟩ : ∃ rest, lines = line :: rest := by
      cases lines with
      | nil => cases hline
      | cons first rest =>
        cases hline
        exact ⟨rest, rfl⟩
    simp only [if_true, Int.natCast_zero, Int.add_zero, List.drop_zero] at hhit ⊢
    rw [scan?, hhit]
  | succ index ih =>
    obtain ⟨more, rfl⟩ : ∃ more, count = more + 1 := ⟨count - 1, by omega⟩
    cases lines with
    | nil => cases hline
    | cons first rest =>
      have hnumber (offset : Nat) : number + ((offset + 1 : Nat) : Int) = number + 1 + offset := by
        push_cast
        omega
      have hfirst := hbefore 0 (Nat.succ_pos index)
      simp only [if_true, Int.natCast_zero, Int.add_zero, List.drop_zero] at hfirst
      rw [hnumber, if_neg (Nat.succ_ne_zero index)] at hhit ⊢
      rw [scan?, hfirst]
      have hrest := @ih 0 (number + 1) more rest (by omega) hline (by simpa using hhit)
        fun earlier hearlier ↦ by
          have hmiss := hbefore (earlier + 1) (by omega)
          rw [hnumber, if_neg (Nat.succ_ne_zero earlier)] at hmiss
          simpa using hmiss
      rw [hrest, ite_self]

theorem startColumnOn_nonneg (hstart : 0 ≤ window.startColumn) (first : Int) :
    0 ≤ startColumnOn window first := by
  unfold startColumnOn
  split_ifs
  · exact hstart
  · exact Int.le_refl 0

/-- Segments may start on a line if the window has room there and a search from there comes to its
end. -/
theorem admissible_iff (hstart : 0 ≤ window.startColumn) (hsegments : segments ≠ []) {first : Int} :
    locator.Admissible verbatim segments window first ↔
      firstStart window ≤ first ∧ first ≤ locator.lastStart segments window ∧
        ∃ last, lastLine? (locator.skips verbatim) (startColumnOn window first) first
          (locator.source.lines.drop (first - 1).toNat) segments = some last := by
  have hcolumn := startColumnOn_nonneg hstart first
  by_cases hlow : firstStart window ≤ first
  · obtain ⟨index, rfl⟩ : ∃ index : Nat, first = index + 1 :=
      ⟨(first - 1).toNat, by unfold firstStart at hlow; omega⟩
    rw [show ((index : Int) + 1 - 1).toNat = index by omega]
    constructor
    · rintro ⟨-, hhigh, numbers, hstands, hfrom⟩
      obtain ⟨last, hlast⟩ : ∃ last, numbers.getLast? = some last := by
        cases hstands with
        | nil => exact absurd rfl hsegments
        | cons => exact ⟨_, List.getLast?_eq_some_getLast (List.cons_ne_nil _ _)⟩
      obtain ⟨line, hline⟩ := hstands.exists_line (List.mem_of_getLast? hlast)
      exact ⟨hlow, hhigh, (last, line),
        (lastLine?_eq_some_iff hcolumn hsegments).mpr ⟨numbers, hstands, hfrom, hlast, hline⟩⟩
    · rintro ⟨-, hhigh, last, hlast⟩
      obtain ⟨numbers, hstands, hfrom, -⟩ := (lastLine?_eq_some_iff hcolumn hsegments).mp hlast
      exact ⟨hlow, hhigh, numbers, hstands, hfrom⟩
  · constructor
    · exact fun h ↦ absurd h.low hlow
    · exact fun h ↦ absurd h.1 hlow

/-- A search reports the span that the least admissible start line gives. -/
theorem find?_of_isLeast (hstart : 0 ≤ window.startColumn) (hsegments : segments ≠ [])
    {first : Int} (h : IsLeast {i | locator.Admissible verbatim segments window i} first) :
    ∃ line last, locator.source.line? first = some line ∧
      lastLine? (locator.skips verbatim) (startColumnOn window first) first
        (locator.source.lines.drop (first - 1).toNat) segments = some last ∧
      locator.find? verbatim segments window =
        some (spanOf segments (startColumnOn window first) first line last) := by
  obtain ⟨hlow, hhigh, last, hlast⟩ := (admissible_iff hstart hsegments).mp h.1
  have hone : 1 ≤ firstStart window := Int.le_max_left _ _
  obtain ⟨index, rfl⟩ : ∃ index : Nat, first = firstStart window + index :=
    ⟨(first - firstStart window).toNat, by omega⟩
  have hstartOn (offset : Nat) : startColumnOn window (firstStart window + offset) =
      if offset = 0 then window.startColumn else 0 := by
    unfold startColumnOn firstStart
    split_ifs <;> first | rfl | omega
  have hdrop (offset : Nat) : locator.source.lines.drop (firstStart window + offset - 1).toNat =
      (locator.source.lines.drop (firstStart window - 1).toNat).drop offset := by
    rw [List.drop_drop]
    congr 1
    omega
  rw [hstartOn, hdrop] at hlast
  obtain ⟨line, hline⟩ : ∃ line,
      (locator.source.lines.drop (firstStart window - 1).toNat)[index]? = some line := by
    obtain ⟨offset, -, -, hoffset, -⟩ := lastLine?_eq_some hsegments hlast
    have hlength := (List.getElem?_eq_some_iff.mp hoffset).1
    rw [List.length_drop] at hlength
    exact ⟨_, List.getElem?_eq_getElem (by omega)⟩
  have hbefore : ∀ earlier < index, lastLine? (locator.skips verbatim)
      (if earlier = 0 then window.startColumn else 0) (firstStart window + earlier)
      ((locator.source.lines.drop (firstStart window - 1).toNat).drop earlier) segments = none := by
    intro earlier hearlier
    by_contra hsome
    obtain ⟨other, hother⟩ := Option.ne_none_iff_exists'.mp hsome
    rw [← hstartOn, ← hdrop] at hother
    have hle := h.2 ((admissible_iff hstart hsegments).mpr ⟨by omega, by omega, other, hother⟩)
    omega
  have hcount : index < (locator.lastStart segments window - firstStart window + 1).toNat := by
    omega
  have hfound := scan?_of_first hcount hline hlast hbefore
  refine ⟨line, last, ?_, by rw [hstartOn, hdrop]; exact hlast, ?_⟩
  · rw [Source.line?_eq_getElem? _ (by omega), ← hline, List.getElem?_drop]
    congr 1
    omega
  · rw [find?, if_neg (by simpa using hsegments), hstartOn]
    exact hfound

/-- The span of segments that come to their end from a start line on is the one to report. -/
theorem reports_spanOf (hstart : 0 ≤ window.startColumn) (hsegments : segments ≠ []) {first : Int}
    {line : Text} {last : Int × Text} (hfirst : 1 ≤ first)
    (hline : locator.source.line? first = some line)
    (h : lastLine? (locator.skips verbatim) (startColumnOn window first) first
      (locator.source.lines.drop (first - 1).toNat) segments = some last) :
    locator.Reports verbatim segments window first
      (spanOf segments (startColumnOn window first) first line last) := by
  have hcolumn : 0 ≤ startColumnOn window first := startColumnOn_nonneg hstart first
  refine ⟨rfl, ?_, ?_⟩
  · obtain ⟨segment, more, rfl⟩ := List.exists_cons_of_ne_nil hsegments
    refine ⟨line, segment, hline, rfl, ?_⟩
    unfold spanOf
    cases hfound : column? segment line (startColumnOn window first) with
    | some column =>
      refine Or.inl ⟨column, ?_, (column?_eq_some_iff_isLeast hcolumn).mp hfound⟩
      simp [hfound]
    | none =>
      refine Or.inr ⟨?_, (column?_eq_none_iff hcolumn).mp hfound⟩
      simp [hfound]
  · obtain ⟨index, rfl⟩ : ∃ index : Nat, first = index + 1 := ⟨(first - 1).toNat, by omega⟩
    rw [show ((index : Int) + 1 - 1).toNat = index by omega] at h
    obtain ⟨column, hfound, hstop : (spanOf segments _ _ line last).stop.column = _⟩ :=
      exists_column_of_lastLine? hsegments h
    obtain ⟨numbers, hstands, -, hlast, hlastLine⟩ :=
      (lastLine?_eq_some_iff hcolumn hsegments).mp h
    refine ⟨numbers, last.2, segments.getLastD [], column, hstands, hlast, hlastLine, ?_, ?_, ?_⟩
    · rw [List.getLastD_eq_getLast?, List.getLast?_eq_some_getLast hsegments, Option.getD_some]
    · rw [hstop]
      push_cast
      rfl
    · refine (column?_eq_some_iff_isLeast ?_).mp hfound
      split_ifs
      · exact hcolumn
      · exact Int.le_refl 0

/-- From the least admissible start line on, a search finds the span to report. -/
theorem exists_reports_of_isLeast (hstart : 0 ≤ window.startColumn) (hsegments : segments ≠ [])
    {first : Int} (h : IsLeast {i | locator.Admissible verbatim segments window i} first) :
    ∃ location, locator.find? verbatim segments window = some location ∧
      locator.Reports verbatim segments window first location := by
  obtain ⟨line, last, hline, hlast, hfind⟩ := find?_of_isLeast hstart hsegments h
  have hone : 1 ≤ first := (Int.le_max_left 1 _).trans h.1.low
  exact ⟨_, hfind, reports_spanOf hstart hsegments hone hline hlast⟩

/-- Where there are admissible start lines, there is a least one. -/
theorem exists_isLeast_admissible {first : Int}
    (h : locator.Admissible verbatim segments window first) :
    ∃ least, IsLeast {i | locator.Admissible verbatim segments window i} least := by
  obtain ⟨least, hleast, hle⟩ := Int.exists_least_of_bdd
    (P := fun i ↦ locator.Admissible verbatim segments window i)
    ⟨1, fun i hi ↦ (Int.le_max_left 1 _).trans hi.low⟩ ⟨first, h⟩
  exact ⟨least, hleast, fun i hi ↦ hle i hi⟩

/-- Where something is found, there is an admissible start line. -/
theorem exists_admissible_of_find? (hstart : 0 ≤ window.startColumn) {location : Location}
    (h : locator.find? verbatim segments window = some location) :
    segments ≠ [] ∧ ∃ first, locator.Admissible verbatim segments window first := by
  obtain ⟨first, line, rest, last, hsegments, hlow, hhigh, hdrop, hlast, -⟩ :=
    exists_hit_of_find? h
  refine ⟨hsegments, first, (admissible_iff hstart hsegments).mpr ⟨hlow, hhigh, last, ?_⟩⟩
  rw [hdrop]
  exact hlast

/-- What is found is the span that some admissible start line gives. -/
theorem exists_reports_of_find? (hstart : 0 ≤ window.startColumn) {location : Location}
    (h : locator.find? verbatim segments window = some location) :
    ∃ first, locator.Admissible verbatim segments window first ∧
      locator.Reports verbatim segments window first location := by
  obtain ⟨hsegments, first, hfirst⟩ := exists_admissible_of_find? hstart h
  obtain ⟨least, hleast⟩ := exists_isLeast_admissible hfirst
  obtain ⟨other, hother, hreports⟩ := exists_reports_of_isLeast hstart hsegments hleast
  rw [h] at hother
  cases hother
  exact ⟨least, hleast.1, hreports⟩

end Starts

/-- A search finds segments just if there are some and they may start on some line of the window. It
reports their span from the first such line on. -/
theorem find?_least_admissible (hstart : 0 ≤ window.startColumn) :
    (locator.find? verbatim segments window = none ↔
      segments = [] ∨ ∀ first, ¬ locator.Admissible verbatim segments window first) ∧
    ∀ first, segments ≠ [] → IsLeast {i | locator.Admissible verbatim segments window i} first →
      ∃ location, locator.find? verbatim segments window = some location ∧
        locator.Reports verbatim segments window first location := by
  refine ⟨⟨fun hnone ↦ ?_, ?_⟩,
    fun first hsegments hfirst ↦ exists_reports_of_isLeast hstart hsegments hfirst⟩
  · by_contra hboth
    push Not at hboth
    obtain ⟨hsegments, first, hfirst⟩ := hboth
    obtain ⟨least, hleast⟩ := exists_isLeast_admissible hfirst
    obtain ⟨location, hlocation, -⟩ := exists_reports_of_isLeast hstart hsegments hleast
    rw [hnone] at hlocation
    cases hlocation
  · rintro (rfl | hnever)
    · rfl
    · by_contra hsome
      obtain ⟨location, hlocation⟩ := Option.ne_none_iff_exists'.mp hsome
      obtain ⟨-, first, hfirst⟩ := exists_admissible_of_find? hstart hlocation
      exact hnever first hfirst

/-- A source that starts with a comment, in which the first segment stands too. -/
def commentedSource : Locator :=
  { source := .ofText "// a\nxa\n// b\nab".toList, commentMarker := "//".toList }

/-- A window that starts above that source and ends below it, with a column to start from. -/
def wideWindow : Window :=
  { minLine := 0, maxLine := 9, startColumn := 1 }

/-- The segments stand on the second and the fourth line, and their span starts on the first. -/
theorem find?_least_admissible_commented :
    0 ≤ wideWindow.startColumn ∧ [['a'], ['b']] ≠ ([] : List Text) ∧
    IsLeast {i | commentedSource.Admissible false [['a'], ['b']] wideWindow i} 1 ∧
    commentedSource.find? false [['a'], ['b']] wideWindow = some ⟨⟨1, 3⟩, ⟨4, 2⟩⟩ ∧
    commentedSource.Reports false [['a'], ['b']] wideWindow 1 ⟨⟨1, 3⟩, ⟨4, 2⟩⟩ := by
  have hstart : 0 ≤ wideWindow.startColumn := by decide
  have hsegments : [['a'], ['b']] ≠ ([] : List Text) := List.cons_ne_nil _ _
  have hleast : IsLeast {i | commentedSource.Admissible false [['a'], ['b']] wideWindow i} 1 :=
    ⟨(admissible_iff hstart hsegments).mpr ⟨by decide, by decide, (4, "ab".toList), by decide⟩,
      fun i hi ↦ hi.low⟩
  have hfind : commentedSource.find? false [['a'], ['b']] wideWindow =
      some ⟨⟨1, 3⟩, ⟨4, 2⟩⟩ := by decide
  obtain ⟨location, hlocation, hreports⟩ :=
    (find?_least_admissible hstart).2 1 hsegments hleast
  rw [hfind] at hlocation
  cases hlocation
  exact ⟨hstart, hsegments, hleast, hfind, hreports⟩

end Locator

end AsciidocSpans
