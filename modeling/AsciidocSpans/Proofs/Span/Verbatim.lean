import AsciidocSpans.Proofs.Span.Written
import Mathlib.Data.List.Chain

/-!
Searching for lines as they stand in the source. The segments are first parts of consecutive lines,
what is left of each after dropping something at its end. A search that starts on the first of the
lines finds just them (`find?_of_parts`), and its span is that of whole lines (`linesSpan`).

A search that starts one line above does so too, unless the lines slide up: if the part of every
line also stands in the line above it (`Slides`), the search comes to its end from the line above
on, and what it finds starts there (`exists_find?_of_partsBelow`).
-/

set_option autoImplicit false
set_option relaxedAutoImplicit false

namespace AsciidocSpans

open Text

/-- The span of consecutive lines: from the start of the first one to the end of the last one. -/
def linesSpan (first : Int) (segments : List Text) : Location where
  start := ⟨first, 0⟩
  stop := ⟨first + segments.length - 1, (segments.getLastD []).length⟩

/-- The part of every line but the first one stands in the line above it. -/
def Slides (part : Text → Text) (lines : List Text) : Prop :=
  lines.IsChain fun above line ↦ part line <:+: above

namespace Locator

variable {skipped : Text → Bool} {part : Text → Text} {here behind : List Text} {opening : Text}
  {number start : Int}

/-- The first part of a line is found at its start. -/
theorem column?_of_isPrefix {segment line : Text} (h : segment <+: line) :
    column? segment line 0 = some 0 := by
  obtain ⟨found, hfound, -, hle⟩ := exists_column?_le (Nat.le_refl 0) (Nat.zero_le line.length)
    (show segment <+: line.drop 0 from h)
  rw [Nat.le_zero.mp hle] at hfound
  exact hfound

/-- The parts of consecutive lines come to their end on the last of these lines. -/
theorem lastLine?_of_parts (hpart : ∀ line, part line <+: line)
    (hkept : ∀ line ∈ here, skipped line = false) (hhere : here ≠ []) :
    lastLine? skipped 0 number (here ++ behind) (here.map part) =
      some (number + here.length - 1, here.getLast hhere) := by
  induction here generalizing number with
  | nil => exact absurd rfl hhere
  | cons line rest ih =>
    rw [List.cons_append, List.map_cons, lastLine?_of_not_skipped (hkept line List.mem_cons_self)
      (column?_of_isPrefix (hpart line))]
    cases rest with
    | nil =>
      rw [List.length_singleton]
      simp
    | cons next others =>
      rw [List.map_cons, List.isEmpty_cons, if_neg Bool.false_ne_true, ← List.map_cons,
        ih (fun other hother ↦ hkept other (List.mem_cons_of_mem _ hother)) (List.cons_ne_nil _ _),
        List.getLast_cons (List.cons_ne_nil next others), @List.length_cons _ line (next :: others)]
      push_cast
      exact congrArg (fun last ↦ some (last, _)) (by omega)

/-- Parts that come to an end from the line above them on stand each in the line above its own. -/
theorem slides_of_lastLine? (hkept : ∀ line ∈ opening :: here, skipped line = false)
    {last : Int × Text} (h : lastLine? skipped start number (opening :: (here ++ behind))
      (here.map part) = some last) : Slides part (opening :: here) := by
  induction here generalizing opening start number with
  | nil => exact .singleton opening
  | cons line rest ih =>
    have hopening : skipped opening = false := hkept opening List.mem_cons_self
    have hrest : ∀ other ∈ line :: rest, skipped other = false :=
      fun other hother ↦ hkept other (List.mem_cons_of_mem _ hother)
    cases hcolumn : column? (part line) opening start with
    | none =>
      rw [List.map_cons, lastLine?, nextLine?, hopening] at h
      simp only [Bool.false_eq_true, if_false, hcolumn, Option.isNone_none, if_true,
        reduceCtorEq] at h
    | some column =>
      rw [List.map_cons, lastLine?_of_not_skipped hopening hcolumn] at h
      obtain ⟨hstart, found, hfound, -⟩ := column?_eq_some_iff.mp hcolumn
      have hinside : part line <:+: opening :=
        ((occurs_of_find? hfound).1.isInfix.trans (List.drop_suffix _ _).isInfix).trans
          (List.drop_suffix _ _).isInfix
      refine List.isChain_cons_cons.mpr ⟨hinside, ?_⟩
      cases rest with
      | nil => exact .singleton line
      | cons next others => exact ih hrest h

/-- Parts that stand each in the line above its own come to an end from the line above them on. -/
theorem exists_lastLine?_of_slides (hkept : ∀ line ∈ opening :: here, skipped line = false)
    (hhere : here ≠ []) (h : Slides part (opening :: here)) :
    ∃ last, lastLine? skipped 0 number (opening :: (here ++ behind)) (here.map part) =
      some last := by
  induction here generalizing opening number with
  | nil => exact absurd rfl hhere
  | cons line rest ih =>
    obtain ⟨hinside, hrest⟩ := List.isChain_cons_cons.mp h
    obtain ⟨index, hindex, hoccurs⟩ := exists_column_of_infix hinside
    obtain ⟨column, hcolumn, -⟩ := exists_column?_le (Nat.zero_le index) hindex hoccurs
    rw [List.map_cons, lastLine?_of_not_skipped (hkept opening List.mem_cons_self)
      (show column? (part line) opening 0 = some column from hcolumn)]
    cases rest with
    | nil => exact ⟨_, rfl⟩
    | cons next others =>
      exact ih (fun other hother ↦ hkept other (List.mem_cons_of_mem _ hother))
        (List.cons_ne_nil _ _) hrest

/-- The span of parts that come to their end on the last of their lines is that of the lines. -/
theorem spanOf_of_parts (hpart : ∀ line, part line <+: line) {line : Text} {rest : List Text}
    (hhere : line :: rest ≠ []) :
    spanOf ((line :: rest).map part) 0 number line
        (number + (line :: rest).length - 1, (line :: rest).getLast hhere) =
      linesSpan number ((line :: rest).map part) := by
  have hlast : ((line :: rest).map part).getLastD [] = part ((line :: rest).getLast hhere) := by
    rw [List.getLastD_eq_getLast?, List.getLast?_map, List.getLast?_eq_some_getLast hhere]
    rfl
  rw [spanOf, linesSpan, hlast, List.length_map, List.map_cons, List.headD_cons, ite_self,
    column?_of_isPrefix (hpart line), column?_of_isPrefix (hpart _), Option.getD_some,
    Nat.zero_add]
  rfl

variable {locator : Locator} {verbatim : Bool} {window : Window} {own : Nat}

/-- A search that comes to no end from its first line on is one from the start of the next line
on. -/
theorem find?_of_lastLine?_eq_none {segments : List Text} {line : Text} (hsegments : segments ≠ [])
    (hline : locator.source.lines[own]? = some line) (hminLine : window.minLine = own + 1)
    (hroom : own + 1 ≤ locator.lastStart segments window)
    (hnone : lastLine? (locator.skips verbatim) window.startColumn ((own : Int) + 1)
      (locator.source.lines.drop own) segments = none) :
    locator.find? verbatim segments window =
      locator.find? verbatim segments (window.narrowed (own + 2) none) := by
  have hempty : segments.isEmpty = false := Bool.eq_false_iff.mpr fun hnil ↦
    hsegments (List.isEmpty_iff.mp hnil)
  have hfirst : firstStart window = own + 1 := by
    rw [firstStart, hminLine]
    omega
  have hnext : firstStart (window.narrowed (own + 2) none) = own + 2 := by
    rw [firstStart, Window.narrowed]
    dsimp only
    omega
  have hlast : locator.lastStart segments (window.narrowed (own + 2) none) =
      locator.lastStart segments window := rfl
  obtain ⟨count, hcount⟩ : ∃ count : Nat,
      (locator.lastStart segments window - ((own : Int) + 1) + 1).toNat = count + 1 :=
    ⟨(locator.lastStart segments window - (own + 1)).toNat, by omega⟩
  have hfewer : (locator.lastStart segments window - ((own : Int) + 2) + 1).toNat = count := by
    omega
  rw [find?, find?, hempty, hfirst, hnext, hlast]
  dsimp only
  rw [if_neg Bool.false_ne_true, if_neg Bool.false_ne_true, hcount, hfewer,
    show ((own : Int) + 1 - 1).toNat = own by omega,
    show ((own : Int) + 2 - 1).toNat = own + 1 by omega, drop_eq_cons hline, scan?,
    ← drop_eq_cons hline, hnone]
  dsimp only
  rw [show (own : Int) + 1 + 1 = own + 2 by omega]
  rfl

/-- The parts of consecutive lines are found on these lines by a search that starts at the start of
the first one. -/
theorem find?_of_parts (hpart : ∀ line, part line <+: line)
    (hlines : locator.source.lines.drop own = here ++ behind) (hhere : here ≠ [])
    (hkept : ∀ line ∈ here, locator.skips verbatim line = false)
    (hminLine : window.minLine = own + 1) (hmaxLine : own + here.length ≤ window.maxLine)
    (hcolumn : window.startColumn = 0) :
    locator.find? verbatim (here.map part) window =
      some (linesSpan (own + 1) (here.map part)) := by
  obtain ⟨line, rest, rfl⟩ := List.exists_cons_of_ne_nil hhere
  have hline : locator.source.lines[own]? = some line := by
    rw [← List.head?_drop, hlines]
    rfl
  have hroom : (own : Int) + 1 ≤ locator.lastStart ((line :: rest).map part) window := by
    have hlength := congrArg List.length hlines
    rw [List.length_drop, List.length_append] at hlength
    rw [lastStart, Source.lineCount, List.length_map]
    rw [List.length_cons] at hlength hmaxLine ⊢
    omega
  rw [find?_of_lastLine? (by simp) hline hminLine hroom
    (by rw [hlines, hcolumn]; exact lastLine?_of_parts hpart hkept hhere), hcolumn,
    spanOf_of_parts hpart]

/-- The parts of consecutive lines are found by a search that starts on the line above, at whatever
column. If they do not slide up, what is found are these lines; if they do and the line above is
searched from its start, what is found starts there. -/
theorem exists_find?_of_partsBelow (hpart : ∀ line, part line <+: line)
    (hlines : locator.source.lines.drop own = opening :: (here ++ behind)) (hhere : here ≠ [])
    (hkept : ∀ line ∈ opening :: here, locator.skips verbatim line = false)
    (hminLine : window.minLine = own + 1) (hmaxLine : own + 1 + here.length ≤ window.maxLine) :
    ∃ location, locator.find? verbatim (here.map part) window = some location ∧
      (¬ Slides part (opening :: here) → location = linesSpan (own + 2) (here.map part)) ∧
      (Slides part (opening :: here) → window.startColumn = 0 →
        location.start.line = own + 1) := by
  have hline : locator.source.lines[own]? = some opening := by
    rw [← List.head?_drop, hlines]
    rfl
  have hroom : (own : Int) + 2 ≤ locator.lastStart (here.map part) window := by
    have hlength := congrArg List.length hlines
    rw [List.length_drop, List.length_cons, List.length_append] at hlength
    have hsome := List.length_pos_iff.mpr hhere
    rw [lastStart, Source.lineCount, List.length_map]
    omega
  have hsegments : here.map part ≠ [] := by simpa using hhere
  cases hlast : lastLine? (locator.skips verbatim) window.startColumn ((own : Int) + 1)
      (locator.source.lines.drop own) (here.map part) with
  | some last =>
    refine ⟨_, find?_of_lastLine? hsegments hline hminLine (by omega) hlast, fun hslides ↦ ?_,
      fun _ _ ↦ rfl⟩
    rw [hlines] at hlast
    exact absurd (slides_of_lastLine? hkept hlast) hslides
  | none =>
    have hbelow : locator.source.lines.drop (own + 1) = here ++ behind := by
      rw [← List.drop_drop, hlines]
      rfl
    have hfound := find?_of_parts hpart hbelow hhere
      (fun line hline ↦ hkept line (List.mem_cons_of_mem _ hline))
      (show (window.narrowed ((own : Int) + 2) none).minLine = (own + 1 : Nat) + 1 by
        rw [Window.narrowed]
        push_cast
        omega)
      (by push_cast; exact hmaxLine) rfl
    refine ⟨linesSpan (own + 2) (here.map part), ?_, fun _ ↦ rfl, fun hslides hcolumn ↦ ?_⟩
    · rw [find?_of_lastLine?_eq_none hsegments hline hminLine (by omega) hlast, hfound]
      push_cast
      rw [show (own : Int) + 1 + 1 = own + 2 by omega]
    · obtain ⟨last, hsome⟩ := exists_lastLine?_of_slides hkept hhere hslides
      rw [hcolumn, hlines, hsome] at hlast
      cases hlast

end Locator

end AsciidocSpans
