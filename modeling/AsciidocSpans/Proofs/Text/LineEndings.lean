import AsciidocSpans.Line.Classify
import AsciidocSpans.Proofs.Text.Lines
import AsciidocSpans.Proofs.Text.Occurrence
import Mathlib.Data.List.Forall2

/-!
Texts whose lines end with a carriage return and a newline. `withReturns` puts a carriage return
before every newline, which makes every line but the last one longer (`lines_withReturns`). As the
lines are classified nothing changes (`classifyAll_of_padded`), because carriage returns at the end
of a line are no content. Nor does it change where a text without carriage returns occurs on a
line (`column?_of_padded`): only the empty text is found behind the end of the shorter line.
-/

set_option autoImplicit false
set_option relaxedAutoImplicit false

namespace AsciidocSpans

namespace Text

/-- A text with a carriage return before every newline. -/
def withReturns (text : Text) : Text :=
  text.flatMap fun c ↦ if c = '\n' then ['\r', '\n'] else [c]

/-- Lines with a carriage return at the end of each but the last. -/
def returned : List Text → List Text
  | [] => []
  | [last] => [last]
  | line :: next :: rest => (line ++ ['\r']) :: returned (next :: rest)

/-- A line is another one with nothing but carriage returns added at its end. -/
def Padded (line longer : Text) : Prop :=
  ∃ added, longer = line ++ added ∧ ∀ c ∈ added, c = '\r'

variable {text line longer needle : Text}

section Lines

theorem returned_cons (line : Text) {rest : List Text} (h : rest ≠ []) :
    returned (line :: rest) = (line ++ ['\r']) :: returned rest := by
  cases rest with
  | nil => exact absurd rfl h
  | cons => rfl

theorem returned_cons_char (c : Char) (line : Text) (rest : List Text) :
    ∃ first others, returned (line :: rest) = first :: others ∧
      returned ((c :: line) :: rest) = (c :: first) :: others := by
  cases rest with
  | nil => exact ⟨line, [], rfl, rfl⟩
  | cons => exact ⟨_, _, rfl, rfl⟩

theorem lines_newline (text : Text) : lines ('\n' :: text) = [] :: text.lines :=
  cutAt_append List.not_mem_nil text

/-- A character that is no newline stands at the start of the first line. -/
theorem lines_cons_of_ne {c : Char} {first : Text} {others : List Text} (hc : c ≠ '\n')
    (h : text.lines = first :: others) : lines (c :: text) = (c :: first) :: others := by
  rw [lines] at h
  rw [lines, cutAt, if_neg hc, h]

/-- With a carriage return before every newline, every line but the last ends with one. -/
theorem lines_withReturns (text : Text) : (withReturns text).lines = returned text.lines := by
  induction text with
  | nil => rfl
  | cons c rest ih =>
    obtain ⟨part, others, hlines⟩ := List.exists_cons_of_ne_nil (lines_ne_nil rest)
    rw [withReturns, List.flatMap_cons]
    split
    · next hc =>
      rw [hc, lines_newline, returned_cons _ (lines_ne_nil rest), List.nil_append, ← ih]
      exact @cutAt_append '\n' ['\r'] (by decide) (withReturns rest)
    · next hc =>
      obtain ⟨first, behind, hshort, hlong⟩ := returned_cons_char c part others
      rw [lines_cons_of_ne hc hlines, hlong]
      exact lines_cons_of_ne hc ((ih.trans (congrArg returned hlines)).trans hshort)

theorem padded_refl (line : Text) : Padded line line :=
  ⟨[], (List.append_nil line).symm, nofun⟩

theorem padded_return (line : Text) : Padded line (line ++ ['\r']) :=
  ⟨['\r'], rfl, fun _ hc ↦ List.mem_singleton.mp hc⟩

theorem forall₂_padded_returned (lines : List Text) :
    List.Forall₂ Padded lines (returned lines) := by
  induction lines with
  | nil => exact .nil
  | cons line rest ih =>
    cases rest with
    | nil => exact .cons (padded_refl line) .nil
    | cons => exact .cons (padded_return line) ih

/-- With a carriage return before every newline, the lines of a text are padded. -/
theorem forall₂_padded_lines (text : Text) :
    List.Forall₂ Padded text.lines text.withReturns.lines := by
  rw [lines_withReturns]
  exact forall₂_padded_returned text.lines

theorem exists_padded_of_getElem? {lines others : List Text} (h : List.Forall₂ Padded lines others)
    {index : Nat} (hline : lines[index]? = some line) :
    ∃ longer, others[index]? = some longer ∧ Padded line longer := by
  induction h generalizing index with
  | nil => cases hline
  | @cons _ wide _ _ hpadded _ ih =>
    cases index with
    | zero =>
      cases hline
      exact ⟨wide, rfl, hpadded⟩
    | succ inner => exact ih hline

theorem Padded.length_le (h : Padded line longer) : line.length ≤ longer.length := by
  obtain ⟨added, rfl, -⟩ := h
  rw [List.length_append]
  omega

end Lines

section Returnless

/-- A text that stands in one without carriage returns holds none. -/
theorem not_mem_of_isInfix (h : '\r' ∉ text) (hpart : needle <:+: text) : '\r' ∉ needle :=
  fun hreturn ↦ h (hpart.subset hreturn)

theorem not_mem_cutAt {separator : Char} (h : '\r' ∉ text)
    (hpart : needle ∈ cutAt separator text) : '\r' ∉ needle :=
  fun hreturn ↦ h (subset_of_mem_cutAt hpart hreturn)

theorem not_mem_unlines {parts : List Text} (h : ∀ part ∈ parts, '\r' ∉ part) :
    '\r' ∉ unlines parts := by
  intro hreturn
  rcases mem_joinWith hreturn with hnewline | ⟨part, hpart, hmem⟩
  · exact absurd (List.mem_singleton.mp hnewline) (by decide)
  · exact h part hpart hmem

end Returnless

section Occurrences

/-- A text without carriage returns starts a padded line if it starts the line. -/
theorem isPrefix_padded_iff (h : Padded line longer) (hneedle : '\r' ∉ needle) :
    needle <+: longer ↔ needle <+: line := by
  obtain ⟨added, rfl, hadded⟩ := h
  refine ⟨fun hstarts ↦ ?_, fun hstarts ↦ hstarts.trans (List.prefix_append line added)⟩
  rcases List.prefix_or_prefix_of_prefix hstarts (List.prefix_append line added) with
    hshorter | ⟨further, rfl⟩
  · exact hshorter
  · cases further with
    | nil => simp
    | cons c others =>
      have hfurther : c :: others <+: added := (List.prefix_append_right_inj line).mp hstarts
      have hc : c = '\r' := hadded c (hfurther.subset List.mem_cons_self)
      exact absurd (List.mem_append_right line (hc ▸ List.mem_cons_self)) hneedle

theorem isPrefixOf_padded (h : Padded line longer) (hneedle : '\r' ∉ needle) :
    needle.isPrefixOf longer = needle.isPrefixOf line := by
  rw [Bool.eq_iff_iff, List.isPrefixOf_iff_prefix, List.isPrefixOf_iff_prefix,
    isPrefix_padded_iff h hneedle]

/-- A text without carriage returns that is not empty does not occur among carriage returns. -/
theorem find?_of_returns {added : Text} (hadded : ∀ c ∈ added, c = '\r') (hneedle : '\r' ∉ needle)
    (hsome : needle ≠ []) : find? needle added = none := by
  refine Option.eq_none_iff_forall_ne_some.mpr fun index hindex ↦ ?_
  obtain ⟨c, rest, rfl⟩ := List.exists_cons_of_ne_nil hsome
  have hoccurs := (occurs_of_find? hindex).1
  have hc := hadded c ((List.drop_suffix _ added).subset (hoccurs.subset List.mem_cons_self))
  exact hneedle (hc ▸ List.mem_cons_self)

/-- A text without carriage returns that is not empty occurs on a padded line where it occurs on the
line. -/
theorem find?_of_padded (h : Padded line longer) (hneedle : '\r' ∉ needle) (hsome : needle ≠ []) :
    find? needle longer = find? needle line := by
  obtain ⟨added, rfl, hadded⟩ := h
  induction line with
  | nil =>
    rw [List.nil_append, find?_of_returns hadded hneedle hsome,
      find?_of_returns (fun _ hc ↦ absurd hc List.not_mem_nil) hneedle hsome]
  | cons c rest ih =>
    have hstart : needle.isPrefixOf (c :: rest ++ added) = needle.isPrefixOf (c :: rest) :=
      isPrefixOf_padded ⟨added, rfl, hadded⟩ hneedle
    rw [List.cons_append] at hstart ⊢
    rw [find?, find?, hstart, ih]

/-- A search for a text without carriage returns finds the same on a padded line, as long as it does
not look for the empty text behind the end of the line. -/
theorem column?_of_padded {start : Int} (h : Padded line longer) (hneedle : '\r' ∉ needle)
    (hstart : 0 ≤ start) (hreach : needle ≠ [] ∨ start ≤ line.length) :
    column? needle longer start = column? needle line start := by
  obtain ⟨added, rfl, hadded⟩ := h
  rw [column?, column?, startIndex, startIndex, if_pos hstart, if_pos hstart, findFrom?, findFrom?,
    List.length_append]
  by_cases hwithin : start.toNat ≤ line.length
  · rw [if_neg (by omega), if_neg (by omega), List.drop_append_of_le_length hwithin]
    rcases eq_or_ne needle [] with rfl | hsome
    · cases line.drop start.toNat <;> cases added <;> rfl
    · rw [find?_of_padded ⟨added, rfl, hadded⟩ hneedle hsome]
  · have hsome : needle ≠ [] := hreach.resolve_right (by omega)
    have hbehind : (line ++ added).drop start.toNat = added.drop (start.toNat - line.length) := by
      rw [List.drop_append, List.drop_eq_nil_of_le (by omega), List.nil_append]
    rw [if_pos (show line.length < start.toNat by omega), hbehind, find?_of_returns
      (fun c hc ↦ hadded c ((List.drop_suffix _ added).subset hc)) hneedle hsome]
    split <;> rfl

end Occurrences

section Classified

open Line

variable {marker : Text}

theorem classify_of_padded (h : Padded line longer) (number : Int) :
    classify marker longer number = classify marker line number := by
  obtain ⟨added, rfl, hadded⟩ := h
  have hdropped : ∀ c ∈ added.reverse, (c == '\r') = true :=
    fun c hc ↦ beq_iff_eq.mpr (hadded c (List.mem_reverse.mp hc))
  have hinput : (line ++ added).dropRightWhile (· == '\r') = line.dropRightWhile (· == '\r') := by
    rw [dropRightWhile, dropRightWhile, List.reverse_append,
      List.dropWhile_append_of_pos hdropped]
  rw [classify, classify, hinput]

/-- Padded lines are classified as the lines are. -/
theorem classifyAll_of_padded {lines longer : List Text} (h : List.Forall₂ Padded lines longer)
    (first : Int) : classifyAll marker first longer = classifyAll marker first lines := by
  induction h generalizing first with
  | nil => rfl
  | cons hline _ ih => rw [classifyAll, classifyAll, classify_of_padded hline, ih]

end Classified

end Text

end AsciidocSpans
