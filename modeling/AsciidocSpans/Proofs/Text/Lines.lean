import AsciidocSpans.Text.Basic

/-!
Cutting a text into lines and joining them. No line holds a newline (`not_mem_of_mem_lines`), and
parts without newlines that are joined are the lines of what they make (`lines_unlines`), which
starts with the first of them (`isPrefix_unlines_cons`) and ends with the last (`isSuffix_unlines`).
Nothing new stands in the parts of a text (`subset_of_mem_cutAt`), nor in joined parts but for what
is put between them (`mem_joinWith`).
-/

set_option autoImplicit false
set_option relaxedAutoImplicit false

namespace AsciidocSpans.Text

variable {separator : Char}

/-- The parts of a cut text do not hold the character at which it was cut. -/
theorem not_mem_of_mem_cutAt {text part : Text} (h : part ∈ cutAt separator text) :
    separator ∉ part := by
  induction text generalizing part with
  | nil =>
    rw [List.mem_singleton.mp h]
    exact List.not_mem_nil
  | cons c rest ih =>
    rw [cutAt] at h
    split at h
    · rcases List.mem_cons.mp h with rfl | hrest
      · exact List.not_mem_nil
      · exact ih hrest
    · next hc =>
      split at h
      · rw [List.mem_singleton.mp h]
        exact fun hmem ↦ hc (List.mem_singleton.mp hmem).symm
      · next first others hcut =>
        rcases List.mem_cons.mp h with rfl | hothers
        · have hfirst : separator ∉ first := ih (by
            rw [hcut]
            exact List.mem_cons_self)
          exact List.not_mem_cons_of_ne_of_not_mem (fun heq ↦ hc heq.symm) hfirst
        · refine ih ?_
          rw [hcut]
          exact List.mem_cons_of_mem _ hothers

/-- The parts of a cut text hold nothing but characters of the text. -/
theorem subset_of_mem_cutAt {text part : Text} (h : part ∈ cutAt separator text) : part ⊆ text := by
  induction text generalizing part with
  | nil =>
    rw [List.mem_singleton.mp h]
    exact List.Subset.refl []
  | cons c rest ih =>
    rw [cutAt] at h
    split at h
    · rcases List.mem_cons.mp h with rfl | hrest
      · exact List.nil_subset _
      · exact List.Subset.trans (ih hrest) (List.subset_cons_self c rest)
    · split at h
      · rw [List.mem_singleton.mp h]
        exact List.cons_subset_cons c (List.nil_subset rest)
      · next first others hcut =>
        rcases List.mem_cons.mp h with rfl | hothers
        · exact List.cons_subset_cons c (ih (hcut ▸ List.mem_cons_self))
        · exact List.Subset.trans (ih (hcut ▸ List.mem_cons_of_mem first hothers))
            (List.subset_cons_self c rest)

/-- A character of joined texts is one of the separator or of one of the texts. -/
theorem mem_joinWith {c : Char} {between : Text} {parts : List Text}
    (h : c ∈ joinWith between parts) : c ∈ between ∨ ∃ part ∈ parts, c ∈ part := by
  induction parts with
  | nil => cases h
  | cons first rest ih =>
    by_cases hrest : rest = []
    · subst hrest
      exact .inr ⟨first, List.mem_cons_self, h⟩
    · rw [joinWith_cons _ _ hrest, List.mem_append, List.mem_append] at h
      rcases h with (hfirst | hbetween) | hothers
      · exact .inr ⟨first, List.mem_cons_self, hfirst⟩
      · exact .inl hbetween
      · rcases ih hothers with hbetween | ⟨part, hpart, hc⟩
        · exact .inl hbetween
        · exact .inr ⟨part, List.mem_cons_of_mem first hpart, hc⟩

/-- A part without the separator stays whole. -/
theorem cutAt_of_not_mem {part : Text} (h : separator ∉ part) : cutAt separator part = [part] := by
  induction part with
  | nil => rfl
  | cons c rest ih =>
    have hc := List.ne_of_not_mem_cons h
    rw [cutAt, if_neg fun heq ↦ hc heq.symm, ih (List.not_mem_of_not_mem_cons h)]

/-- A text is cut at the first separator in it. -/
theorem cutAt_append {part : Text} (h : separator ∉ part) (rest : Text) :
    cutAt separator (part ++ separator :: rest) = part :: cutAt separator rest := by
  induction part with
  | nil => rw [List.nil_append, cutAt, if_pos rfl]
  | cons c others ih =>
    have hc := List.ne_of_not_mem_cons h
    rw [List.cons_append, cutAt, if_neg fun heq ↦ hc heq.symm,
      ih (List.not_mem_of_not_mem_cons h)]

/-- Parts without the separator that are joined by it are what the result is cut into. -/
theorem cutAt_joinWith {parts : List Text} (hparts : parts ≠ [])
    (h : ∀ part ∈ parts, separator ∉ part) :
    cutAt separator (joinWith [separator] parts) = parts := by
  induction parts with
  | nil => exact absurd rfl hparts
  | cons part rest ih =>
    have hpart := h part List.mem_cons_self
    by_cases hrest : rest = []
    · subst hrest
      exact cutAt_of_not_mem hpart
    · rw [joinWith_cons _ _ hrest, List.append_assoc, List.singleton_append, cutAt_append hpart,
        ih hrest fun other hother ↦ h other (List.mem_cons_of_mem _ hother)]

/-- No line of a text holds a newline. -/
theorem not_mem_of_mem_lines {text line : Text} (h : line ∈ lines text) : '\n' ∉ line :=
  not_mem_of_mem_cutAt h

/-- Lines that are joined are the lines of the text that they make. -/
theorem lines_unlines {parts : List Text} (hparts : parts ≠ [])
    (h : ∀ part ∈ parts, '\n' ∉ part) : lines (unlines parts) = parts :=
  cutAt_joinWith hparts h

/-- The first of some lines is what they start with when they are joined. -/
theorem isPrefix_unlines_cons (line : Text) (rest : List Text) :
    line <+: unlines (line :: rest) := by
  cases rest with
  | nil => exact List.prefix_rfl
  | cons next others =>
    rw [unlines, joinWith_cons _ _ (List.cons_ne_nil _ _), List.append_assoc]
    exact List.prefix_append _ _

/-- Joined lines end as the last of them does. -/
theorem isSuffix_unlines {parts : List Text} {last : Text} (h : parts.getLast? = some last) :
    last <:+ unlines parts := by
  induction parts with
  | nil => cases h
  | cons part rest ih =>
    cases rest with
    | nil =>
      cases h
      exact List.suffix_rfl
    | cons next others =>
      rw [List.getLast?_cons_cons] at h
      rw [unlines, joinWith_cons _ _ (List.cons_ne_nil _ _)]
      exact (ih h).trans (List.suffix_append _ _)

end AsciidocSpans.Text
