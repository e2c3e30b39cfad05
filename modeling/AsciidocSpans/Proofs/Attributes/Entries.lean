import AsciidocSpans.AttributeList
import AsciidocSpans.Proofs.Text.Trimmed

/-!
Splitting an attribute list into entries and joining entries to a list. Reading goes on outside
quotes or inside a quote that is open (`openBehind`), and a list is cut at the commas outside
quotes. So the parts of a list are texts in which no comma stands outside quotes (`Unbroken`), and
all but the last of them leave no quote open (`IsCut`); every such list of parts is what the text is
cut into that they make when they are joined by commas (`cutEntries_joinWith`).

White space is no quote and no comma, so trimming parts leaves them parts of a list. Therefore
splitting and joining are inverse to each other on trimmed parts, but for the list whose only entry
is empty (`splitEntries_joinWith`).
-/

set_option autoImplicit false
set_option relaxedAutoImplicit false

namespace AsciidocSpans.AttributeList

open Text

variable {openQuote : Option Char} {c : Char} {text part rest : Text} {parts : List Text}

/-! ### Quotes -/

section Quotes

/-- The quote that is open behind a character, given the one that is open before it. -/
def quoteBehind (openQuote : Option Char) (c : Char) : Option Char :=
  match openQuote with
  | some quote => if c = quote then none else some quote
  | none => if isQuote c then some c else none

/-- The quote that is open behind a text, given the one that is open before it. -/
def openBehind (openQuote : Option Char) (text : Text) : Option Char :=
  text.foldl quoteBehind openQuote

/-- What is open is a quote, if anything is. -/
def IsQuoteState (openQuote : Option Char) : Prop :=
  ∀ quote ∈ openQuote, isQuote quote = true

@[simp] theorem openBehind_nil (openQuote : Option Char) : openBehind openQuote [] = openQuote :=
  rfl

@[simp] theorem openBehind_cons (openQuote : Option Char) (c : Char) (rest : Text) :
    openBehind openQuote (c :: rest) = openBehind (quoteBehind openQuote c) rest :=
  rfl

@[simp] theorem openBehind_append (openQuote : Option Char) (text rest : Text) :
    openBehind openQuote (text ++ rest) = openBehind (openBehind openQuote text) rest :=
  List.foldl_append

theorem isQuoteState_none : IsQuoteState none :=
  fun _ h ↦ absurd h (Option.not_mem_none _)

theorem IsQuoteState.quoteBehind (h : IsQuoteState openQuote) (c : Char) :
    IsQuoteState (quoteBehind openQuote c) := by
  intro quote hquote
  cases openQuote with
  | none =>
    by_cases hc : isQuote c = true
    · rw [AttributeList.quoteBehind, if_pos hc] at hquote
      cases hquote
      exact hc
    · rw [AttributeList.quoteBehind, if_neg hc] at hquote
      cases hquote
  | some opened =>
    by_cases hc : c = opened
    · rw [AttributeList.quoteBehind, if_pos hc] at hquote
      cases hquote
    · rw [AttributeList.quoteBehind, if_neg hc] at hquote
      cases hquote
      exact h quote rfl

theorem IsQuoteState.openBehind (h : IsQuoteState openQuote) (text : Text) :
    IsQuoteState (openBehind openQuote text) := by
  induction text generalizing openQuote with
  | nil => exact h
  | cons c rest ih => exact ih (h.quoteBehind c)

/-- Characters that are no quotes change nothing about which quote is open. -/
theorem openBehind_of_no_quotes (h : IsQuoteState openQuote)
    (hplain : ∀ c ∈ text, isQuote c = false) : openBehind openQuote text = openQuote := by
  induction text with
  | nil => rfl
  | cons c rest ih =>
    obtain ⟨hc, hrest⟩ := List.forall_mem_cons.mp hplain
    have hsame : quoteBehind openQuote c = openQuote := by
      cases openQuote with
      | none => simp [quoteBehind, hc]
      | some quote =>
        refine if_neg ?_
        rintro rfl
        rw [h c rfl] at hc
        cases hc
    rw [openBehind_cons, hsame, ih hrest]

theorem isQuote_of_isBlank (h : isBlank c = true) : isQuote c = false := by
  by_contra hquote
  simp only [isQuote, Bool.or_eq_true, beq_iff_eq, Bool.not_eq_false] at hquote
  rcases hquote with rfl | rfl <;> exact absurd h (by decide)

end Quotes

/-! ### Parts -/

section Parts

/-- No comma of a text stands outside quotes, given the quote that is open before the text. -/
def Unbroken (openQuote : Option Char) (text : Text) : Prop :=
  ∀ before behind, text = before ++ ',' :: behind → openBehind openQuote before ≠ none

/-- Texts are the parts of a list: no comma stands outside quotes in any of them, and none but the
last leaves a quote open. A quote may be open before the first of them. -/
inductive IsCut : Option Char → List Text → Prop
  | last {openQuote : Option Char} {part : Text} (unbroken : Unbroken openQuote part) :
      IsCut openQuote [part]
  | more {openQuote : Option Char} {part : Text} {behind : List Text}
      (unbroken : Unbroken openQuote part) (closed : openBehind openQuote part = none)
      (others : IsCut none behind) : IsCut openQuote (part :: behind)

theorem unbroken_of_no_commas (h : ',' ∉ text) (openQuote : Option Char) :
    Unbroken openQuote text := by
  rintro before behind rfl
  exact absurd (List.mem_append_right before List.mem_cons_self) h

theorem unbroken_cons_iff : Unbroken openQuote (c :: rest) ↔
    ¬ (openQuote = none ∧ c = ',') ∧ Unbroken (quoteBehind openQuote c) rest := by
  constructor
  · intro h
    refine ⟨?_, fun before behind hrest ↦ h (c :: before) behind (congrArg (c :: ·) hrest)⟩
    rintro ⟨hclosed, rfl⟩
    exact h [] rest rfl hclosed
  · rintro ⟨hfirst, hrest⟩ before behind htext
    cases before with
    | nil =>
      rintro hclosed
      exact hfirst ⟨hclosed, (List.cons.inj htext).1⟩
    | cons first others =>
      obtain ⟨rfl, hothers⟩ := List.cons.inj htext
      exact hrest others behind hothers

theorem unbroken_append_iff : Unbroken openQuote (text ++ rest) ↔
    Unbroken openQuote text ∧ Unbroken (openBehind openQuote text) rest := by
  induction text generalizing openQuote with
  | nil => simp [unbroken_of_no_commas]
  | cons c more ih => rw [List.cons_append, unbroken_cons_iff, unbroken_cons_iff, ih, and_assoc,
      openBehind_cons]

theorem cutEntries_cons (openQuote : Option Char) (c : Char) (rest : Text) :
    cutEntries openQuote (c :: rest) =
      if openQuote = none ∧ c = ',' then [] :: cutEntries none rest
      else match cutEntries (quoteBehind openQuote c) rest with
        | [] => [[c]]
        | part :: others => (c :: part) :: others :=
  rfl

/-- A text in which no comma stands outside quotes stays whole. -/
theorem cutEntries_of_unbroken (h : Unbroken openQuote text) :
    cutEntries openQuote text = [text] := by
  induction text generalizing openQuote with
  | nil => rfl
  | cons c rest ih =>
    obtain ⟨hfirst, hrest⟩ := unbroken_cons_iff.mp h
    rw [cutEntries_cons, if_neg hfirst, ih hrest]

/-- A list is cut at the first comma outside quotes. -/
theorem cutEntries_append_comma (h : Unbroken openQuote part)
    (hclosed : openBehind openQuote part = none) (rest : Text) :
    cutEntries openQuote (part ++ ',' :: rest) = part :: cutEntries none rest := by
  induction part generalizing openQuote with
  | nil => exact if_pos ⟨hclosed, rfl⟩
  | cons c more ih =>
    obtain ⟨hfirst, hmore⟩ := unbroken_cons_iff.mp h
    rw [List.cons_append, cutEntries_cons, if_neg hfirst, ih hmore hclosed]

/-- What a list is cut into are the parts of a list. -/
theorem isCut_cutEntries (openQuote : Option Char) (text : Text) :
    IsCut openQuote (cutEntries openQuote text) := by
  induction text generalizing openQuote with
  | nil => exact .last (unbroken_of_no_commas List.not_mem_nil openQuote)
  | cons c rest ih =>
    rw [cutEntries_cons]
    split
    · next hcomma =>
      exact .more (unbroken_of_no_commas List.not_mem_nil openQuote) hcomma.1 (ih none)
    · next hfirst =>
      have hrest := ih (quoteBehind openQuote c)
      cases hrest' : cutEntries (quoteBehind openQuote c) rest with
      | nil =>
        rw [hrest'] at hrest
        cases hrest
      | cons part others =>
        rw [hrest'] at hrest
        cases hrest with
        | last hpart => exact .last (unbroken_cons_iff.mpr ⟨hfirst, hpart⟩)
        | more hpart hclosed hothers =>
          exact .more (unbroken_cons_iff.mpr ⟨hfirst, hpart⟩) hclosed hothers

theorem IsCut.ne_nil (h : IsCut openQuote parts) : parts ≠ [] := by
  cases h <;> exact List.cons_ne_nil _ _

/-- Parts of a list that are joined by commas are what the result is cut into. -/
theorem cutEntries_joinWith (h : IsCut openQuote parts) :
    cutEntries openQuote (joinWith [','] parts) = parts := by
  induction h with
  | last hpart => exact cutEntries_of_unbroken hpart
  | more hpart hclosed hothers ih =>
    rw [joinWith_cons _ _ hothers.ne_nil, List.append_assoc, List.singleton_append,
      cutEntries_append_comma hpart hclosed, ih]

/-- Parts of a list are told by what each of them holds. -/
theorem isCut_iff : IsCut none parts ↔ parts ≠ [] ∧ (∀ part ∈ parts, Unbroken none part) ∧
    ∀ part ∈ parts.dropLast, openBehind none part = none := by
  induction parts with
  | nil =>
    constructor
    · rintro ⟨⟩
    · exact fun h ↦ absurd rfl h.1
  | cons part others ih =>
    cases others with
    | nil =>
      constructor
      · rintro (hpart | ⟨-, -, ⟨⟩⟩)
        simpa using hpart
      · exact fun h ↦ .last (h.2.1 part List.mem_cons_self)
    | cons next more =>
      rw [List.dropLast_cons_of_ne_nil (List.cons_ne_nil next more), List.forall_mem_cons,
        List.forall_mem_cons (a := part)]
      constructor
      · rintro (_ | ⟨hpart, hclosed, hothers⟩)
        obtain ⟨-, hunbroken, hothersClosed⟩ := ih.mp hothers
        exact ⟨List.cons_ne_nil _ _, ⟨hpart, hunbroken⟩, hclosed, hothersClosed⟩
      · rintro ⟨-, ⟨hpart, hunbroken⟩, hclosed, hothersClosed⟩
        exact .more hpart hclosed (ih.mpr ⟨List.cons_ne_nil _ _, hunbroken, hothersClosed⟩)

end Parts

/-! ### Trimmed parts -/

section Trimmed

theorem openBehind_of_allBlank (h : IsQuoteState openQuote) (hblank : allBlank text) :
    openBehind openQuote text = openQuote :=
  openBehind_of_no_quotes h fun c hc ↦ isQuote_of_isBlank (List.all_eq_true.mp hblank c hc)

/-- Trimming changes nothing about which quote is open behind a text. -/
theorem openBehind_trim (text : Text) : openBehind none (trim text) = openBehind none text := by
  obtain ⟨start, stop, hstart, hstop, htext⟩ := exists_trim text
  have hstate : IsQuoteState (openBehind none (trim text)) := isQuoteState_none.openBehind _
  conv =>
    rhs
    rw [htext, openBehind_append, openBehind_append,
      openBehind_of_allBlank isQuoteState_none hstart, openBehind_of_allBlank hstate hstop]

theorem unbroken_trim (h : Unbroken none text) : Unbroken none (trim text) := by
  obtain ⟨start, stop, hstart, -, htext⟩ := exists_trim text
  rw [htext, unbroken_append_iff, unbroken_append_iff,
    openBehind_of_allBlank isQuoteState_none hstart] at h
  exact h.1.2

/-- Parts of a list that are trimmed are parts of a list. -/
theorem IsCut.map_trim (h : IsCut none parts) : IsCut none (parts.map trim) := by
  obtain ⟨hsome, hunbroken, hclosed⟩ := isCut_iff.mp h
  refine isCut_iff.mpr ⟨by simpa using hsome, ?_, ?_⟩
  · exact List.forall_mem_map.mpr fun part hpart ↦ unbroken_trim (hunbroken part hpart)
  · rw [← List.map_dropLast]
    exact List.forall_mem_map.mpr fun part hpart ↦ (openBehind_trim part).trans (hclosed part hpart)

theorem map_trim_eq_self (h : ∀ part ∈ parts, trim part = part) : parts.map trim = parts :=
  (List.map_congr_left h).trans (List.map_id parts)

/-- The entries of a list are its trimmed parts, unless these are a single empty text. -/
theorem splitEntries_eq (text : Text) : splitEntries text =
    if (cutEntries none text).map trim = [[]] then [] else (cutEntries none text).map trim := by
  unfold splitEntries
  split
  · next hempty => rw [if_pos hempty]
  · next hsome => rw [if_neg hsome]

/-- Trimmed parts of a list are the entries of the list that they make. -/
theorem splitEntries_of_isCut (h : IsCut none parts) (htrim : ∀ part ∈ parts, trim part = part)
    (hsome : parts ≠ [[]]) : splitEntries (joinWith [','] parts) = parts := by
  rw [splitEntries_eq, cutEntries_joinWith h, map_trim_eq_self htrim, if_neg hsome]

/-- A list has no entries, or else they are trimmed parts of a list and not a single empty text. -/
theorem isCut_splitEntries (text : Text) : splitEntries text = [] ∨
    IsCut none (splitEntries text) ∧ (∀ entry ∈ splitEntries text, trim entry = entry) ∧
      splitEntries text ≠ [[]] := by
  rw [splitEntries_eq]
  split
  · exact .inl rfl
  · next hsome =>
    exact .inr ⟨(isCut_cutEntries none text).map_trim,
      List.forall_mem_map.mpr fun part _ ↦ stripped_iff.mp (stripped_trim part), hsome⟩

end Trimmed

/-- Splitting what entries of a list make when they are joined gives the entries back. So it is with
all entries, but for a single empty one, that are trimmed, in which no comma stands outside quotes,
and of which none but the last leaves a quote open; and with no others. -/
theorem splitEntries_joinWith :
    (∀ text, splitEntries (joinWith [','] (splitEntries text)) = splitEntries text) ∧
    ∀ entries, splitEntries (joinWith [','] entries) = entries ↔
      entries ≠ [[]] ∧ (∀ entry ∈ entries, trim entry = entry ∧ Unbroken none entry) ∧
        ∀ entry ∈ entries.dropLast, openBehind none entry = none := by
  refine ⟨fun text ↦ ?_, fun entries ↦ ⟨fun h ↦ ?_, ?_⟩⟩
  · rcases isCut_splitEntries text with hnone | ⟨hcut, htrim, hsome⟩
    · rw [hnone]
      rfl
    · exact splitEntries_of_isCut hcut htrim hsome
  · rcases isCut_splitEntries (joinWith [','] entries) with hnone | ⟨hcut, htrim, hsome⟩
    · rw [← h, hnone]
      simp
    · rw [h] at hcut htrim hsome
      obtain ⟨-, hunbroken, hclosed⟩ := isCut_iff.mp hcut
      exact ⟨hsome, fun entry hentry ↦ ⟨htrim entry hentry, hunbroken entry hentry⟩, hclosed⟩
  · rintro ⟨hsome, hentries, hclosed⟩
    by_cases hnone : entries = []
    · rw [hnone]
      rfl
    · exact splitEntries_of_isCut
        (isCut_iff.mpr ⟨hnone, fun entry hentry ↦ (hentries entry hentry).2, hclosed⟩)
        (fun entry hentry ↦ (hentries entry hentry).1) hsome

/-- Commas and quotes of the other kind stand inside quotes; the last entry leaves a quote open. -/
example : splitEntries "a=\"x,'y\" , ,'b, c".toList =
    ["a=\"x,'y\"".toList, [], "'b, c".toList] := by
  decide

end AsciidocSpans.AttributeList
