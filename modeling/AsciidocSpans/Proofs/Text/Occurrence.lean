import AsciidocSpans.Text.Blank
import AsciidocSpans.Text.Search
import Mathlib.Data.List.TakeWhile

/-!
Where one text occurs inside another. Trimming leaves a part of a text that stands in it
(`isInfix_trim`), and what stands in a text has a column there (`exists_column_of_infix`). A search
that reports a column (`column?_eq_some_iff`) leaves room for the text up to the end of the line
(`column?_add_length_le`). A text that occurs somewhere behind the start of a search is found, no
later than there (`exists_column?_le`).
-/

set_option autoImplicit false
set_option relaxedAutoImplicit false

namespace AsciidocSpans.Text

variable {needle text : Text} {start : Int} {column : Nat}

/-- A text occurs at the index that a search reports, and ends within the text searched. -/
theorem occurs_of_find? (h : find? needle text = some column) :
    needle <+: text.drop column ∧ column + needle.length ≤ text.length := by
  induction text generalizing column with
  | nil =>
    rw [find?] at h
    split at h
    · next hempty =>
      cases h
      rw [List.isEmpty_iff.mp hempty]
      exact ⟨List.nil_prefix, Nat.le_refl _⟩
    · cases h
  | cons c rest ih =>
    rw [find?] at h
    split at h
    · next hprefix =>
      cases h
      have hoccurs := List.isPrefixOf_iff_prefix.mp hprefix
      exact ⟨hoccurs, by rw [Nat.zero_add]; exact hoccurs.length_le⟩
    · obtain ⟨inner, hinner, rfl⟩ := Option.map_eq_some_iff.mp h
      obtain ⟨hoccurs, hfits⟩ := ih hinner
      exact ⟨hoccurs, by rw [List.length_cons]; omega⟩

/-- A text that occurs at an index is found there or before. -/
theorem exists_find?_le {index : Nat} (h : needle <+: text.drop index) :
    ∃ found, find? needle text = some found ∧ found ≤ index := by
  induction text generalizing index with
  | nil =>
    rw [List.drop_nil, List.prefix_nil] at h
    subst h
    exact ⟨0, rfl, Nat.zero_le _⟩
  | cons c rest ih =>
    rw [find?]
    split
    · exact ⟨0, rfl, Nat.zero_le _⟩
    · next hprefix =>
      cases index with
      | zero => exact absurd (List.isPrefixOf_iff_prefix.mpr h) hprefix
      | succ inner =>
        obtain ⟨found, hfound, hle⟩ := ih h
        exact ⟨found + 1, by rw [hfound]; rfl, Nat.succ_le_succ hle⟩

/-- A search from a start succeeds where a search behind that start does. -/
theorem column?_eq_some_iff : column? needle text start = some column ↔
    text.startIndex start ≤ text.length ∧ ∃ found,
      find? needle (text.drop (text.startIndex start)) = some found ∧
        found + text.startIndex start = column := by
  rw [column?, findFrom?]
  split
  · next hbeyond =>
    simp only [reduceCtorEq, false_iff]
    exact fun h ↦ Nat.not_le.mpr hbeyond h.1
  · next hwithin =>
    rw [Option.map_eq_some_iff]
    exact ⟨fun h ↦ ⟨Nat.le_of_not_lt hwithin, h⟩, fun h ↦ h.2⟩

/-- A text that a search reports ends within the line. -/
theorem column?_add_length_le (h : column? needle text start = some column) :
    column + needle.length ≤ text.length := by
  obtain ⟨hstart, found, hfound, rfl⟩ := column?_eq_some_iff.mp h
  have hfits := (occurs_of_find? hfound).2
  rw [List.length_drop] at hfits
  omega

/-- A text that occurs at a column is found from any start up to there, no later than there. -/
theorem exists_column?_le {first index : Nat} (hfirst : first ≤ index)
    (hindex : index ≤ text.length) (h : needle <+: text.drop index) :
    ∃ found : Nat, column? needle text first = some found ∧ first ≤ found ∧ found ≤ index := by
  have hstart : text.startIndex (first : Int) = first := by
    rw [startIndex, if_pos (Int.natCast_nonneg first), Int.toNat_natCast]
  have hdrop : needle <+: (text.drop first).drop (index - first) := by
    rwa [List.drop_drop, Nat.add_sub_cancel' hfirst]
  obtain ⟨found, hfound, hle⟩ := exists_find?_le hdrop
  refine ⟨found + first, ?_, Nat.le_add_left _ _, by omega⟩
  rw [column?_eq_some_iff, hstart]
  exact ⟨Nat.le_trans hfirst hindex, found, hfound, rfl⟩

/-- A text that stands inside another one has a column there. -/
theorem exists_column_of_infix (h : needle <:+: text) :
    ∃ column, column ≤ text.length ∧ needle <+: text.drop column := by
  obtain ⟨before, behind, rfl⟩ := h
  refine ⟨before.length, ?_, ?_⟩
  · rw [List.length_append, List.length_append]
    omega
  · rw [List.append_assoc, List.drop_left]
    exact List.prefix_append needle behind

section Trimming

theorem isPrefix_dropRightWhile (test : Char → Bool) (text : Text) :
    text.dropRightWhile test <+: text := by
  have hsuffix := List.dropWhile_suffix (l := text.reverse) test
  rw [dropRightWhile, ← List.reverse_suffix, List.reverse_reverse]
  exact hsuffix

/-- What is dropped at the end of a text are characters that satisfy the test. -/
theorem exists_dropped (test : Char → Bool) (text : Text) :
    ∃ dropped, text = text.dropRightWhile test ++ dropped ∧ ∀ c ∈ dropped, test c = true := by
  refine ⟨(text.reverse.takeWhile test).reverse, ?_, fun c hc ↦ ?_⟩
  · rw [dropRightWhile, ← List.reverse_append, List.takeWhile_append_dropWhile,
      List.reverse_reverse]
  · exact List.mem_takeWhile_imp (List.mem_reverse.mp hc)

/-- What is left of a text does not end with a character that satisfies the test. -/
theorem getLast?_dropRightWhile (test : Char → Bool) (text : Text) :
    ∀ c ∈ (text.dropRightWhile test).getLast?, test c = false := by
  intro c hc
  rw [dropRightWhile, List.getLast?_reverse] at hc
  have hfirst := List.head?_dropWhile_not test text.reverse
  rw [Option.mem_def.mp hc] at hfirst
  exact hfirst

theorem dropRightWhile_eq_self {test : Char → Bool} (h : ∀ c ∈ text.getLast?, test c = false) :
    text.dropRightWhile test = text := by
  obtain ⟨dropped, htext, hdropped⟩ := exists_dropped test text
  by_cases hnil : dropped = []
  · rw [hnil, List.append_nil] at htext
    exact htext.symm
  · have hlast : text.getLast? = some (dropped.getLast hnil) := by
      rw [htext, List.getLast?_append, List.getLast?_eq_some_getLast hnil]
      rfl
    have hkept := h _ hlast
    rw [hdropped _ (List.getLast_mem hnil)] at hkept
    cases hkept

theorem takeWhile_append_cons {test : Char → Bool} {start : Text} {c : Char}
    (hstart : ∀ d ∈ start, test d = true) (hc : test c = false) (rest : Text) :
    (start ++ c :: rest).takeWhile test = start := by
  rw [List.takeWhile_append_of_pos hstart, List.takeWhile_cons_of_neg (by simp [hc]),
    List.append_nil]

theorem dropWhile_append_cons {test : Char → Bool} {start : Text} {c : Char}
    (hstart : ∀ d ∈ start, test d = true) (hc : test c = false) (rest : Text) :
    (start ++ c :: rest).dropWhile test = c :: rest := by
  rw [List.dropWhile_append_of_pos hstart, List.dropWhile_cons_of_neg (by simp [hc])]

/-- A text that does not end with a character that satisfies the test stands in what is left of any
text in which it stands. -/
theorem isInfix_dropRightWhile {test : Char → Bool} (hlast : ∀ c ∈ needle.getLast?, test c = false)
    (h : needle <:+: text) : needle <:+: text.dropRightWhile test := by
  by_cases hnil : needle = []
  · rw [hnil]
    exact List.nil_infix
  obtain ⟨before, behind, htext⟩ := h
  obtain ⟨dropped, hkept, hdropped⟩ := exists_dropped test text
  have hleft : before ++ needle <+: text := ⟨behind, htext⟩
  have hright : text.dropRightWhile test <+: text := isPrefix_dropRightWhile test text
  rcases List.prefix_or_prefix_of_prefix hleft hright with hshorter | ⟨further, hlonger⟩
  · exact (List.suffix_append before needle).isInfix.trans hshorter.isInfix
  · cases hfurther : further.getLast? with
    | none =>
      rw [List.getLast?_eq_none_iff.mp hfurther, List.append_nil] at hlonger
      rw [hlonger]
      exact (List.suffix_append before needle).isInfix
    | some c =>
      -- The last character of the text would be one of those that are dropped.
      have hend : needle.getLast? = some c := by
        have hboth := congrArg List.getLast? hlonger
        simp only [List.getLast?_append, hfurther, List.getLast?_eq_some_getLast hnil,
          Option.some_or] at hboth ⊢
        exact hboth.symm
      have hmem : c ∈ dropped := by
        have hwithin : further <+: dropped := by
          refine (List.prefix_append_right_inj (text.dropRightWhile test)).mp ?_
          rw [hlonger, ← hkept]
          exact hleft
        exact hwithin.subset (List.mem_of_getLast? hfurther)
      have htest := hlast c hend
      rw [hdropped c hmem] at htest
      cases htest

/-- A character that does not satisfy the test stays in front of what is left. -/
theorem dropRightWhile_cons_of_neg {test : Char → Bool} {c : Char} (h : test c = false)
    (text : Text) : dropRightWhile test (c :: text) = c :: text.dropRightWhile test := by
  rw [dropRightWhile, dropRightWhile, List.reverse_cons, List.dropWhile_append]
  split
  · next hempty =>
    rw [List.isEmpty_iff.mp hempty,
      List.dropWhile_cons_of_neg (by rw [h]; exact Bool.false_ne_true)]
    rfl
  · rw [List.reverse_append]
    rfl

/-- Trimming takes away what was dropped before it, if that was white space. -/
theorem trimRight_dropRightWhile {test : Char → Bool} (h : ∀ c, test c → isBlank c) (text : Text) :
    trimRight (text.dropRightWhile test) = trimRight text := by
  obtain ⟨dropped, htext, hdropped⟩ := exists_dropped test text
  have hblank : ∀ c ∈ dropped.reverse, isBlank c :=
    fun c hc ↦ h c (hdropped c (List.mem_reverse.mp hc))
  conv =>
    rhs
    rw [htext, trimRight, dropRightWhile, List.reverse_append, List.dropWhile_append_of_pos hblank]
  rfl

theorem isPrefix_trimRight (text : Text) : trimRight text <+: text :=
  isPrefix_dropRightWhile isBlank text

theorem isSuffix_trimLeft (text : Text) : trimLeft text <:+ text :=
  List.dropWhile_suffix isBlank

/-- A trimmed text stands in the text. -/
theorem isInfix_trim (text : Text) : trim text <:+: text :=
  (isPrefix_trimRight (trimLeft text)).isInfix.trans (isSuffix_trimLeft text).isInfix

end Trimming

end AsciidocSpans.Text
