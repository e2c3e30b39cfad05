import AsciidocSpans.Proofs.Text.Lines
import AsciidocSpans.Proofs.Text.Occurrence
import AsciidocSpans.Text.Digit
import AsciidocSpans.Text.Word

/-!
Texts that trimming does not change, which are those without white space at either end (`Stripped`,
`stripped_iff`). A text that is not blank has a first and a last character once it is trimmed
(`exists_ends_of_trim`), and such lines that are joined make a text which trimming leaves as it is
(`trim_unlines`). Digits and word characters are no white space (`isBlank_of_isWord`).
-/

set_option autoImplicit false
set_option relaxedAutoImplicit false

namespace AsciidocSpans.Text

variable {text : Text} {parts : List Text}

/-- A text without white space at either end stays as it is. -/
theorem trim_eq_self (hfirst : ∀ c ∈ text.head?, isBlank c = false)
    (hlast : ∀ c ∈ text.getLast?, isBlank c = false) : trim text = text := by
  have hkeep : ∀ chars : Text, (∀ c ∈ chars.head?, isBlank c = false) →
      chars.dropWhile isBlank = chars := by
    intro chars h
    cases chars with
    | nil => rfl
    | cons c rest => exact List.dropWhile_cons_of_neg (by rw [h c rfl]; exact Bool.false_ne_true)
  rw [trim, trimLeft, hkeep text hfirst, trimRight, dropRightWhile, hkeep, List.reverse_reverse]
  rw [List.head?_reverse]
  exact hlast

/-- A text is what it starts with, trimmed of white space, between white space. -/
theorem exists_trim (text : Text) :
    ∃ before behind, allBlank before ∧ allBlank behind ∧ text = before ++ trim text ++ behind := by
  obtain ⟨dropped, hdropped, hblank⟩ := exists_dropped isBlank (trimLeft text)
  refine ⟨text.takeWhile isBlank, dropped, List.all_takeWhile, List.all_eq_true.mpr hblank, ?_⟩
  rw [List.append_assoc]
  change text = _ ++ (trimRight (trimLeft text) ++ dropped)
  rw [trimRight, ← hdropped, trimLeft, List.takeWhile_append_dropWhile]

theorem exists_trimLeft (text : Text) :
    ∃ before, allBlank before ∧ text = before ++ trimLeft text :=
  ⟨text.takeWhile isBlank, List.all_takeWhile, (List.takeWhile_append_dropWhile).symm⟩

theorem exists_trimRight (text : Text) :
    ∃ behind, allBlank behind ∧ text = trimRight text ++ behind := by
  obtain ⟨dropped, hdropped, hblank⟩ := exists_dropped isBlank text
  exact ⟨dropped, List.all_eq_true.mpr hblank, hdropped⟩

/-- A trimmed text that is not blank has a first and a last character, which are no white space. -/
theorem exists_ends_of_trim (h : allBlank text = false) :
    (∃ c, (trim text).head? = some c ∧ isBlank c = false) ∧
      ∃ c, (trim text).getLast? = some c ∧ isBlank c = false := by
  obtain ⟨c, rest, hleft, hc⟩ : ∃ c rest, trimLeft text = c :: rest ∧ isBlank c = false := by
    have hfirst := List.head?_dropWhile_not isBlank text
    rw [trimLeft]
    cases hleft : text.dropWhile isBlank with
    | nil =>
      rw [allBlank, List.all_eq_true.mpr (List.dropWhile_eq_nil_iff.mp hleft)] at h
      cases h
    | cons c rest =>
      rw [hleft] at hfirst
      exact ⟨c, rest, rfl, hfirst⟩
  obtain ⟨dropped, hdropped, hblank⟩ := exists_dropped isBlank (trimLeft text)
  change trimLeft text = trim text ++ dropped at hdropped
  rw [hleft] at hdropped
  have hlast := List.head?_dropWhile_not isBlank (trimLeft text).reverse
  have hreverse : (trim text).reverse = (trimLeft text).reverse.dropWhile isBlank :=
    List.reverse_reverse _
  rw [← hreverse, List.head?_reverse] at hlast
  cases htrim : trim text with
  | nil =>
    rw [htrim, List.nil_append] at hdropped
    rw [hblank c (hdropped ▸ List.mem_cons_self)] at hc
    cases hc
  | cons first others =>
    rw [htrim, List.cons_append] at hdropped
    obtain ⟨rfl, -⟩ := List.cons.inj hdropped
    refine ⟨⟨c, rfl, hc⟩, (c :: others).getLast (List.cons_ne_nil _ _),
      List.getLast?_eq_some_getLast _, ?_⟩
    rwa [htrim, List.getLast?_eq_some_getLast (List.cons_ne_nil c others)] at hlast

/-- Lines of which neither the first nor the last one is blank, trimmed and joined, stay as they are
when they are trimmed. -/
theorem trim_unlines {first last : Text} (hfirst : parts.head? = some first)
    (hlast : parts.getLast? = some last) (hfirstBlank : allBlank first = false)
    (hlastBlank : allBlank last = false) :
    trim (unlines (parts.map trim)) = unlines (parts.map trim) := by
  obtain ⟨c, hc, hcBlank⟩ := (exists_ends_of_trim hfirstBlank).1
  obtain ⟨d, hd, hdBlank⟩ := (exists_ends_of_trim hlastBlank).2
  refine trim_eq_self ?_ ?_
  · obtain ⟨rest, rfl⟩ : ∃ rest, parts = first :: rest := by
      cases parts with
      | nil => cases hfirst
      | cons part rest =>
        cases hfirst
        exact ⟨rest, rfl⟩
    obtain ⟨behind, hbehind⟩ := isPrefix_unlines_cons (trim first) (rest.map trim)
    rw [List.map_cons, ← hbehind, List.head?_append, hc]
    intro first hmem
    cases hmem
    exact hcBlank
  · have hlastTrimmed : (parts.map trim).getLast? = some (trim last) := by
      rw [List.getLast?_map, hlast]
      rfl
    obtain ⟨before, hbefore⟩ := isSuffix_unlines hlastTrimmed
    rw [← hbefore, List.getLast?_append, hd]
    intro last hmem
    cases hmem
    exact hdBlank

section Stripped

variable {part : Text}

/-- A text has no white space at either end. -/
structure Stripped (text : Text) : Prop where
  first : ∀ c ∈ text.head?, isBlank c = false
  last : ∀ c ∈ text.getLast?, isBlank c = false

theorem stripped_nil : Stripped [] := by
  constructor <;> simp

theorem Stripped.of_isPrefix (h : Stripped text) (hpart : part <+: text)
    (hlast : ∀ c ∈ part.getLast?, isBlank c = false) : Stripped part := by
  refine ⟨fun c hc ↦ h.first c ?_, hlast⟩
  obtain ⟨rest, rfl⟩ := hpart
  simp [List.head?_append, Option.mem_def.mp hc]

theorem Stripped.of_isSuffix (h : Stripped text) (hpart : part <:+ text)
    (hfirst : ∀ c ∈ part.head?, isBlank c = false) : Stripped part := by
  refine ⟨hfirst, fun c hc ↦ h.last c ?_⟩
  obtain ⟨rest, rfl⟩ := hpart
  simp [List.getLast?_append, Option.mem_def.mp hc]

/-- Text without the white space it starts with does not start with white space. -/
theorem isBlank_head?_trimLeft (text : Text) : ∀ c ∈ (trimLeft text).head?, isBlank c = false := by
  intro c hc
  have hfirst := List.head?_dropWhile_not isBlank text
  rw [trimLeft, Option.mem_def] at hc
  rw [hc] at hfirst
  exact hfirst

theorem isBlank_getLast?_trimRight (text : Text) :
    ∀ c ∈ (trimRight text).getLast?, isBlank c = false :=
  getLast?_dropRightWhile isBlank text

theorem stripped_trim (text : Text) : Stripped (trim text) := by
  refine ⟨fun c hc ↦ isBlank_head?_trimLeft text c ?_, isBlank_getLast?_trimRight (trimLeft text)⟩
  obtain ⟨rest, hrest⟩ := isPrefix_trimRight (trimLeft text)
  rw [← hrest, List.head?_append]
  simp [show (trimRight (trimLeft text)).head? = some c from hc]

/-- A text without white space at its ends is one that trimming does not change. -/
theorem stripped_iff : Stripped text ↔ trim text = text :=
  ⟨fun h ↦ trim_eq_self h.first h.last, fun h ↦ h ▸ stripped_trim text⟩

/-- White space at the end of a text makes no difference to what trimming its end leaves. -/
theorem trimRight_append_of_allBlank {behind : Text} (h : allBlank behind = true) (text : Text) :
    trimRight (text ++ behind) = trimRight text := by
  rw [trimRight, trimRight, dropRightWhile, dropRightWhile, List.reverse_append,
    List.dropWhile_append_of_pos fun c hc ↦ List.all_eq_true.mp h c (List.mem_reverse.mp hc)]

/-- Trimming takes the white space around a text away and nothing else. -/
theorem trim_between {before behind : Text} (hbefore : allBlank before = true)
    (hbehind : allBlank behind = true) (h : Stripped text) :
    trim (before ++ text ++ behind) = text := by
  have hleft : trimLeft (before ++ (text ++ behind)) = trimLeft (text ++ behind) :=
    List.dropWhile_append_of_pos (List.all_eq_true.mp hbefore)
  rw [trim, List.append_assoc, hleft]
  cases text with
  | nil =>
    have hnothing : trimLeft behind = [] :=
      List.dropWhile_eq_nil_iff.mpr (List.all_eq_true.mp hbehind)
    rw [List.nil_append, hnothing]
    rfl
  | cons c rest =>
    have hc : ¬ isBlank c = true := by
      rw [h.first c rfl]
      exact Bool.false_ne_true
    rw [trimLeft, List.cons_append, List.dropWhile_cons_of_neg hc, ← List.cons_append,
      trimRight_append_of_allBlank hbehind]
    exact dropRightWhile_eq_self h.last

end Stripped

section Characters

/-- A code point of one table is in no other table whose ranges lie apart from those of the
first. -/
theorem RangeTable.contains_of_apart {table other : RangeTable} {n : Nat}
    (hapart : ∀ range ∈ table, ∀ further ∈ other, range.2 < further.1 ∨ further.2 < range.1)
    (h : table.contains n = true) : other.contains n = false := by
  by_contra hother
  obtain ⟨range, hrange, hlow, hhigh⟩ := RangeTable.exists_of_contains h
  obtain ⟨further, hfurther, hfirst, hlast⟩ :=
    RangeTable.exists_of_contains (Bool.not_eq_false _ ▸ hother)
  have := hapart range hrange further hfurther
  omega

/-- No decimal digit is white space. -/
theorem isBlank_of_isDecimal {c : Char} (h : isDecimal c = true) : isBlank c = false :=
  RangeTable.contains_of_apart (by decide +kernel) h

/-- No word character is white space. -/
theorem isBlank_of_isWord {c : Char} (h : isWord c = true) : isBlank c = false := by
  by_cases hascii : c.toNat < 128
  · have hall : ∀ n < 128, isWord (Char.ofNat n) = true → isBlank (Char.ofNat n) = false := by
      decide +kernel
    rw [← Char.ofNat_toNat c] at h ⊢
    exact hall c.toNat hascii h
  · rw [isWord, if_neg hascii] at h
    exact RangeTable.contains_of_apart (by decide +kernel) h

end Characters

end AsciidocSpans.Text
