import AsciidocSpans.Proofs.Attributes.Lookup
import AsciidocSpans.Proofs.Text.Occurrence

/-!
The id in an attribute list. It may be given by name or as a shorthand of the first entry, with
quotes and white space around it; whatever it is, it holds nothing but characters of the list
(`subset_of_id`). What options and roles are recorded for a list does not matter, because none of
them is recorded under the name of the id.
-/

set_option autoImplicit false
set_option relaxedAutoImplicit false

namespace AsciidocSpans.AttributeList

open Text

variable {text value entry part : Text}

section Entries

theorem subset_trim (text : Text) : trim text ⊆ text :=
  (isInfix_trim text).subset

/-- The parts of a list hold nothing but characters of the list. -/
theorem subset_of_mem_cutEntries {openQuote : Option Char}
    (h : part ∈ cutEntries openQuote text) : part ⊆ text := by
  induction text generalizing part openQuote with
  | nil =>
    rw [List.mem_singleton.mp h]
    exact List.Subset.refl []
  | cons c rest ih =>
    rw [cutEntries.eq_def] at h
    dsimp only at h
    split at h
    · rcases List.mem_cons.mp h with rfl | hrest
      · exact List.nil_subset _
      · exact List.Subset.trans (ih hrest) (List.subset_cons_self c rest)
    · split at h
      · rw [List.mem_singleton.mp h]
        exact List.cons_subset_cons c (List.nil_subset rest)
      · next first others hcut =>
        rcases List.mem_cons.mp h with rfl | hothers
        · exact List.cons_subset_cons c (ih (hcut ▸ List.mem_cons_self))
        · exact List.Subset.trans (ih (hcut ▸ List.mem_cons_of_mem first hothers))
            (List.subset_cons_self c rest)

theorem subset_of_mem_splitEntries (h : entry ∈ splitEntries text) : entry ⊆ text := by
  have hmem : entry ∈ (cutEntries none text).map trim := by
    rw [splitEntries] at h
    split at h
    · cases h
    · exact h
  obtain ⟨part, hpart, rfl⟩ := List.mem_map.mp hmem
  exact List.Subset.trans (subset_trim part) (subset_of_mem_cutEntries hpart)

theorem subset_unquote (value : Text) : unquote value ⊆ value := by
  refine List.Subset.trans ?_ (subset_trim value)
  rw [unquote]
  split
  · next first second rest heq =>
    rw [heq]
    split
    · exact List.Subset.trans (List.dropLast_subset _) (List.subset_cons_self _ _)
    · exact List.Subset.refl _
  · exact List.Subset.refl _

theorem subset_of_nameAndValue? {name : Text} (h : nameAndValue? entry = some (name, value)) :
    value ⊆ entry := by
  rw [nameAndValue?.eq_def] at h
  split at h
  · cases h
  · next first rest =>
    split at h
    · split at h
      · next behind heq =>
        cases h
        have hbehind : '=' :: value <:+ rest := by
          rw [← heq]
          exact (isSuffix_trimLeft _).trans (List.dropWhile_suffix _)
        have hrest : value ⊆ rest :=
          List.Subset.trans (List.subset_cons_self '=' value) hbehind.subset
        exact List.Subset.trans hrest (List.subset_cons_self first rest)
      · cases h
    · cases h

theorem subset_of_mem_shorthands {marker : Char} (h : (marker, part) ∈ shorthands text) :
    part ⊆ text := by
  induction text with
  | nil => cases h
  | cons c rest ih =>
    rw [shorthands] at h
    split at h
    · rcases List.mem_cons.mp h with heq | hrest
      · cases heq
        exact List.Subset.trans (List.takeWhile_prefix _).subset (List.subset_cons_self marker rest)
      · exact List.Subset.trans (ih hrest) (List.subset_cons_self c rest)
    · exact List.Subset.trans (ih h) (List.subset_cons_self c rest)

end Entries

/-- The id among some attributes, if there is one, holds nothing but characters of a text. -/
def IdWithin (text : Text) (attributes : Attributes) : Prop :=
  ∀ id ∈ attributes.get? "id".toList, id ⊆ text

section Identifiers

variable {attributes : Attributes}

theorem IdWithin.insert (h : IdWithin text attributes) {name : Text}
    (hvalue : "id".toList = name → value ⊆ text) :
    IdWithin text (attributes.insert name value) := by
  intro id hid
  rw [Attributes.get?_insert] at hid
  split at hid
  · next hname =>
    cases hid
    exact hvalue hname
  · exact h id hid

theorem IdWithin.addOptions (h : IdWithin text attributes) (options : List Text) :
    IdWithin text (addOptions attributes options) := by
  rw [AttributeList.addOptions]
  refine IdWithin.insert ?_ fun hname ↦ absurd hname (by decide)
  generalize (options.map trim).filter (!·.isEmpty) = named
  induction named generalizing attributes with
  | nil => exact h
  | cons option rest ih => exact ih (h.insert fun _ ↦ List.nil_subset text)

theorem IdWithin.addFirstPositional (h : IdWithin text attributes) (hvalue : value ⊆ text) :
    IdWithin text (addFirstPositional attributes value) := by
  unfold AttributeList.addFirstPositional
  extract_lets style items roles options start styled identified withRoles
  have hstyled : IdWithin text styled := by
    have hstart : IdWithin text start := h.insert fun _ ↦ hvalue
    unfold styled
    split
    · exact hstart
    · exact hstart.insert fun hname ↦ absurd hname (by decide)
  have hidentified : IdWithin text identified := by
    unfold identified
    split
    · next id hid =>
      refine hstyled.insert fun _ ↦ ?_
      obtain ⟨⟨marker, name⟩, hmem, hname⟩ :=
        List.mem_filterMap.mp (List.mem_of_getLast? hid)
      split at hname
      · cases hname
        have hvalued : name ⊆ value :=
          List.Subset.trans (subset_of_mem_shorthands hmem) (List.dropWhile_suffix _).subset
        exact List.Subset.trans hvalued hvalue
      · cases hname
    · exact hstyled
  have hroles : IdWithin text withRoles := by
    unfold withRoles
    split
    · exact hidentified
    · exact hidentified.insert fun hname ↦ absurd hname (by decide)
  split
  · exact hroles
  · exact hroles.addOptions options

theorem IdWithin.addEntries (h : IdWithin text attributes) (position : Nat) {entries : List Text}
    (hentries : ∀ entry ∈ entries, entry ⊆ text) :
    IdWithin text (addEntries attributes position entries) := by
  induction entries generalizing attributes position with
  | nil => exact h
  | cons entry rest ih =>
    obtain ⟨hentry, hrest⟩ := List.forall_mem_cons.mp hentries
    rw [AttributeList.addEntries]
    split
    · next name raw hraw =>
      have hwithin : unquote raw ⊆ entry :=
        List.Subset.trans (subset_unquote raw) (subset_of_nameAndValue? hraw)
      have hvalue : unquote raw ⊆ text := List.Subset.trans hwithin hentry
      dsimp only
      split
      · exact ih (h.addOptions _) position hrest
      · exact ih (h.insert fun _ ↦ hvalue) position hrest
    · have hvalue : unquote entry ⊆ text := List.Subset.trans (subset_unquote entry) hentry
      dsimp only
      split
      · exact ih (h.addFirstPositional hvalue) 1 hrest
      · exact ih (h.insert fun _ ↦ hvalue) (position + 1) hrest

/-- The id that an attribute list gives holds nothing but characters of the list. -/
theorem subset_of_id {id : Text} (h : (parse text).get? "id".toList = some id) : id ⊆ text :=
  have hnone : IdWithin text ∅ := by
    intro id hid
    cases hid
  hnone.addEntries 0 (fun _ hentry ↦ subset_of_mem_splitEntries hentry) id h

end Identifiers

end AsciidocSpans.AttributeList
