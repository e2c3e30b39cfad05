import AsciidocSpans.AttributeList

/-!
Looking names up in attributes. Assigning a name changes what is found under it and nothing else
(`get?_insert`). Attributes in which no name stands twice are `Distinct`; an attribute list is
(`distinct_parse`), and assigning all of its attributes gives its values precedence
(`get?_update`). New names are added at the end, in the order of their assignment
(`update_of_nodup`).
-/

set_option autoImplicit false
set_option relaxedAutoImplicit false

namespace AsciidocSpans

namespace Attributes

theorem lookup_insertPair (name value other : Text) (pairs : List (Text × Text)) :
    (insertPair name value pairs).lookup other =
      if other = name then some value else pairs.lookup other := by
  induction pairs with
  | nil =>
    rw [insertPair, List.lookup_cons]
    by_cases h : other = name
    · rw [if_pos h, beq_iff_eq.mpr h]
    · rw [if_neg h, beq_eq_false_iff_ne.mpr h]
  | cons pair rest ih =>
    obtain ⟨first, old⟩ := pair
    rw [insertPair]
    by_cases hfirst : first = name
    · rw [if_pos hfirst, List.lookup_cons, List.lookup_cons, hfirst]
      by_cases h : other = name
      · rw [if_pos h, beq_iff_eq.mpr h]
      · rw [if_neg h, beq_eq_false_iff_ne.mpr h]
    · rw [if_neg hfirst, List.lookup_cons, List.lookup_cons, ih]
      by_cases h : other = first
      · have hname : other ≠ name := fun heq ↦ hfirst (h.symm.trans heq)
        rw [beq_iff_eq.mpr h]
        exact (if_neg hname).symm
      · rw [beq_eq_false_iff_ne.mpr h]

/-- Assigning a name changes what is found under it and nothing else. -/
theorem get?_insert (attributes : Attributes) (name value other : Text) :
    (attributes.insert name value).get? other =
      if other = name then some value else attributes.get? other :=
  lookup_insertPair name value other attributes.toList

/-- Removing a name leaves what is found under the others. -/
theorem get?_erase_of_ne (attributes : Attributes) {name other : Text} (h : other ≠ name) :
    (attributes.erase name).get? other = attributes.get? other := by
  obtain ⟨pairs⟩ := attributes
  change (pairs.filter (·.1 != name)).lookup other = pairs.lookup other
  induction pairs with
  | nil => rfl
  | cons pair rest ih =>
    obtain ⟨first, value⟩ := pair
    rw [List.filter_cons]
    by_cases hfirst : first = name
    · have hother : (other == first) = false := by
        rw [hfirst]
        exact beq_eq_false_iff_ne.mpr h
      rw [if_neg (by simp [hfirst]), ih, List.lookup_cons, hother]
    · rw [if_pos (by simp [hfirst]), List.lookup_cons, List.lookup_cons, ih]

/-- No name stands twice. -/
def Distinct (attributes : Attributes) : Prop :=
  (attributes.toList.map (·.1)).Nodup

theorem distinct_empty : Distinct ∅ :=
  List.nodup_nil

theorem mem_names_insertPair {name value other : Text} {pairs : List (Text × Text)}
    (h : other ∈ (insertPair name value pairs).map (·.1)) :
    other = name ∨ other ∈ pairs.map (·.1) := by
  induction pairs with
  | nil => exact Or.inl (List.mem_singleton.mp h)
  | cons pair rest ih =>
    obtain ⟨first, old⟩ := pair
    rw [insertPair] at h
    split at h
    · next hfirst =>
      rcases List.mem_cons.mp h with heq | hrest
      · exact Or.inl heq
      · exact Or.inr (List.mem_cons_of_mem _ hrest)
    · rcases List.mem_cons.mp h with heq | hrest
      · exact Or.inr (List.mem_cons.mpr (Or.inl heq))
      · exact (ih hrest).imp_right (List.mem_cons_of_mem _)

theorem nodup_insertPair {pairs : List (Text × Text)} (h : (pairs.map (·.1)).Nodup)
    (name value : Text) : ((insertPair name value pairs).map (·.1)).Nodup := by
  induction pairs with
  | nil => exact List.pairwise_singleton _ _
  | cons pair rest ih =>
    obtain ⟨first, old⟩ := pair
    rw [List.map_cons, List.nodup_cons] at h
    rw [insertPair]
    split
    · next hfirst =>
      rw [List.map_cons, List.nodup_cons, ← hfirst]
      exact h
    · next hfirst =>
      rw [List.map_cons, List.nodup_cons]
      refine ⟨fun hmem ↦ ?_, ih h.2⟩
      rcases mem_names_insertPair hmem with heq | hrest
      · exact hfirst heq
      · exact h.1 hrest

theorem Distinct.insert {attributes : Attributes} (h : attributes.Distinct) (name value : Text) :
    (attributes.insert name value).Distinct :=
  nodup_insertPair h name value

theorem Distinct.erase {attributes : Attributes} (h : attributes.Distinct) (name : Text) :
    (attributes.erase name).Distinct :=
  h.sublist (List.filter_sublist.map _)

/-- A name that is not there has no value. -/
theorem lookup_of_not_mem {name : Text} {pairs : List (Text × Text)}
    (h : name ∉ pairs.map (·.1)) : pairs.lookup name = none := by
  refine List.lookup_eq_none_iff.mpr fun pair hpair ↦ bne_iff_ne.mpr ?_
  rintro rfl
  exact h (List.mem_map_of_mem hpair)

/-- A name that is new is added at the end. -/
theorem insertPair_of_not_mem {name : Text} {pairs : List (Text × Text)}
    (h : name ∉ pairs.map (·.1)) (value : Text) :
    insertPair name value pairs = pairs ++ [(name, value)] := by
  induction pairs with
  | nil => rfl
  | cons pair rest ih =>
    obtain ⟨first, old⟩ := pair
    obtain ⟨hfirst, hrest⟩ := not_or.mp (mt List.mem_cons.mpr h)
    rw [insertPair, if_neg (Ne.symm hfirst), ih hrest]
    rfl

theorem insert_of_not_mem {name : Text} {pairs : List (Text × Text)}
    (h : name ∉ pairs.map (·.1)) (value : Text) :
    insert ⟨pairs⟩ name value = ⟨pairs ++ [(name, value)]⟩ :=
  congrArg Attributes.mk (insertPair_of_not_mem h value)

/-- Assigning a name the value that it has changes nothing. -/
theorem insertPair_of_lookup {name value : Text} {pairs : List (Text × Text)}
    (h : pairs.lookup name = some value) : insertPair name value pairs = pairs := by
  induction pairs with
  | nil => cases h
  | cons pair rest ih =>
    obtain ⟨first, old⟩ := pair
    rw [insertPair]
    rw [List.lookup_cons] at h
    by_cases hfirst : first = name
    · rw [hfirst, beq_self_eq_true] at h
      cases h
      rw [if_pos hfirst, hfirst]
    · rw [beq_eq_false_iff_ne.mpr (Ne.symm hfirst)] at h
      rw [if_neg hfirst, ih h]

/-- New names are added at the end, in their order. -/
theorem update_of_nodup {pairs others : List (Text × Text)}
    (h : ((pairs ++ others).map (·.1)).Nodup) : update ⟨pairs⟩ ⟨others⟩ = ⟨pairs ++ others⟩ := by
  induction others generalizing pairs with
  | nil => rw [List.append_nil]; rfl
  | cons pair rest ih =>
    have hsplit : pairs ++ pair :: rest = (pairs ++ [pair]) ++ rest := by simp
    have hnew : pair.1 ∉ pairs.map (·.1) := by
      rw [List.map_append, List.map_cons, List.nodup_append] at h
      exact fun hmem ↦ h.2.2 _ hmem _ List.mem_cons_self rfl
    rw [hsplit] at h ⊢
    rw [← ih h]
    exact congrArg (fun start : Attributes ↦ start.update ⟨rest⟩)
      (insert_of_not_mem hnew pair.2)

/-- Assigning all of some attributes gives their values precedence. -/
theorem get?_update (attributes : Attributes) {others : Attributes} (h : others.Distinct)
    (name : Text) :
    (attributes.update others).get? name = (others.get? name <|> attributes.get? name) := by
  obtain ⟨pairs⟩ := others
  change (pairs.foldl (fun result pair ↦ result.insert pair.1 pair.2) attributes).get? name =
    (pairs.lookup name <|> attributes.get? name)
  induction pairs generalizing attributes with
  | nil => rfl
  | cons pair rest ih =>
    obtain ⟨first, value⟩ := pair
    rw [Distinct, List.map_cons, List.nodup_cons] at h
    rw [List.foldl_cons, ih _ h.2, get?_insert, List.lookup_cons]
    by_cases hname : name = first
    · subst hname
      simp [lookup_of_not_mem h.1]
    · simp [hname, beq_eq_false_iff_ne.mpr hname]

end Attributes

namespace AttributeList

open Attributes

theorem distinct_addOptions {attributes : Attributes} (h : attributes.Distinct)
    (options : List Text) : (addOptions attributes options).Distinct := by
  rw [addOptions]
  refine Distinct.insert ?_ _ _
  generalize (options.map Text.trim).filter (!·.isEmpty) = named
  induction named generalizing attributes with
  | nil => exact h
  | cons option rest ih => exact ih (h.insert _ _)

theorem distinct_addFirstPositional {attributes : Attributes} (h : attributes.Distinct)
    (value : Text) : (addFirstPositional attributes value).Distinct := by
  unfold addFirstPositional
  extract_lets style items roles options start styled identified withRoles
  have hstyled : styled.Distinct := by
    unfold styled
    split
    · exact h.insert _ _
    · exact (h.insert _ _).insert _ _
  have hidentified : identified.Distinct := by
    unfold identified
    split
    · exact hstyled.insert _ _
    · exact hstyled
  have hroles : withRoles.Distinct := by
    unfold withRoles
    split
    · exact hidentified
    · exact hidentified.insert _ _
  split
  · exact hroles
  · exact distinct_addOptions hroles options

theorem distinct_addEntries {attributes : Attributes} (h : attributes.Distinct) (position : Nat)
    (entries : List Text) : (addEntries attributes position entries).Distinct := by
  induction entries generalizing attributes position with
  | nil => exact h
  | cons entry rest ih =>
    rw [addEntries]
    split
    · dsimp only
      split
      · exact ih (distinct_addOptions h _) position
      · exact ih (h.insert _ _) position
    · dsimp only
      split
      · exact ih (distinct_addFirstPositional h _) 1
      · exact ih (h.insert _ _) (position + 1)

/-- No name stands twice in an attribute list. -/
theorem distinct_parse (text : Text) : (parse text).Distinct :=
  distinct_addEntries distinct_empty 0 _

end AttributeList

end AsciidocSpans
