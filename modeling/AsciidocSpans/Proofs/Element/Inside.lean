import AsciidocSpans.Proofs.Element.Parts
import AsciidocSpans.Proofs.Element.Preorder

/-!
What is somewhere inside an element is met in it. `Element.Holds` goes from an element to its parts,
whether these are its blocks, attached to its items or in its cells, and `Element.preorder` lists
everything in it in the order of the document. `Holds.mem_preorder` says that the one is part of the
other, by way of the parts of an element (`mem_preorder_of_mem_parts`).
-/

set_option autoImplicit false
set_option relaxedAutoImplicit false

namespace AsciidocSpans.Element

variable {element part met : Element}

theorem mem_preorderOf_iff {elements : List Element} :
    met ∈ preorderOf elements ↔ ∃ element ∈ elements, met ∈ element.preorder := by
  induction elements with
  | nil => simp [preorderOf]
  | cons first rest ih => simp [preorderOf, ih]

theorem mem_preorderOfItem {item : ListItem} (h : met ∈ preorderOf item.blocks) :
    met ∈ preorderOfItem item := by
  obtain ⟨info, text, checkbox, blocks⟩ := item
  exact List.mem_cons_of_mem _ h

theorem mem_preorderOfItems {items : List ListItem} {item : ListItem} (hitem : item ∈ items)
    (h : met ∈ preorderOf item.blocks) : met ∈ preorderOfItems items := by
  induction items with
  | nil => cases hitem
  | cons first rest ih =>
    rw [preorderOfItems, List.mem_append]
    rcases List.mem_cons.mp hitem with rfl | hrest
    · exact .inl (mem_preorderOfItem h)
    · exact .inr (ih hrest)

theorem mem_preorderOfEntries {entries : List DescriptionEntry} {entry : DescriptionEntry}
    {item : ListItem} (hentry : entry ∈ entries)
    (hitem : item ∈ entry.terms ++ entry.description.toList) (h : met ∈ preorderOf item.blocks) :
    met ∈ preorderOfEntries entries := by
  induction entries with
  | nil => cases hentry
  | cons first rest ih =>
    rw [preorderOfEntries, List.mem_append]
    rcases List.mem_cons.mp hentry with rfl | hrest
    · obtain ⟨terms, description⟩ := entry
      left
      cases description with
      | none => exact mem_preorderOfItems (by simpa using hitem) h
      | some description =>
        rw [preorderOfEntry, List.mem_append]
        rcases List.mem_append.mp hitem with hterm | hdescription
        · exact .inl (mem_preorderOfItems hterm h)
        · exact .inr (mem_preorderOfItem (List.mem_singleton.mp hdescription ▸ h))
    · exact .inr (ih hrest)

theorem mem_preorderOfCell {cell : TableCell}
    (h : met ∈ preorderOf ((cell.inner.map (·.blocks)).getD [])) : met ∈ preorderOfCell cell := by
  obtain ⟨info, text, style, colspan, _ | ⟨_, head, blocks⟩⟩ := cell
  · cases h
  · exact List.mem_cons_of_mem _ (List.mem_append_right _ h)

theorem mem_preorderOfCells {cells : List TableCell} {cell : TableCell} (hcell : cell ∈ cells)
    (h : met ∈ preorderOf ((cell.inner.map (·.blocks)).getD [])) : met ∈ preorderOfCells cells := by
  induction cells with
  | nil => cases hcell
  | cons first rest ih =>
    rw [preorderOfCells, List.mem_append]
    rcases List.mem_cons.mp hcell with rfl | hrest
    · exact .inl (mem_preorderOfCell h)
    · exact .inr (ih hrest)

/-- What is met in a part of an element is met in the element. -/
theorem mem_preorder_of_mem_parts (hpart : part ∈ element.parts) (h : met ∈ part.preorder) :
    met ∈ element.preorder := by
  have hblocks : ∀ {blocks : List Element}, part ∈ blocks → met ∈ preorderOf blocks :=
    fun hmem ↦ mem_preorderOf_iff.mpr ⟨part, hmem, h⟩
  cases element with
  | document d =>
    obtain ⟨info, head, blocks⟩ := d
    exact List.mem_cons_of_mem _ (List.mem_append_right _ (hblocks hpart))
  | titledSection _ _ blocks => exact List.mem_cons_of_mem _ (hblocks hpart)
  | container _ _ blocks => exact List.mem_cons_of_mem _ (hblocks hpart)
  | admonition _ _ _ blocks => exact List.mem_cons_of_mem _ (hblocks hpart)
  | list _ _ _ items =>
    obtain ⟨item, hitem, hmem⟩ := List.mem_flatMap.mp hpart
    exact List.mem_cons_of_mem _ (mem_preorderOfItems hitem (hblocks hmem))
  | listItem item => exact mem_preorderOfItem (hblocks hpart)
  | descriptionList _ _ entries =>
    obtain ⟨entry, hentry, hmem⟩ := List.mem_flatMap.mp hpart
    obtain ⟨item, hitem, hmem⟩ := List.mem_flatMap.mp hmem
    exact List.mem_cons_of_mem _ (mem_preorderOfEntries hentry hitem (hblocks hmem))
  | table _ _ headRows bodyRows =>
    obtain ⟨cell, hcell, hmem⟩ := List.mem_flatMap.mp hpart
    have hmet := mem_preorderOfCells hcell (hblocks hmem)
    rw [List.flatten_append, preorderOfCells_append, ← preorderOfRows_eq,
      ← preorderOfRows_eq] at hmet
    exact List.mem_cons_of_mem _ hmet
  | tableCell cell => exact mem_preorderOfCell (hblocks hpart)
  | _ => cases hpart

/-- An element somewhere inside another one is met in it. -/
theorem Holds.mem_preorder (h : element.Holds met) : met ∈ element.preorder := by
  induction h with
  | self => exact Element.mem_preorder _
  | inside mem _ ih => exact mem_preorder_of_mem_parts mem ih

end AsciidocSpans.Element
