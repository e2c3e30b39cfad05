import AsciidocSpans.Proofs.Blocks.OpenLists

/-!
Where no section starts. A section title opens a section only in a document or a section: between
the delimiters of a block and behind a continuation line it is the first line of a paragraph, and no
other line opens one. So there is no section in anything that is read at another line or in another
place, however deep (`Sectionless`; `BlockMade.sectionless` and the theorems beside it, by induction
on what was read). The documents inside table cells are documents of their own and do not count.
-/

set_option autoImplicit false
set_option relaxedAutoImplicit false

namespace AsciidocSpans

namespace Element

/-- Neither an element nor anything in it, outside the tables in it, is a section. -/
def Sectionless (element : Element) : Prop :=
  ∀ block, element.HasBlock block → block.isSection = false

/-- There is no section among some elements or in them. -/
def AllSectionless (elements : List Element) : Prop :=
  ∀ element ∈ elements, element.Sectionless

section Sectionless

variable {element : Element} {elements others : List Element}

theorem Sectionless.isSection (h : element.Sectionless) : element.isSection = false :=
  h element (.self element)

theorem Sectionless.parts (h : element.Sectionless) (htable : element.isTable = false) :
    AllSectionless element.parts :=
  fun _ hpart block hblock ↦ h block (.inside htable hpart hblock)

/-- What is no section and has no section in its parts is without sections. -/
theorem sectionless_of_parts (h : element.isSection = false)
    (hparts : AllSectionless element.parts) : element.Sectionless := by
  intro block hblock
  cases hblock with
  | self => exact h
  | inside _ mem has => exact hparts _ mem block has

theorem allSectionless_nil : AllSectionless [] := nofun

theorem AllSectionless.cons (h : element.Sectionless) (hothers : AllSectionless others) :
    AllSectionless (element :: others) :=
  List.forall_mem_cons.mpr ⟨h, hothers⟩

theorem AllSectionless.append (h : AllSectionless elements) (hothers : AllSectionless others) :
    AllSectionless (elements ++ others) :=
  List.forall_mem_append.mpr ⟨h, hothers⟩

theorem sectionless_of_no_parts (h : element.isSection = false) (hparts : element.parts = []) :
    element.Sectionless :=
  sectionless_of_parts h (hparts ▸ allSectionless_nil)

/-- The sections inside the cells of a table are none of its own. -/
theorem sectionless_of_isTable (h : element.isTable) : element.Sectionless := by
  intro block hblock
  cases hblock with
  | self =>
    cases element with
    | table => rfl
    | _ => cases h
  | inside notTable => exact absurd h (Bool.eq_false_iff.mp notTable)

theorem isTable_attach (metadata : Blocks.Metadata) :
    (metadata.attach element).isTable = element.isTable := by
  cases element <;> rfl

theorem Sectionless.attach (h : element.Sectionless) (metadata : Blocks.Metadata) :
    (metadata.attach element).Sectionless := by
  by_cases htable : element.isTable
  · exact sectionless_of_isTable ((isTable_attach metadata).trans htable)
  · refine sectionless_of_parts ((Blocks.isSection_attach _ _).trans h.isSection) ?_
    rw [Blocks.Metadata.attach, parts_mapInfo]
    exact h.parts (Bool.eq_false_iff.mpr htable)

/-- The items of a list, each without sections in what is attached to it. -/
theorem allSectionless_flatMap {items : List ListItem}
    (h : ∀ item ∈ items, AllSectionless item.blocks) :
    AllSectionless (items.flatMap (·.blocks)) := by
  intro part hpart
  obtain ⟨item, hitem, hmem⟩ := List.mem_flatMap.mp hpart
  exact h item hitem part hmem

end Sectionless

end Element

namespace Blocks

open Element

variable {commentMarker : Text}

theorem sectionless_of_isLeaf {number : Int} {element : Element} (h : IsLeaf number element) :
    element.Sectionless := by
  cases h with
  | childless stands childless =>
    cases element with
    | admonition info style lines blocks =>
      cases blocks with
      | nil => exact sectionless_of_no_parts rfl rfl
      | cons => cases childless
    | paragraph | listing | image | tableOfContents | «unhandled» =>
      exact sectionless_of_no_parts rfl rfl
    | _ => cases childless
  | quoted =>
    exact sectionless_of_parts rfl (allSectionless_nil.cons (sectionless_of_no_parts rfl rfl))

theorem sectionless_makeDelimited {metadata : Metadata} {number : Int} {kind : DelimitedKind}
    {blocks : List Element} (h : AllSectionless blocks) :
    (makeDelimited metadata number kind blocks).Sectionless := by
  rcases makeDelimited_cases metadata number kind blocks with ⟨_, heq⟩ | ⟨_, -, heq⟩ | heq
  · rw [heq]
    exact sectionless_of_parts rfl h
  · rw [heq]
    exact sectionless_of_parts rfl h
  · rw [heq]
    exact sectionless_of_no_parts rfl rfl

theorem sectionless_makeList {number : Int} {kind : ListKind} {marker : Text}
    {items : List ListItem} (h : ∀ item ∈ items, AllSectionless item.blocks) :
    (makeList number kind marker items).Sectionless :=
  sectionless_of_parts rfl (allSectionless_flatMap h)

theorem sectionless_descriptionList {info : ElementInfo} {delimiter : Text}
    {entries : List DescriptionEntry} (h : AllSectionless (blocksOfEntries entries)) :
    (Element.descriptionList info delimiter entries).Sectionless :=
  sectionless_of_parts rfl h

mutual

/-- Between the delimiters of a block there is no section. -/
theorem BlocksMade.sectionless {terminator : Option Text} {level : Option Nat}
    {metadata : Metadata} {lines behind : List Line} {blocks : List Element}
    (h : BlocksMade commentMarker terminator level metadata lines blocks behind)
    (hplace : placeIn terminator ≠ .body) : AllSectionless blocks := by
  match h with
  | .ended => exact allSectionless_nil
  | .closed _ => exact allSectionless_nil
  | .left _ => exact allSectionless_nil
  | .passed _ others => exact others.sectionless hplace
  | .block _ first others =>
    exact (others.sectionless hplace).cons (first.sectionless (.inl hplace))
termination_by structural h

/-- In another place than a document or a section, and at a line that is no section title, there is
no section. -/
theorem BlockMade.sectionless {place : Place} {metadata : Metadata} {line : Line}
    {rest behind : List Line} {element : Element}
    (h : BlockMade commentMarker place metadata line rest element behind)
    (hnone : place ≠ .body ∨ ∀ marker title, line.shape ≠ .sectionTitle marker title) :
    element.Sectionless := by
  match h with
  | .leaf made => exact (sectionless_of_isLeaf made.isLeaf).attach metadata
  | .opened shape inBody _ _ =>
    rcases hnone with hother | hshape
    · exact absurd inBody hother
    · exact absurd shape (hshape _ _)
  | .delimited _ _ read =>
    exact (sectionless_makeDelimited (read.sectionless nofun)).attach metadata
  | .list _ read => exact (sectionless_makeList read.sectionless).attach metadata
  | .descriptionList _ read =>
    exact (sectionless_descriptionList read.sectionless).attach metadata
  | .table _ _ _ => exact (sectionless_of_isTable isTable_makeTable).attach _
termination_by structural h

theorem ItemsMade.sectionless {markers : List Text} {marker : Text} {lines behind : List Line}
    {items : List ListItem} (h : ItemsMade commentMarker markers marker lines items behind) :
    ∀ item ∈ items, AllSectionless item.blocks := by
  match h with
  | .ended _ => exact List.forall_mem_nil _
  | .item _ _ attached others =>
    exact List.forall_mem_cons.mpr ⟨attached.sectionless, others.sectionless⟩
termination_by structural h

theorem AttachmentsMade.sectionless {markers : List Text} {lines behind : List Line}
    {blocks : List Element} (h : AttachmentsMade commentMarker markers lines blocks behind) :
    AllSectionless blocks := by
  match h with
  | .ended _ => exact allSectionless_nil
  | .attached _ block others => exact block.sectionless.append others.sectionless
  | .list _ _ _ read others =>
    exact others.sectionless.cons (sectionless_makeList read.sectionless)
  | .paragraph _ _ others => exact others.sectionless.cons (sectionless_of_no_parts rfl rfl)
termination_by structural h

theorem AttachedMade.sectionless {metadata : Metadata} {lines behind : List Line}
    {found : Option Element} (h : AttachedMade commentMarker metadata lines found behind) :
    AllSectionless found.toList := by
  match h with
  | .ended => exact allSectionless_nil
  | .passed _ more => exact more.sectionless
  | .block block => exact allSectionless_nil.cons (block.sectionless (.inl nofun))
termination_by structural h

theorem EntriesMade.sectionless {delimiter : Text} {lines behind : List Line}
    {entries : List DescriptionEntry}
    (h : EntriesMade commentMarker delimiter lines entries behind) :
    AllSectionless (blocksOfEntries entries) := by
  match h with
  | .ended _ => exact allSectionless_nil
  | .entry _ _ _ attached others =>
    exact forall_mem_blocksOfEntries blocks_of_mem_termRun attached.sectionless
      others.sectionless _ _ _
termination_by structural h

theorem DescriptionAttachmentsMade.sectionless {delimiter : Text} {lines behind : List Line}
    {blocks : List Element}
    (h : DescriptionAttachmentsMade commentMarker delimiter lines blocks behind) :
    AllSectionless blocks := by
  match h with
  | .ended => exact allSectionless_nil
  | .attached _ block others => exact block.sectionless.append others.sectionless
  | .list _ _ read others =>
    exact others.sectionless.cons (sectionless_makeList read.sectionless)
  | .descriptionList _ _ _ read others =>
    exact others.sectionless.cons (sectionless_descriptionList read.sectionless)
termination_by structural h

end

end Blocks

end AsciidocSpans
