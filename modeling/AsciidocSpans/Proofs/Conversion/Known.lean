import AsciidocSpans.Proofs.Blocks.Formation
import AsciidocSpans.Proofs.Blocks.Sites
import AsciidocSpans.Proofs.Conversion.Located
import AsciidocSpans.Proofs.Conversion.Traced

/-!
What is known of elements, along their conversion. A property that all elements of a document have,
however deep they lie, can be used along the course of their conversion for whatever holds there of
elements and nodes (`TracedAll.and_everywhere`), and so can that a sibling located last ends at a
column of the text (`EndsAtColumn`). So what reading says of the elements of a text and what
converting says of their nodes is put together at every block (`traced_formed_of_locateText`).
-/

set_option autoImplicit false
set_option relaxedAutoImplicit false

namespace AsciidocSpans

/-- The blocks of items have a property if everything inside a list of them does. -/
theorem Element.AllEverywhere.of_flatMap {P : Element → Prop} {items : List ListItem}
    {item : ListItem} (h : AllEverywhere P (items.flatMap (·.blocks))) (hitem : item ∈ items) :
    AllEverywhere P item.blocks := fun element helement ↦
  h element (List.mem_flatMap.mpr ⟨item, hitem, helement⟩)

namespace Converter

open Blocks (BeginIn Formed formed_of_ofText lasting_beginIn)
open Element (AllEverywhere)

variable {settings : LooseSettings} {text : Text}
  {holds shows : Window → Option Position → Element → List Node → Prop} {P : Element → Prop}

/-- The blocks of the document in a cell, if there is one. -/
def cellBlocks (cell : TableCell) : List Element :=
  (cell.inner.map (·.blocks)).getD []

/-- The sibling located last, if there is one, ends at a column. -/
def EndsAtColumn (lastEnd : Option Position) : Prop :=
  ∀ stop ∈ lastEnd, 0 ≤ stop.column

theorem endsAtColumn_none : EndsAtColumn none :=
  fun _ hnone ↦ (Option.not_mem_none _ hnone).elim

/-- What is shown ends at a column. -/
theorem EndsAtColumn.endOf {lastEnd : Option Position} {nodes : List Node}
    (h : EndsAtColumn lastEnd) (hnodes : (ofText settings text).AllShown nodes) :
    EndsAtColumn (endOf lastEnd nodes) := by
  intro stop hstop
  rcases endOf_eq_or lastEnd nodes with heq | ⟨node, hnode, heq⟩
  · exact h stop (heq ▸ hstop)
  · rw [heq] at hstop
    cases hstop
    exact (hasSpan_of_built (hnodes node hnode).1).stop.2.1

/-- Wherever a property of elements holds, a property of elements and nodes gives another one, if
the sibling located last ends at a column. -/
def Gives (P : Element → Prop)
    (holds shows : Window → Option Position → Element → List Node → Prop) : Prop :=
  ∀ window lastEnd element nodes, EndsAtColumn lastEnd → P element →
    holds window lastEnd element nodes → shows window lastEnd element nodes

mutual

theorem TracedInside.and_everywhere (himp : Gives P holds shows) {window : Window}
    {element : Element} {nodes : List Node}
    (h : TracedInside (ofText settings text) holds window element nodes)
    (hparts : AllEverywhere P element.parts) :
    TracedInside (ofText settings text) shows window element nodes := by
  match element with
  | .document ⟨_, _, _⟩ =>
    obtain ⟨head, inner, hnodes, hinner⟩ := h
    exact ⟨head, inner, hnodes, hinner.and_everywhere himp endsAtColumn_none hparts⟩
  | .titledSection _ _ _ =>
    rcases h with hnil | ⟨head, inner, hnodes, hinner⟩
    · exact .inl hnil
    · exact .inr ⟨head, inner, hnodes, hinner.and_everywhere himp endsAtColumn_none hparts⟩
  | .container info .preamble blocks | .container info .exampleBlock blocks
  | .container info .quote blocks =>
    exact TracedAll.and_everywhere himp h endsAtColumn_none hparts
  | .container info .sidebar blocks | .admonition info style lines blocks =>
    obtain ⟨head, inner, hnodes, hinner⟩ := h
    exact ⟨head, inner, hnodes, hinner.and_everywhere himp endsAtColumn_none hparts⟩
  | .list info kind marker items =>
    obtain ⟨head, inner, hnodes, hinner⟩ := h
    exact ⟨head, inner, hnodes,
      hinner.and_everywhere himp fun item hitem ↦ hparts.of_flatMap hitem⟩
  | .listItem item => exact TracedItem.and_everywhere himp h hparts
  | .descriptionList info delimiter entries =>
    obtain ⟨head, inner, hnodes, hinner⟩ := h
    refine ⟨head, inner, hnodes,
      hinner.and_everywhere himp fun entry hentry item hitem element hmem ↦ ?_⟩
    exact hparts element
      (List.mem_flatMap.mpr ⟨entry, hentry, List.mem_flatMap.mpr ⟨item, hitem, hmem⟩⟩)
  | .table info columns headRows bodyRows =>
    obtain ⟨front, head, body, lastEnd, hnodes, hcame, hhead, hbody⟩ := h
    have hcells : ∀ row ∈ headRows ++ bodyRows, ∀ cell ∈ row,
        AllEverywhere P (cellBlocks cell) := fun row hrow cell hcell element hmem ↦
      hparts element (List.mem_flatMap.mpr
        ⟨cell, List.mem_flatten.mpr ⟨row, hrow, hcell⟩, hmem⟩)
    exact ⟨front, head, body, lastEnd, hnodes, hcame,
      hhead.and_everywhere himp fun row hrow ↦ hcells row (List.mem_append_left _ hrow),
      hbody.and_everywhere himp fun row hrow ↦ hcells row (List.mem_append_right _ hrow)⟩
  | .paragraph .. | .listing .. | .image .. | .tableOfContents .. | .header _ | .author _
  | .tableCell _ | .unhandled .. => exact trivial

/-- What all elements of some blocks have, they have throughout their conversion. -/
theorem TracedAll.and_everywhere (himp : Gives P holds shows) {window : Window}
    {lastEnd : Option Position} {blocks : List Element} {nodes : List Node}
    (h : TracedAll (ofText settings text) holds window lastEnd blocks nodes)
    (hend : EndsAtColumn lastEnd) (hall : AllEverywhere P blocks) :
    TracedAll (ofText settings text) shows window lastEnd blocks nodes := by
  match blocks with
  | [] => exact h
  | element :: rest =>
    obtain ⟨own, others, hnodes, hcame, hhere, hinside, hothers⟩ := h
    have hfirst := hall element List.mem_cons_self
    obtain ⟨s, s', hrun⟩ := id hcame
    have hshown := yields_convertElement _ element s own s' hrun
    exact ⟨own, others, hnodes, hcame, himp _ _ _ _ hend hfirst.here hhere,
      hinside.and_everywhere himp hfirst.parts,
      hothers.and_everywhere himp (hend.endOf hshown) fun other hother ↦
        hall other (List.mem_cons_of_mem _ hother)⟩

theorem TracedItems.and_everywhere (himp : Gives P holds shows) {window : Window} {behind : Int}
    {lastEnd : Option Position} {items : List ListItem} {nodes : List Node}
    (h : TracedItems (ofText settings text) holds window behind lastEnd items nodes)
    (hall : ∀ item ∈ items, AllEverywhere P item.blocks) :
    TracedItems (ofText settings text) shows window behind lastEnd items nodes := by
  match items with
  | [] => exact h
  | item :: rest =>
    obtain ⟨own, others, hnodes, hcame, hitem, hothers⟩ := h
    exact ⟨own, others, hnodes, hcame, hitem.and_everywhere himp (hall item List.mem_cons_self),
      hothers.and_everywhere himp fun other hother ↦ hall other (List.mem_cons_of_mem _ hother)⟩

theorem TracedItem.and_everywhere (himp : Gives P holds shows) {window : Window} {item : ListItem}
    {nodes : List Node}
    (h : TracedItem (ofText settings text) holds window item nodes)
    (hall : AllEverywhere P item.blocks) :
    TracedItem (ofText settings text) shows window item nodes := by
  match item with
  | ⟨_, _, _, blocks⟩ =>
    obtain ⟨head, inner, hnodes, hinner⟩ := h
    exact ⟨head, inner, hnodes, hinner.and_everywhere himp endsAtColumn_none hall⟩

theorem TracedEntries.and_everywhere (himp : Gives P holds shows) {window : Window}
    {lastEnd : Option Position} {entries : List DescriptionEntry} {nodes : List Node}
    (h : TracedEntries (ofText settings text) holds window lastEnd entries nodes)
    (hall : ∀ entry ∈ entries, ∀ item ∈ entry.terms ++ entry.description.toList,
      AllEverywhere P item.blocks) :
    TracedEntries (ofText settings text) shows window lastEnd entries nodes := by
  match entries with
  | [] => exact h
  | ⟨terms, none⟩ :: rest =>
    obtain ⟨own, others, afterTerms, hnodes, hcame, hterms, hothers⟩ := h
    have hfirst := hall _ List.mem_cons_self
    exact ⟨own, others, afterTerms, hnodes, hcame,
      hterms.and_everywhere himp fun item hitem ↦ hfirst item (List.mem_append_left _ hitem),
      hothers.and_everywhere himp fun entry hentry ↦ hall entry (List.mem_cons_of_mem _ hentry)⟩
  | ⟨terms, some description⟩ :: rest =>
    obtain ⟨own, described, others, afterTerms, hnodes, hcame, hterms, hcameItem, hitem, hothers⟩ :=
      h
    have hfirst := hall _ List.mem_cons_self
    exact ⟨own, described, others, afterTerms, hnodes, hcame,
      hterms.and_everywhere himp fun item hitem ↦ hfirst item (List.mem_append_left _ hitem),
      hcameItem,
      hitem.and_everywhere himp (hfirst description
        (List.mem_append_right _ (List.mem_singleton.mpr rfl))),
      hothers.and_everywhere himp fun entry hentry ↦ hall entry (List.mem_cons_of_mem _ hentry)⟩

theorem TracedRows.and_everywhere (himp : Gives P holds shows) {maxLine : Int}
    {lastEnd : Option Position} {rows : List (List TableCell)} {nodes : List Node}
    (h : TracedRows (ofText settings text) holds maxLine lastEnd rows nodes)
    (hall : ∀ row ∈ rows, ∀ cell ∈ row, AllEverywhere P (cellBlocks cell)) :
    TracedRows (ofText settings text) shows maxLine lastEnd rows nodes := by
  match rows with
  | [] => exact h
  | [] :: rest =>
    have hrest : TracedRows (ofText settings text) holds maxLine lastEnd rest nodes := h
    exact hrest.and_everywhere himp fun row hrow ↦ hall row (List.mem_cons_of_mem _ hrow)
  | (first :: others) :: rest =>
    obtain ⟨row, behind, hnodes, hcame, hcells, hothers⟩ := h
    exact ⟨row, behind, hnodes, hcame, hcells.and_everywhere himp (hall _ List.mem_cons_self),
      hothers.and_everywhere himp fun other hother ↦ hall other (List.mem_cons_of_mem _ hother)⟩

theorem TracedCells.and_everywhere (himp : Gives P holds shows) {maxLine : Int}
    {lastEnd : Position} {cells : List TableCell} {nodes : List Node}
    (h : TracedCells (ofText settings text) holds maxLine lastEnd cells nodes)
    (hall : ∀ cell ∈ cells, AllEverywhere P (cellBlocks cell)) :
    TracedCells (ofText settings text) shows maxLine lastEnd cells nodes := by
  match cells with
  | [] => exact h
  | cell :: rest =>
    obtain ⟨result, others, hnodes, hcame, hcell, hothers⟩ := h
    exact ⟨result, others, hnodes, hcame,
      fun node hnode ↦ (hcell node hnode).and_everywhere himp (hall cell List.mem_cons_self),
      hothers.and_everywhere himp fun other hother ↦ hall other (List.mem_cons_of_mem _ hother)⟩

theorem TracedCell.and_everywhere (himp : Gives P holds shows) {window : Window} {cell : TableCell}
    {node : Node}
    (h : TracedCell (ofText settings text) holds window cell node)
    (hall : AllEverywhere P (cellBlocks cell)) :
    TracedCell (ofText settings text) shows window cell node := by
  match cell with
  | ⟨_, _, _, _, some ⟨_, _, blocks⟩⟩ =>
    exact fun hstyle ↦ (h hstyle).and_everywhere himp endsAtColumn_none hall
  | ⟨_, _, _, _, none⟩ => exact trivial

end

/-- What follows from what holds of every block by itself and from the lines that every element is
made of holds throughout the located tree of a text. -/
theorem traced_formed_of_locateText {settings : Settings} {text : Text} {root : Node}
    (hholds : HoldsOfBlocks (ofText settings.loosen text) holds)
    (himp : Gives (Formed settings.commentMarker (BeginIn settings.commentMarker text.lines))
      holds shows)
    (h : (locateText settings.loosen text).1 = .ok root) :
    ∃ document head nodes, (Document.ofText settings.commentMarker text).1 = .ok document ∧
      root.children = head ++ nodes ∧
      TracedAll (ofText settings.loosen text) shows
        { minLine := 1, maxLine := text.lines.length } none document.blocks nodes := by
  obtain ⟨marker, document, head, nodes, hmarker, hdocument, hchildren, hnodes⟩ :=
    traced_of_locateText hholds h
  cases hmarker
  exact ⟨document, head, nodes, hdocument, hchildren, hnodes.and_everywhere himp endsAtColumn_none
    (formed_of_ofText lasting_beginIn ⟨0, 0, .text⟩ hdocument)⟩

end Converter

end AsciidocSpans
