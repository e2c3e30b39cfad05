import AsciidocSpans.Proofs.Blocks.CellDocuments
import AsciidocSpans.Proofs.Blocks.DocumentOrder
import AsciidocSpans.Proofs.Blocks.Outline

/-!
Items and the lists that are open around them. A list is open while what is attached to one of its
items is read: nested lists, and blocks behind continuation lines, description lists among them.
`ItemBelow` says which items stand below a list in such lists, as long as none of them is attached
with a continuation line (`AttachedAt`). `ReturnsItems` says that such an item has the marker of the
list exactly if it is one of the list's own items: an item never opens a second list with a marker
of a list that is open around it.

The readers of nested lists know the markers of all lists around them, so the lists of every
document return their items, those of the documents inside table cells too
(`listsReturn_of_ofText`, by induction on the grammar of blocks). The readers of attached blocks and
of descriptions start anew without any marker, so an item behind an attached block may open a list
with the marker of a list around it (`item_lost_behind_attachedBlock`).
-/

set_option autoImplicit false
set_option relaxedAutoImplicit false

namespace AsciidocSpans

namespace Element

/-- Whether an element is a list or a description list. -/
def isEnumeration : Element → Bool
  | list .. | descriptionList .. => true
  | _ => false

/-- Whether an element is a table. -/
def isTable : Element → Bool
  | table .. => true
  | _ => false

/-- The marker of a list. -/
def marker? : Element → Option Text
  | list _ _ marker _ => some marker
  | _ => none

/-- An element is another one or stands in it, outside the tables in it. -/
inductive HasBlock : Element → Element → Prop
  | self (element : Element) : HasBlock element element
  | inside {element part block : Element} (notTable : element.isTable = false)
      (mem : part ∈ element.parts) (has : HasBlock part block) : HasBlock element block

end Element

namespace Blocks

open Element

variable {commentMarker : Text} {all : List Line} {last : Int}

/-- A line of a number stands behind a continuation line, with no more than a gap between them. -/
def AttachedAt (lines : List Line) (number : Int) : Prop :=
  ∃ (continuation line : Line) (rest given behind : List Line),
    continuation :: rest <:+ lines ∧ continuation.shape = .listContinuation ∧
    Gap rest given (line :: behind) ∧ line.number = number

/-- An item of a list, or one below it in lists and description lists that are attached to the items
between them without a continuation line. -/
inductive ItemBelow (lines : List Line) : Element → ListItem → Prop
  | own {info : ElementInfo} {kind : ListKind} {marker : Text} {items : List ListItem}
      {item : ListItem} (mem : item ∈ items) : ItemBelow lines (.list info kind marker items) item
  | through {holder part : Element} {item : ListItem} (enumerates : holder.isEnumeration)
      (mem : part ∈ holder.parts) (unattached : ¬AttachedAt lines part.lineno)
      (below : ItemBelow lines part item) : ItemBelow lines holder item

/-- The line on which an item stands is an item line with a marker. -/
def HasMarker (lines : List Line) (item : ListItem) (marker : Text) : Prop :=
  ∃ line ∈ lines, line.number = item.info.lineno ∧ IsItem marker line

/-- The items below a list that have its marker are its own items. -/
def ReturnsItems (lines : List Line) (element : Element) : Prop :=
  ∀ info kind marker items, element = .list info kind marker items →
    ∀ item, ItemBelow lines element item → (HasMarker lines item marker ↔ item ∈ items)

/-- All lists in an element return their items. -/
def Returns (lines : List Line) (element : Element) : Prop :=
  ∀ block, element.HasBlock block → ReturnsItems lines block

/-- All lists in some blocks return their items. -/
def AllReturn (lines : List Line) (blocks : List Element) : Prop :=
  ∀ block ∈ blocks, Returns lines block

/-- An item whose marker is none of some markers. -/
def IsFresh (lines : List Line) (markers : List Text) (item : ListItem) : Prop :=
  ∃ found, HasMarker lines item found ∧ found ∉ markers

/-- The items in some blocks that are attached without a continuation line have none of some
markers. -/
def FreshBelow (lines : List Line) (markers : List Text) (blocks : List Element) : Prop :=
  ∀ block ∈ blocks, ¬AttachedAt lines block.lineno →
    ∀ item, ItemBelow lines block item → IsFresh lines markers item

/-- The items of a list, and what is attached to them while the lists with some markers are open. -/
structure ItemsReturn (lines : List Line) (markers : List Text) (marker : Text)
    (items : List ListItem) : Prop where
  own : ∀ item ∈ items, HasMarker lines item marker
  attached : AllReturn lines (items.flatMap (·.blocks))
  fresh : FreshBelow lines markers (items.flatMap (·.blocks))

section Markers

/-- Lines that are numbered one by one are told apart by their numbers. -/
theorem Numbered.eq_of_number (h : Numbered last all) {line other : Line} (hline : line ∈ all)
    (hother : other ∈ all) (hnumber : line.number = other.number) : line = other := by
  obtain ⟨before, rest, hrest⟩ := List.append_of_mem hline
  obtain ⟨beforeOther, others, hothers⟩ := List.append_of_mem hother
  have hfirst := h line rest ⟨before, hrest.symm⟩
  have hsecond := h other others ⟨beforeOther, hothers.symm⟩
  have hlength : (line :: rest).length = (other :: others).length := by
    rw [List.length_cons, List.length_cons]
    omega
  have htails := (List.append_inj' (hrest.symm.trans hothers) hlength).2
  exact (List.cons.inj htails).1

theorem HasMarker.unique (hall : Numbered last all) {item : ListItem} {marker other : Text}
    (h : HasMarker all item marker) (hother : HasMarker all item other) : marker = other := by
  obtain ⟨line, hline, hnumber, kind, text, checkbox, hshape⟩ := h
  obtain ⟨second, hsecond, hnumberSecond, kindSecond, textSecond, checkboxSecond, hshapeSecond⟩ :=
    hother
  cases hall.eq_of_number hline hsecond (hnumber.trans hnumberSecond.symm)
  cases hshape.symm.trans hshapeSecond
  rfl

theorem FreshBelow.append {markers : List Text} {blocks others : List Element}
    (h : FreshBelow all markers blocks) (hothers : FreshBelow all markers others) :
    FreshBelow all markers (blocks ++ others) := by
  intro block hblock
  rcases List.mem_append.mp hblock with hmem | hmem
  · exact h block hmem
  · exact hothers block hmem

theorem FreshBelow.cons {markers : List Text} {block : Element} {others : List Element}
    (h : ∀ item, ItemBelow all block item → IsFresh all markers item)
    (hothers : FreshBelow all markers others) : FreshBelow all markers (block :: others) :=
  List.forall_mem_cons.mpr ⟨fun _ ↦ h, hothers⟩

/-- Below a block that is neither a list nor a description list there are no items. -/
theorem not_itemBelow {element : Element} (h : element.isEnumeration = false) (item : ListItem) :
    ¬ItemBelow all element item := by
  intro hbelow
  cases hbelow with
  | own => cases h
  | through enumerates => exact absurd enumerates (Bool.eq_false_iff.mp h)

end Markers

section Elements

variable {element : Element} {blocks others : List Element}

theorem allReturn_nil : AllReturn all [] := nofun

theorem AllReturn.cons (h : Returns all element) (hothers : AllReturn all others) :
    AllReturn all (element :: others) :=
  List.forall_mem_cons.mpr ⟨h, hothers⟩

theorem AllReturn.append (h : AllReturn all blocks) (hothers : AllReturn all others) :
    AllReturn all (blocks ++ others) := by
  intro block hblock
  rcases List.mem_append.mp hblock with hmem | hmem
  · exact h block hmem
  · exact hothers block hmem

theorem returns_of_parts (h : ReturnsItems all element) (hparts : AllReturn all element.parts) :
    Returns all element := by
  intro block hblock
  cases hblock with
  | self => exact h
  | inside _ mem has => exact hparts _ mem block has

theorem returnsItems_of_not_isEnumeration (h : element.isEnumeration = false) :
    ReturnsItems all element := by
  rintro info kind marker items rfl
  cases h

/-- An element that is no list has the lists of its parts. -/
theorem returns_container (h : element.isEnumeration = false)
    (hparts : AllReturn all element.parts) : Returns all element :=
  returns_of_parts (returnsItems_of_not_isEnumeration h) hparts

/-- The lists inside the cells of a table are none of its own. -/
theorem returns_table (h : element.isTable) : Returns all element := by
  intro block hblock
  cases hblock with
  | self =>
    cases element with
    | table => exact returnsItems_of_not_isEnumeration rfl
    | _ => cases h
  | inside notTable => exact absurd h (Bool.eq_false_iff.mp notTable)

/-- Metadata changes nothing about the items. -/
theorem returns_attach {metadata : Metadata} (h : Returns all element) :
    Returns all (metadata.attach element) := by
  intro block hblock
  generalize hattached : metadata.attach element = attached at hblock
  cases hblock with
  | self =>
    rintro info kind marker items rfl item hitem
    cases element with
    | list given kind marker items =>
      cases hattached
      refine h _ (.self _) _ _ _ _ rfl item ?_
      cases hitem with
      | own mem => exact .own mem
      | through _ mem unattached below => exact .through rfl mem unattached below
    | _ => cases hattached
  | inside notTable mem has =>
    subst hattached
    rw [Metadata.attach, parts_mapInfo] at mem
    refine h block (.inside ?_ mem has)
    cases element with
    | table => cases notTable
    | _ => rfl

/-- A leaf is neither a list nor a description list, and there is none in it. -/
theorem enumeration_of_isLeaf {number : Int} (h : IsLeaf number element) :
    element.isEnumeration = false ∧ ∀ part ∈ element.parts, part.isEnumeration = false ∧
      part.parts = [] := by
  cases h with
  | childless stands childless =>
    cases element with
    | admonition info style lines blocks =>
      cases blocks with
      | nil => exact ⟨rfl, nofun⟩
      | cons => cases childless
    | paragraph | listing | image | tableOfContents | «unhandled» => exact ⟨rfl, nofun⟩
    | _ => cases childless
  | quoted => exact ⟨rfl, List.forall_mem_singleton.mpr ⟨rfl, rfl⟩⟩

theorem returns_of_isLeaf {number : Int} (h : IsLeaf number element) : Returns all element := by
  obtain ⟨hleaf, hparts⟩ := enumeration_of_isLeaf h
  refine returns_container hleaf fun part hpart ↦ ?_
  obtain ⟨hpartLeaf, hnothing⟩ := hparts part hpart
  exact returns_container hpartLeaf (hnothing ▸ allReturn_nil)

theorem returns_makeDelimited {metadata : Metadata} {number : Int} {kind : DelimitedKind}
    (h : AllReturn all blocks) : Returns all (makeDelimited metadata number kind blocks) := by
  rcases makeDelimited_cases metadata number kind blocks with ⟨_, heq⟩ | ⟨_, -, heq⟩ | heq
  · rw [heq]
    exact returns_container rfl h
  · rw [heq]
    exact returns_container rfl h
  · rw [heq]
    exact returns_container rfl allReturn_nil

theorem isTable_makeTable {number : Int} {separator : Char} {content : List Line}
    {given : Attributes} {cells : List TableCell} :
    (makeTable number separator content given cells).isTable := by
  obtain ⟨_, _, _, _, heq, -⟩ := exists_makeTable number separator content given cells
  rw [heq]
  rfl

/-- A preamble has the lists of the blocks in it. -/
theorem allReturn_wrapPreamble (hasHeader : Bool) (h : AllReturn all blocks) :
    AllReturn all (wrapPreamble hasHeader blocks) := by
  rcases wrapPreamble_cases hasHeader blocks with heq | ⟨first, rest, sections, rfl, -, heq⟩
  · rwa [heq]
  · obtain ⟨hbefore, hsections⟩ := List.forall_mem_append.mp h
    rw [heq]
    exact AllReturn.cons (returns_container rfl hbefore) hsections

end Elements

section Lists

variable {markers : List Text} {marker : Text} {items : List ListItem}

theorem itemsReturn_nil : ItemsReturn all markers marker [] where
  own := List.forall_mem_nil _
  attached := List.forall_mem_nil _
  fresh := List.forall_mem_nil _

theorem ItemsReturn.cons {item : ListItem} (hitem : HasMarker all item marker)
    (hattached : AllReturn all item.blocks) (hfresh : FreshBelow all markers item.blocks)
    (h : ItemsReturn all markers marker items) :
    ItemsReturn all markers marker (item :: items) where
  own := List.forall_mem_cons.mpr ⟨hitem, h.own⟩
  attached := hattached.append h.attached
  fresh := hfresh.append h.fresh

/-- A list whose marker is known below it returns its items. -/
theorem ItemsReturn.returns (h : ItemsReturn all markers marker items) (hknown : marker ∈ markers)
    (hall : Numbered last all) (number : Int) (kind : ListKind) :
    Returns all (makeList number kind marker items) := by
  refine returns_of_parts ?_ h.attached
  rintro info _ _ _ ⟨⟩ item hitem
  cases hitem with
  | own mem => exact iff_of_true (h.own item mem) mem
  | through _ mem unattached below =>
    obtain ⟨found, hfound, hother⟩ := h.fresh _ mem unattached item below
    have hdiffers : ¬HasMarker all item marker := fun hmarker ↦
      hother (hfound.unique hall hmarker ▸ hknown)
    exact iff_of_false hdiffers fun hown ↦ hdiffers (h.own item hown)

/-- The items in and below a nested list have none of the markers of the lists around it. -/
theorem ItemsReturn.isFresh (h : ItemsReturn all (markers ++ [marker]) marker items)
    (hfresh : marker ∉ markers) (number : Int) (kind : ListKind) :
    ∀ item, ItemBelow all (makeList number kind marker items) item → IsFresh all markers item := by
  intro item hitem
  cases hitem with
  | own mem => exact ⟨marker, h.own item mem, hfresh⟩
  | through _ mem unattached below =>
    obtain ⟨found, hfound, hother⟩ := h.fresh _ mem unattached item below
    exact ⟨found, hfound, fun hmem ↦ hother (List.mem_append_left _ hmem)⟩

end Lists

/-- What is attached with a continuation line is told by that line. -/
theorem freshBelow_attached {line : Line} {rest behind : List Line} {metadata : Metadata}
    {found : Option Element} (hlines : line :: rest <:+ all)
    (hshape : line.shape = .listContinuation)
    (h : AttachedMade commentMarker metadata rest found behind) (markers : List Text) :
    FreshBelow all markers found.toList := by
  intro element helement hunattached
  obtain ⟨first, given, others, hgap, hnumber⟩ := h.gap element (Option.mem_toList.mp helement)
  exact absurd ⟨line, first, rest, given, others, hlines, hshape, hgap, hnumber⟩ hunattached

mutual

theorem BlocksMade.allReturn {terminator : Option Text} {level : Option Nat} {metadata : Metadata}
    {blocks : List Element} {lines behind : List Line}
    (h : BlocksMade commentMarker terminator level metadata lines blocks behind)
    (hall : Numbered last all) (hlines : lines <:+ all) : AllReturn all blocks := by
  match h with
  | .ended => exact allReturn_nil
  | .closed _ => exact allReturn_nil
  | .left _ => exact allReturn_nil
  | .passed passes others => exact others.allReturn hall (passes.suffix.trans hlines)
  | .block _ first others =>
    have hleft := first.suffix.trans ((List.suffix_cons _ _).trans hlines)
    exact (others.allReturn hall hleft).cons (first.returns hall hlines)
termination_by structural h

theorem BlockMade.returns {place : Place} {metadata : Metadata} {line : Line}
    {element : Element} {rest behind : List Line}
    (h : BlockMade commentMarker place metadata line rest element behind)
    (hall : Numbered last all) (hlines : line :: rest <:+ all) : Returns all element := by
  have hrest : rest <:+ all := (List.suffix_cons line rest).trans hlines
  match h with
  | .leaf made => exact returns_attach (returns_of_isLeaf made.isLeaf)
  | .opened _ _ _ read => exact returns_attach (returns_container rfl (read.allReturn hall hrest))
  | .delimited _ _ read =>
    exact returns_attach (returns_makeDelimited (read.allReturn hall hrest))
  | .list shape read =>
    exact returns_attach ((read.itemsReturn hall hlines).returns List.mem_cons_self hall _ _)
  | .descriptionList shape read =>
    refine returns_attach (returns_of_parts ?_ (read.allReturn hall hlines))
    exact nofun
  | .table _ _ read => exact returns_attach (returns_table isTable_makeTable)
termination_by structural h

/-- The items of a list have its marker, and the items below them that are attached without a
continuation line have none of the markers of the lists that are open. -/
theorem ItemsMade.itemsReturn {markers : List Text} {marker : Text} {items : List ListItem}
    {lines behind : List Line} (h : ItemsMade commentMarker markers marker lines items behind)
    (hall : Numbered last all) (hlines : lines <:+ all) : ItemsReturn all markers marker items := by
  match h with
  | .ended _ => exact itemsReturn_nil
  | .item here shape attached others =>
    have hhere := (here ▸ significant_suffix _).trans hlines
    have hrest := (itemTail_suffix _).trans ((List.suffix_cons _ _).trans hhere)
    have hleft := attached.suffix.trans hrest
    obtain ⟨hreturn, hfresh⟩ := attached.allReturn hall hrest
    exact (others.itemsReturn hall hleft).cons
      ⟨_, hhere.mem List.mem_cons_self, rfl, _, _, _, shape⟩ hreturn hfresh
termination_by structural h

theorem AttachmentsMade.allReturn {markers : List Text} {blocks : List Element}
    {lines behind : List Line} (h : AttachmentsMade commentMarker markers lines blocks behind)
    (hall : Numbered last all) (hlines : lines <:+ all) :
    AllReturn all blocks ∧ FreshBelow all markers blocks := by
  match h with
  | .ended _ => exact ⟨allReturn_nil, nofun⟩
  | .attached shape block others =>
    have hrest := (List.suffix_cons _ _).trans hlines
    have hleft := block.suffix.trans hrest
    obtain ⟨hothers, hfresh⟩ := others.allReturn hall hleft
    exact ⟨(block.allReturn hall hrest).append hothers,
      (freshBelow_attached hlines shape block _).append hfresh⟩
  | .list here shape fresh read others =>
    have hhere := (here ▸ significant_suffix _).trans hlines
    have hleft := read.suffix.1.trans hhere
    have hitems := read.itemsReturn hall hhere
    obtain ⟨hothers, hfresh⟩ := others.allReturn hall hleft
    exact ⟨hothers.cons (hitems.returns (List.mem_append_right _ List.mem_cons_self) hall _ _),
      hfresh.cons (hitems.isFresh fresh _ _)⟩
  | .paragraph here _ others =>
    have hhere := (here ▸ significant_suffix _).trans hlines
    have hrest := (List.suffix_cons _ _).trans hhere
    obtain ⟨hothers, hfresh⟩ :=
      others.allReturn hall ((paragraphLines_suffix true _ _).trans hrest)
    exact ⟨hothers.cons (returns_container rfl allReturn_nil),
      hfresh.cons fun item hitem ↦ absurd hitem (not_itemBelow rfl item)⟩
termination_by structural h

theorem AttachedMade.allReturn {metadata : Metadata} {found : Option Element}
    {lines behind : List Line} (h : AttachedMade commentMarker metadata lines found behind)
    (hall : Numbered last all) (hlines : lines <:+ all) : AllReturn all found.toList := by
  match h with
  | .ended => exact allReturn_nil
  | .passed passes more => exact more.allReturn hall (passes.suffix.trans hlines)
  | .block block => exact allReturn_nil.cons (block.returns hall hlines)
termination_by structural h

theorem EntriesMade.allReturn {delimiter : Text} {entries : List DescriptionEntry}
    {lines behind : List Line} (h : EntriesMade commentMarker delimiter lines entries behind)
    (hall : Numbered last all) (hlines : lines <:+ all) :
    AllReturn all (blocksOfEntries entries) := by
  match h with
  | .ended _ => exact allReturn_nil
  | .entry here shape description attached others =>
    have hhere := (here ▸ significant_suffix _).trans hlines
    have hbelow := description.suffix.trans ((termRun_suffix _ _).trans hhere)
    have hleft := attached.suffix.trans hbelow
    exact forall_mem_blocksOfEntries blocks_of_mem_termRun (attached.allReturn hall hbelow)
      (others.allReturn hall hleft) _ _ _
termination_by structural h

theorem DescriptionAttachmentsMade.allReturn {delimiter : Text} {blocks : List Element}
    {lines behind : List Line}
    (h : DescriptionAttachmentsMade commentMarker delimiter lines blocks behind)
    (hall : Numbered last all) (hlines : lines <:+ all) : AllReturn all blocks := by
  match h with
  | .ended => exact allReturn_nil
  | .attached shape block others =>
    have hrest := (List.suffix_cons _ _).trans hlines
    have hleft := block.suffix.trans hrest
    exact (block.allReturn hall hrest).append (others.allReturn hall hleft)
  | .list here shape read others =>
    have hhere := (here ▸ significant_suffix _).trans hlines
    have hleft := read.suffix.1.trans hhere
    exact (others.allReturn hall hleft).cons
      ((read.itemsReturn hall hhere).returns List.mem_cons_self hall _ _)
  | .descriptionList here shape longer read others =>
    have hhere := (here ▸ significant_suffix _).trans hlines
    have hleft := read.suffix.1.trans hhere
    refine (others.allReturn hall hleft).cons (returns_of_parts ?_ (read.allReturn hall hhere))
    exact nofun
termination_by structural h

end

section Documents

variable {text : Text} {document : Document}

/-- The blocks of a document, with or without a preamble around the first ones, return the items of
its lists. -/
theorem returns_of_blocksMade {number : Int} {texts : List Text} {lines behind : List Line}
    {blocks : List Element} {hasHeader : Bool}
    (hlines : lines <:+ Line.classifyAll commentMarker number texts)
    (h : BlocksMade commentMarker none none .empty lines blocks behind)
    (hblocks : document.blocks = wrapPreamble hasHeader blocks) :
    Returns (Line.classifyAll commentMarker number texts) (.document document) := by
  have hall : Numbered (number + texts.length - 1)
      (Line.classifyAll commentMarker number texts) := numbered_classifyAll (by omega)
  refine returns_container rfl ?_
  change AllReturn _ document.blocks
  rw [hblocks]
  exact allReturn_wrapPreamble _ (h.allReturn hall hlines)

/-- In a document that is made of a text, and in every document inside its table cells, an item that
stands below a list, reached through nested lists none of which is attached with a continuation
line, has the marker of that list exactly if it is one of the list's own items. -/
theorem listsReturn_of_ofText (h : (Document.ofText commentMarker text).1 = .ok document) :
    Returns (Line.classifyAll commentMarker 1 text.lines) (.document document) ∧
      ∀ cell, (Element.document document).HasCell cell → ∀ inner ∈ cell.inner,
        ∃ texts, Text.unlines texts = cell.text ∧
          Returns (Line.classifyAll commentMarker inner.info.lineno texts) (.document inner) := by
  constructor
  · obtain ⟨head, begun, before, blocks, behind, hbegun, hhead, hread, -, hdocument⟩ :=
      exists_blocksMade_of_ofText h
    have hnumbered : Numbered text.lines.length begun.lines :=
      hbegun ▸ numbered_classifyAll (Int.add_comm _ _)
    have hsuffix := ((metBetween_readHeader hnumbered).of_eq_ok hhead).left
    exact returns_of_blocksMade (hbegun ▸ hsuffix) hread hdocument
  · intro cell hcell inner hinner
    obtain ⟨texts, steps, before, behind, htexts, hlines, hblocks⟩ :=
      readFromCell_of_ofText h hcell inner hinner
    have hread := (blocksMade_readBlocks commentMarker _ none none .empty before).of_eq_ok hblocks
    rw [hlines] at hread
    exact ⟨texts, htexts, returns_of_blocksMade List.suffix_rfl hread
      (wrapPreamble_false inner.blocks).symm⟩

/-- Behind a list in a list in a list, an item goes back to the second list and one to the first,
and so does an item in a cell. -/
theorem listsReturn_nestedLists :
    let text : Text := "* a\n** b\n. c\n** d\n* e\n\n|===\na|* x\n- y\n* z\n|===".toList
    ∃ document, (Document.ofText "//".toList text).1 = .ok document ∧
      (Element.document document).preorder.map (fun met ↦ (met.lineno, met.marker?)) =
        [(1, none), (1, some "*".toList), (1, none), (2, some "**".toList), (2, none),
          (3, some ".".toList), (3, none), (4, none), (5, none), (7, none), (8, none), (8, none),
          (8, some "*".toList), (8, none), (9, some "-".toList), (9, none), (10, none)] ∧
      Returns (Line.classifyAll "//".toList 1 text.lines) (.document document) ∧
      ∀ cell, (Element.document document).HasCell cell → ∀ inner ∈ cell.inner,
        ∃ texts, Text.unlines texts = cell.text ∧
          Returns (Line.classifyAll "//".toList inner.info.lineno texts) (.document inner) := by
  intro text
  obtain ⟨document, hdocument, hmarkers⟩ := exists_of_okAnd (show okAnd
      (Document.ofText "//".toList text).1 (fun document ↦
        decide ((Element.document document).preorder.map (fun met ↦ (met.lineno, met.marker?)) =
          [(1, none), (1, some "*".toList), (1, none), (2, some "**".toList), (2, none),
            (3, some ".".toList), (3, none), (4, none), (5, none), (7, none), (8, none), (8, none),
            (8, some "*".toList), (8, none), (9, some "-".toList), (9, none), (10, none)])) =
      true by decide +kernel)
  exact ⟨document, hdocument, of_decide_eq_true hmarkers, listsReturn_of_ofText hdocument⟩

/-- Behind a list that is attached to an item, and behind a description list that is, an item with
the marker of the list around them opens a second list with that marker below them. -/
theorem item_lost_behind_attachedBlock :
    let markers (blocks : List Element) := blocks.map fun block ↦ (block.lineno, block.marker?)
    (Line.classify "//".toList "* c".toList 4).shape =
      .listItem .unordered "*".toList "c".toList none ∧
    (∃ document, (Document.ofText "//".toList "* a\n+\n. b\n* c".toList).1 = .ok document ∧
      markers document.blocks = [(1, some "*".toList)] ∧
      markers (document.blocks.flatMap (·.parts)) = [(3, some ".".toList)] ∧
      markers ((document.blocks.flatMap (·.parts)).flatMap (·.parts)) = [(4, some "*".toList)]) ∧
    (∃ document, (Document.ofText "//".toList "* a\n+\nb:: d\n* c".toList).1 = .ok document ∧
      markers document.blocks = [(1, some "*".toList)] ∧
      markers (document.blocks.flatMap (·.parts)) = [(3, none)] ∧
      markers ((document.blocks.flatMap (·.parts)).flatMap (·.parts)) =
        [(4, some "*".toList)]) := by
  intro markers
  have hboth : (okAnd (Document.ofText "//".toList "* a\n+\n. b\n* c".toList).1 fun document ↦
        decide (markers document.blocks = [(1, some "*".toList)] ∧
          markers (document.blocks.flatMap (·.parts)) = [(3, some ".".toList)] ∧
          markers ((document.blocks.flatMap (·.parts)).flatMap (·.parts)) =
            [(4, some "*".toList)])) = true ∧
      (okAnd (Document.ofText "//".toList "* a\n+\nb:: d\n* c".toList).1 fun document ↦
        decide (markers document.blocks = [(1, some "*".toList)] ∧
          markers (document.blocks.flatMap (·.parts)) = [(3, none)] ∧
          markers ((document.blocks.flatMap (·.parts)).flatMap (·.parts)) =
            [(4, some "*".toList)])) = true := by
    decide +kernel
  refine ⟨by decide +kernel, ?_, ?_⟩
  · obtain ⟨document, hdocument, hmarkers⟩ := exists_of_okAnd hboth.1
    exact ⟨document, hdocument, of_decide_eq_true hmarkers⟩
  · obtain ⟨document, hdocument, hmarkers⟩ := exists_of_okAnd hboth.2
    exact ⟨document, hdocument, of_decide_eq_true hmarkers⟩

end Documents

end Blocks

end AsciidocSpans
