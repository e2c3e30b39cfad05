import AsciidocSpans.Proofs.Blocks.Adequacy
import AsciidocSpans.Proofs.Blocks.Outline
import AsciidocSpans.Proofs.Element.ListStack

/-!
Enumerations: texts of items, white space and comments, and nothing else. The grammar of lists knows
nothing of a stack: the items of a list are made with the markers of the lists around it, and what
is attached to one of them ends in front of an item with such a marker. What is made of an
enumeration is what a stack of open lists makes of its items all the same
(`blocks_of_enumeration`): wherever items are made, the lists around them are those on the stack,
and behind them the items go on in one of these, so that the list may be closed
(`ItemsMade.follow` and `AttachmentsMade.follow`, by one induction on what was made).
-/

set_option autoImplicit false
set_option relaxedAutoImplicit false

namespace AsciidocSpans

/-- Whether a line stands in an enumeration: an item, white space, or a comment. -/
def Line.Shape.isEnumerated : Line.Shape → Bool
  | .listItem .. | .blank | .comment _ => true
  | _ => false

namespace Blocks

open Text OpenList

variable {commentMarker : Text}

theorem isEnumerated_of_startsParagraph {place : Place} {shape : Line.Shape}
    (h : shape.startsParagraph place) : shape.isEnumerated = false := by
  cases shape with
  | listItem | blank | comment => cases h
  | _ => rfl

theorem isEnumerated_of_endsSection {terminator : Option Text} {level : Option Nat}
    {shape : Line.Shape} (h : endsSection terminator level shape) :
    shape.isEnumerated = false := by
  cases shape with
  | listItem | blank | comment => cases h
  | _ => rfl

/-- The item that stands on a line, if there is one. -/
def itemLine? (line : Line) : Option ItemLine :=
  match line.shape with
  | .listItem kind marker text checkbox => some ⟨line.number, kind, marker, text, checkbox⟩
  | _ => none

/-- The items among some lines. -/
def itemLines (lines : List Line) : List ItemLine :=
  lines.filterMap itemLine?

/-- Lines of an enumeration. -/
def Enumerated (lines : List Line) : Prop :=
  ∀ line ∈ lines, line.shape.isEnumerated = true

/-- The items of some lines go on in a list with one of some markers, or there are none. -/
def GoesOnIn (known : List Text) (lines : List Line) : Prop :=
  ∀ next ∈ (itemLines lines).head?, next.marker ∈ known

section Lines

variable {lines rest : List Line} {line : Line}

theorem Enumerated.of_suffix (h : Enumerated lines) (hrest : rest <:+ lines) : Enumerated rest :=
  fun line hline ↦ h line (hrest.subset hline)

theorem itemLines_cons_of_isIgnorable (h : line.shape.isIgnorable) :
    itemLines (line :: rest) = itemLines rest := by
  obtain ⟨shape, input, number⟩ := line
  cases shape with
  | blank | comment => rfl
  | _ => cases h

/-- What is ignored between items is none. -/
theorem itemLines_significant (lines : List Line) :
    itemLines (significant lines) = itemLines lines := by
  induction lines with
  | nil => rfl
  | cons line rest ih =>
    cases hline : line.shape.isIgnorable with
    | false => rw [significant_cons hline]
    | true =>
      have hpassed : significant (line :: rest) = significant rest := by
        rw [significant, List.dropWhile_cons, if_pos hline, significant]
      rw [hpassed, ih, itemLines_cons_of_isIgnorable hline]

theorem itemLines_of_significant_nil (h : significant lines = []) : itemLines lines = [] := by
  rw [← itemLines_significant, h]
  rfl

/-- The first line that matters is the first item, if it is one. -/
theorem itemLines_eq_cons {kind : ListKind} {marker text : Text} {checkbox : Option Checkbox}
    (here : significant lines = line :: rest)
    (shape : line.shape = .listItem kind marker text checkbox) :
    itemLines lines = ⟨line.number, kind, marker, text, checkbox⟩ :: itemLines rest := by
  have hline : itemLine? line = some ⟨line.number, kind, marker, text, checkbox⟩ := by
    rw [itemLine?, shape]
  rw [← itemLines_significant, here, itemLines, List.filterMap_cons_some hline, itemLines]

/-- The first item of an enumeration stands on the first line that matters. -/
theorem exists_significant_of_head {next : ItemLine} (h : Enumerated lines)
    (hnext : next ∈ (itemLines lines).head?) :
    ∃ line rest, significant lines = line :: rest ∧ IsItem next.marker line := by
  cases hlines : significant lines with
  | nil =>
    rw [itemLines_of_significant_nil hlines] at hnext
    cases hnext
  | cons line rest =>
    have hmem : line ∈ significant lines := hlines ▸ List.mem_cons_self
    have hline := h line ((significant_suffix lines).subset hmem)
    have hmatters : line.shape.isIgnorable ≠ true := by
      have hhead := List.head?_dropWhile_not (fun line : Line ↦ line.shape.isIgnorable) lines
      rw [← significant, hlines] at hhead
      simpa using hhead
    cases hshape : line.shape with
    | listItem kind marker text checkbox =>
      rw [itemLines_eq_cons hlines hshape] at hnext
      cases hnext
      exact ⟨line, rest, rfl, kind, text, checkbox, hshape⟩
    | blank | comment => exact absurd (by rw [hshape]; rfl) hmatters
    | _ =>
      rw [hshape] at hline
      cases hline

/-- In an enumeration, nothing goes on the text of an item. -/
theorem itemTail_of_enumerated (h : Enumerated lines) :
    (itemTail lines).1 = [] ∧ itemLines (itemTail lines).2 = itemLines lines := by
  induction lines with
  | nil => exact ⟨rfl, rfl⟩
  | cons line rest ih =>
    obtain ⟨hline, hrest⟩ := List.forall_mem_cons.mp h
    obtain ⟨shape, input, number⟩ := line
    rw [itemTail.eq_def]
    cases shape with
    | comment => exact ih hrest
    | blank | listItem => exact ⟨rfl, rfl⟩
    | _ => cases hline

end Lines

/-- The markers that a reader knows are those of the lists on a stack. -/
def Around (known : List Text) (stack : List OpenList) : Prop :=
  ∀ marker, marker ∈ known ↔ marker ∈ markers stack

theorem Around.cons {known : List Text} {stack : List OpenList} (h : Around known stack)
    (list : OpenList) : Around (known ++ [list.marker]) (list :: stack) := by
  intro marker
  rw [List.mem_append, List.mem_singleton, h marker, markers, markers, List.map_cons,
    List.mem_cons, or_comm]

/-- What is attached to the last item of the innermost list is read, and the items go on in a list
that is open. -/
structure AttachmentsFollow (known : List Text) (lines : List Line) (blocks : List Element)
    (behind : List Line) : Prop where
  enumerated : Enumerated behind
  goesOn : GoesOnIn known behind
  tree : ∀ inner around, Around known (inner :: around) →
    finish (inner :: around) (itemLines lines) =
      finish (blocks.foldl attach inner :: around) (itemLines behind)

/-- An item is added to the innermost list with all that is attached to it, and the items go on in a
list that is open. -/
structure ItemFollows (known : List Text) (first : ItemLine) (rest : List Line) (item : ListItem)
    (behind : List Line) : Prop where
  enumerated : Enumerated behind
  goesOn : GoesOnIn known behind
  tree : ∀ inner around, Around known (inner :: around) →
    finish (inner.append first.item :: around) (itemLines rest) =
      finish (inner.append item :: around) (itemLines behind)

/-- Items are added to the innermost list up to an item with another marker. -/
structure ItemsFollow (known : List Text) (marker : Text) (lines : List Line)
    (items : List ListItem) (behind : List Line) : Prop where
  enumerated : Enumerated behind
  stops : ∀ next ∈ (itemLines behind).head?, next.marker ≠ marker
  goesOn : GoesOnIn known lines → GoesOnIn known behind
  tree : ∀ inner around, Around known (inner :: around) → inner.marker = marker →
    finish (inner :: around) (itemLines lines) =
      finish (items.foldl append inner :: around) (itemLines behind)

/-- A list is opened by its first item and read, and the items go on in a list around it. -/
structure ListFollows (known : List Text) (first : ItemLine) (lines : List Line) (list : Element)
    (behind : List Line) : Prop where
  opens : ∃ rest, itemLines lines = first :: rest
  enumerated : Enumerated behind
  goesOn : GoesOnIn known behind
  tree : ∃ read : OpenList, read.marker = first.marker ∧ list = read.close ∧
    ∀ around, Around known around → finish (openedBy first :: around) (itemLines lines) =
      finish (read :: around) (itemLines behind)

/-- A list that is read below an item is attached to it. -/
theorem ListFollows.attach {known : List Text} {first : ItemLine} {lines behind : List Line}
    {list : Element} (h : ListFollows known first lines list behind)
    (hfresh : first.marker ∉ known) {outer : OpenList} {around : List OpenList}
    (haround : Around known (outer :: around)) :
    finish (outer :: around) (itemLines lines) =
      finish (outer.attach list :: around) (itemLines behind) := by
  obtain ⟨rest, hlines⟩ := h.opens
  obtain ⟨read, hmarker, rfl, htree⟩ := h.tree
  have hopens : first.marker ∉ markers (outer :: around) := fun hmem ↦
    hfresh ((haround _).mpr hmem)
  calc finish (outer :: around) (itemLines lines)
    _ = finish (openedBy first :: outer :: around) (itemLines lines) := by
        rw [hlines, finish, finish, List.foldl_cons, List.foldl_cons, take_of_fresh hopens]
    _ = finish (read :: outer :: around) (itemLines behind) := htree _ haround
    _ = finish (outer.attach read.close :: around) (itemLines behind) :=
        finish_close (fun next hnext ↦ (haround _).mp (h.goesOn next hnext))
          (by rwa [hmarker])

/-- Where there are no more items, nothing is attached and nothing is added. -/
theorem attachmentsFollow_nil {known : List Text} {lines : List Line} (h : Enumerated lines)
    (hgoesOn : GoesOnIn known lines) : AttachmentsFollow known lines [] lines :=
  ⟨h, hgoesOn, fun _ _ _ ↦ rfl⟩

theorem itemsFollow_nil {known : List Text} {marker : Text} {lines : List Line}
    (h : Enumerated lines) (hstops : ∀ next ∈ (itemLines lines).head?, next.marker ≠ marker) :
    ItemsFollow known marker lines [] lines :=
  ⟨h, hstops, id, fun _ _ _ _ ↦ rfl⟩

/-- What comes before the first line that matters is ignored. -/
theorem AttachmentsFollow.of_significant {known : List Text} {lines behind : List Line}
    {blocks : List Element} (h : AttachmentsFollow known (significant lines) blocks behind) :
    AttachmentsFollow known lines blocks behind :=
  ⟨h.enumerated, h.goesOn, itemLines_significant lines ▸ h.tree⟩

theorem ItemsFollow.cons {known : List Text} {first : ItemLine}
    {lines rest middle behind : List Line} {item : ListItem} {others : List ListItem}
    (hlines : itemLines lines = first :: itemLines rest)
    (hitem : ItemFollows known first rest item middle)
    (h : ItemsFollow known first.marker middle others behind) :
    ItemsFollow known first.marker lines (item :: others) behind where
  enumerated := h.enumerated
  stops := h.stops
  goesOn _ := h.goesOn hitem.goesOn
  tree inner around haround hmarker := by
    have hadded : (inner.append item).marker = first.marker := hmarker
    calc finish (inner :: around) (itemLines lines)
      _ = finish (inner.append first.item :: around) (itemLines rest) := by
          rw [hlines, finish, List.foldl_cons, take_of_marker hmarker, finish]
      _ = finish (inner.append item :: around) (itemLines middle) := hitem.tree inner around haround
      _ = finish ((item :: others).foldl append inner :: around) (itemLines behind) :=
          h.tree (inner.append item) around haround hadded

/-- An item is added with what is attached to it, as nothing goes on its text. -/
theorem AttachmentsFollow.item {known : List Text} {first : ItemLine} {rest behind : List Line}
    {blocks : List Element} (h : AttachmentsFollow known (itemTail rest).2 blocks behind)
    (hrest : Enumerated rest) :
    ItemFollows known first rest
      { info := { lineno := first.number }, text := some (itemText first.text rest).1,
        checkbox := first.checkbox, blocks } behind where
  enumerated := h.enumerated
  goesOn := h.goesOn
  tree inner around haround := by
    obtain ⟨hnone, hitems⟩ := itemTail_of_enumerated hrest
    have htext : (itemText first.text rest).1 = first.text := by
      change unlines (first.text :: (itemTail rest).1) = first.text
      rw [hnone]
      rfl
    have hattached := h.tree (inner.append first.item) around haround
    rw [hitems, foldl_attach_append] at hattached
    rw [hattached, htext]
    rfl

/-- A list is made of the items that follow the one that opens it. -/
theorem ItemsFollow.list {known : List Text} {first : ItemLine} {lines behind : List Line}
    {items : List ListItem} {rest : List ItemLine} (hlines : itemLines lines = first :: rest)
    (h : ItemsFollow (known ++ [first.marker]) first.marker lines items behind) :
    ListFollows known first lines (makeList first.number first.kind first.marker items)
      behind where
  opens := ⟨rest, hlines⟩
  enumerated := h.enumerated
  goesOn next hnext := by
    have hbegins : GoesOnIn (known ++ [first.marker]) lines := by
      intro other hother
      rw [hlines] at hother
      cases hother
      exact List.mem_append_right _ List.mem_cons_self
    rcases List.mem_append.mp (h.goesOn hbegins next hnext) with hknown | hown
    · exact hknown
    · exact absurd (List.mem_singleton.mp hown) (h.stops next hnext)
  tree := by
    refine ⟨items.foldl append (openedBy first), marker_foldl_append _ items, ?_,
      fun around haround ↦ h.tree (openedBy first) around (haround.cons (openedBy first)) rfl⟩
    rw [close_foldl_append]
    rfl

/-- Blocks are attached to an item behind a list that is attached to it. -/
theorem AttachmentsFollow.cons {known : List Text} {first : ItemLine}
    {lines middle behind : List Line} {list : Element} {others : List Element}
    (hfresh : first.marker ∉ known) (hlist : ListFollows known first lines list middle)
    (h : AttachmentsFollow known middle others behind) :
    AttachmentsFollow known lines (list :: others) behind where
  enumerated := h.enumerated
  goesOn := h.goesOn
  tree outer around haround := by
    have hattached : Around known (outer.attach list :: around) := fun marker ↦ by
      rw [haround marker, markers_attach]
    exact (hlist.attach hfresh haround).trans (h.tree _ _ hattached)

mutual

theorem ItemsMade.follow {known : List Text} {marker : Text} {lines behind : List Line}
    {items : List ListItem} (h : ItemsMade commentMarker known marker lines items behind)
    (hall : Enumerated lines) : ItemsFollow known marker lines items behind := by
  match h with
  | .ended ends =>
    refine itemsFollow_nil hall fun next hnext hmarker ↦ ?_
    obtain ⟨line, rest, hlines, hline⟩ := exists_significant_of_head hall hnext
    exact ends line rest hlines (hmarker ▸ hline)
  | .item here shape attached others =>
    have hrest := hall.of_suffix (suffix_of_significant here List.suffix_rfl)
    have hitem := attached.follow (hrest.of_suffix (itemTail_suffix _))
    exact ItemsFollow.cons (itemLines_eq_cons here shape) (hitem.item hrest)
      (others.follow hitem.enumerated)
termination_by structural h

theorem AttachmentsMade.follow {known : List Text} {lines behind : List Line}
    {blocks : List Element} (h : AttachmentsMade commentMarker known lines blocks behind)
    (hall : Enumerated lines) : AttachmentsFollow known lines blocks behind := by
  match h with
  | .ended ends =>
    refine attachmentsFollow_nil hall fun next hnext ↦ ?_
    obtain ⟨line, rest, hlines, hline⟩ := exists_significant_of_head hall hnext
    exact ends line rest next.marker hlines hline
  | .attached shape _ _ =>
    have hline := (List.forall_mem_cons.mp hall).1
    rw [shape] at hline
    cases hline
  | .list here shape fresh read others =>
    have hhere := here ▸ hall.of_suffix (significant_suffix _)
    have hlist := ItemsFollow.list
      (itemLines_eq_cons (IsItem.significant ⟨_, _, _, shape⟩ _) shape) (read.follow hhere)
    exact AttachmentsFollow.of_significant
      (here ▸ (others.follow hlist.enumerated).cons fresh hlist)
  | .paragraph here shape _ =>
    have hline := hall _ ((significant_suffix _).subset (here ▸ List.mem_cons_self))
    have starts := Line.Shape.startsParagraph_of_isUnmarked
      (Line.Shape.isUnmarked_of_isIndented shape) .attached
    exact absurd hline (Bool.eq_false_iff.mp (isEnumerated_of_startsParagraph starts))
termination_by structural h

end

/-- Without lists around it, a list is read with all items. -/
theorem ListFollows.listTree_eq {first : ItemLine} {lines behind : List Line} {list : Element}
    (h : ListFollows [] first lines list behind) :
    itemLines behind = [] ∧ listTree (itemLines lines) = [list] := by
  obtain ⟨rest, hlines⟩ := h.opens
  have hnone : itemLines behind = [] := by
    cases hbehind : itemLines behind with
    | nil => rfl
    | cons next others => exact absurd (h.goesOn next (by rw [hbehind]; rfl)) List.not_mem_nil
  obtain ⟨read, -, rfl, htree⟩ := h.tree
  refine ⟨hnone, ?_⟩
  calc listTree (itemLines lines)
    _ = finish [openedBy first] (itemLines lines) := by
        rw [listTree, hlines, finish, finish, List.foldl_cons, List.foldl_cons,
          take_of_fresh List.not_mem_nil]
    _ = finish [read] (itemLines behind) := htree [] fun _ ↦ Iff.rfl
    _ = [read.close] := by rw [hnone]; rfl

/-- A line of an enumeration makes no leaf. -/
theorem LeafMade.isEnumerated_eq_false {place : Place} {metadata : Metadata} {line : Line}
    {rest behind : List Line} {element : Element}
    (h : LeafMade place metadata line rest element behind) : line.shape.isEnumerated = false := by
  cases h with
  | paragraph _ starts => exact isEnumerated_of_startsParagraph starts
  | admonition shape | listing _ shape | literal shape | passthrough shape | fenced shape
  | image _ shape | contents shape | otherMacro shape | otherTable shape | floating shape
  | thematicBreak shape | pageBreak shape =>
    rw [shape]
    rfl

/-- The block that a line of an enumeration starts is the list that it opens. -/
theorem BlockMade.listFollows {place : Place} {line : Line} {rest behind : List Line}
    {element : Element} (h : BlockMade commentMarker place .empty line rest element behind)
    (hall : Enumerated (line :: rest)) :
    ∃ first, ListFollows [] first (line :: rest) element behind := by
  have hline := (List.forall_mem_cons.mp hall).1
  cases h with
  | list shape read =>
    exact ⟨_, (read.follow hall).list
      (itemLines_eq_cons (IsItem.significant ⟨_, _, _, shape⟩ rest) shape)⟩
  | leaf made =>
    rw [made.isEnumerated_eq_false] at hline
    cases hline
  | opened shape | delimited shape | descriptionList shape | table shape =>
    rw [shape] at hline
    cases hline

/-- The lines of an enumeration that give no block hold no item either, and nothing waits behind
them. -/
theorem Passes.of_enumerated {metadata waiting : Metadata} {line : Line} {rest middle : List Line}
    (h : Passes metadata line rest waiting middle) (hall : Enumerated (line :: rest)) :
    waiting = metadata ∧ Enumerated middle ∧ itemLines middle = itemLines (line :: rest) := by
  obtain ⟨hline, hrest⟩ := List.forall_mem_cons.mp hall
  obtain ⟨shape, input, number⟩ := line
  cases h with
  | line waits =>
    cases shape with
    | blank | comment => exact ⟨rfl, hrest, rfl⟩
    | listItem => cases waits
    | _ => cases hline
  | commentBlock opens =>
    cases opens
    cases hline

/-- The blocks of an enumeration are the list that its items make. -/
theorem BlocksMade.eq_listTree {terminator : Option Text} {level : Option Nat}
    {metadata : Metadata} {lines behind : List Line} {blocks : List Element}
    (h : BlocksMade commentMarker terminator level metadata lines blocks behind)
    (hterminator : terminator = none) (hmetadata : metadata = .empty) (hall : Enumerated lines) :
    blocks = listTree (itemLines lines) := by
  match h with
  | .ended => rfl
  | .closed closes =>
    subst hterminator
    rw [closesBlock, Bool.and_eq_true] at closes
    exact absurd closes.2 Bool.false_ne_true
  | .left ends =>
    have hline := (List.forall_mem_cons.mp hall).1
    exact absurd hline (Bool.eq_false_iff.mp (isEnumerated_of_endsSection ends))
  | .passed passes others =>
    obtain ⟨hwaiting, hmiddle, hitems⟩ := passes.of_enumerated hall
    rw [others.eq_listTree hterminator (hwaiting.trans hmetadata) hmiddle, hitems]
  | .block _ first others =>
    subst hmetadata
    obtain ⟨opening, hlist⟩ := first.listFollows hall
    obtain ⟨hnone, htree⟩ := hlist.listTree_eq
    rw [htree, others.eq_listTree hterminator rfl hlist.enumerated, hnone]
    rfl
termination_by structural h

section Documents

variable {text : Text}

/-- The items of a text. -/
def itemsOfText (commentMarker text : Text) : List ItemLine :=
  itemLines (Line.classifyAll commentMarker 1 text.lines)

/-- A text of items, white space and comments with an item in it makes a single list. Its items are
nested by their markers as on a stack of open lists: an item with the marker of an open list goes to
that list, any other item opens a list that is attached to the item before it. Every item stands in
the tree once, in order. -/
theorem blocks_of_enumeration (h : Enumerated (Line.classifyAll commentMarker 1 text.lines))
    (hsome : ∃ line ∈ Line.classifyAll commentMarker 1 text.lines, line.shape.isListItem) :
    ∃ document, (Document.ofText commentMarker text).1 = .ok document ∧
      (∃ info kind marker items, document.blocks = [.list info kind marker items]) ∧
      document.blocks = listTree (itemsOfText commentMarker text) ∧
      entriesOf document.blocks = (itemsOfText commentMarker text).map (·.item.entry) := by
  have hshapes : ∀ line ∈ Line.classifyAll commentMarker 1 text.lines,
      ∀ shape : Line.Shape, shape.isEnumerated = false → line.shape ≠ shape := by
    rintro line hline shape hshape rfl
    exact absurd (h line hline) (Bool.eq_false_iff.mp hshape)
  obtain ⟨document, hdocument⟩ :=
    exists_document_of_ofText fun line hline separator delimiter ↦ hshapes line hline _ rfl
  obtain ⟨head, begun, before, blocks, behind, hbegun, hhead, hblocks, -, hwrapped⟩ :=
    exists_blocksMade_of_ofText hdocument
  have htitle : ∀ line ∈ begun.lines, ∀ title, line.shape ≠ .sectionTitle ['='] title :=
    fun line hline title ↦ hshapes line (hbegun ▸ hline) _ rfl
  obtain ⟨rfl, hlines⟩ := (runs_readHeader_of_ne (E := fun _ ↦ True) htitle).of_eq_ok hhead
  rw [hbegun] at hlines
  have htree : document.blocks = listTree (itemsOfText commentMarker text) := by
    rw [hwrapped, hblocks.eq_listTree rfl rfl (by rwa [hlines]), hlines]
    exact wrapPreamble_false _
  have hitems : itemsOfText commentMarker text ≠ [] := by
    obtain ⟨⟨shape, input, number⟩, hline, hitem⟩ := hsome
    cases shape with
    | listItem => exact List.ne_nil_of_mem (List.mem_filterMap.mpr ⟨_, hline, rfl⟩)
    | _ => cases hitem
  obtain ⟨list, hlist⟩ := exists_listTree_eq hitems
  refine ⟨document, hdocument, ?_, htree, ?_⟩
  · rw [htree, hlist]
    exact ⟨_, _, _, _, rfl⟩
  · rw [htree, entriesOf_listTree]

/-- A list in a list in a list, which an item of the second one leaves, with a callout list below
that item; an item of the first list leaves both. -/
theorem blocks_of_enumeration_four_lists :
    let text : Text := "* a\n\n** b\n// c\n. d\n** [x] e\n<1> f\n\n* g".toList
    let lines := Line.classifyAll "//".toList 1 text.lines
    Enumerated lines ∧ (∃ line ∈ lines, line.shape.isListItem) ∧
      (Element.preorderOf (listTree (itemLines lines))).map
          (fun met ↦ (met.lineno, String.ofList met.context)) =
        [(1, "ulist"), (1, "list_item"), (3, "ulist"), (3, "list_item"), (5, "olist"),
          (5, "list_item"), (6, "list_item"), (7, "colist"), (7, "list_item"),
          (9, "list_item")] ∧
      ∃ document, (Document.ofText "//".toList text).1 = .ok document ∧
        (∃ info kind marker items, document.blocks = [.list info kind marker items]) ∧
        document.blocks = listTree (itemsOfText "//".toList text) ∧
        entriesOf document.blocks = (itemsOfText "//".toList text).map (·.item.entry) := by
  intro text lines
  have henumerated : Enumerated lines := by
    change ∀ line ∈ lines, line.shape.isEnumerated = true
    decide +kernel
  have hitem : ∃ line ∈ lines, line.shape.isListItem := by decide +kernel
  exact ⟨henumerated, hitem, by decide +kernel, blocks_of_enumeration henumerated hitem⟩

end Documents

end Blocks

end AsciidocSpans
