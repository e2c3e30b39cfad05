import AsciidocSpans.Blocks.Reader
import AsciidocSpans.Proofs.Element.Preorder

/-!
Lists nested by their markers. The items are taken in order, and the lists that are open are kept on
a stack, the innermost one first. An item whose marker is that of an open list closes the lists
inside it and goes to that list; any other item opens a list of its own, which is attached to the
last item before it (`OpenList.take`, `listTree`). A list is attached when it is closed, and nothing
is taken in between, so `OpenList.take_close` and `OpenList.finish_close` say that it may as well be
closed before the next item.

Every item comes to stand in the tree once, in order (`entriesOf_listTree`).
-/

set_option autoImplicit false
set_option relaxedAutoImplicit false

namespace AsciidocSpans

/-- An item as it stands on its line. -/
structure ItemLine where
  number : Int
  kind : ListKind
  marker : Text
  text : Text
  checkbox : Option Checkbox

/-- The item of a line, with nothing attached to it. -/
def ItemLine.item (line : ItemLine) : ListItem :=
  { info := { lineno := line.number }, text := some line.text, checkbox := line.checkbox,
    blocks := [] }

/-- What an item shows apart from what is attached to it: its line, its text and its box. -/
abbrev ItemEntry := Int × Option Text × Option Checkbox

def ListItem.entry (item : ListItem) : ItemEntry :=
  (item.info.lineno, item.text, item.checkbox)

/-- A list to which items may still be added, with its items so far, the last one first. -/
structure OpenList where
  number : Int
  kind : ListKind
  marker : Text
  items : List ListItem

namespace OpenList

/-- The list that an item opens. The item itself is not in it yet. -/
def openedBy (line : ItemLine) : OpenList :=
  { number := line.number, kind := line.kind, marker := line.marker, items := [] }

def append (list : OpenList) (item : ListItem) : OpenList :=
  { list with items := item :: list.items }

/-- A list with a block attached to its last item. -/
def attach (list : OpenList) (block : Element) : OpenList :=
  match list.items with
  | last :: earlier =>
    { list with items := { last with blocks := last.blocks ++ [block] } :: earlier }
  | [] => list

/-- The element of a list to which nothing is added any more. -/
def close (list : OpenList) : Element :=
  Blocks.makeList list.number list.kind list.marker list.items.reverse

/-- The markers of the lists on a stack, the innermost first. -/
def markers (stack : List OpenList) : List Text :=
  stack.map (·.marker)

/-- The stack with the lists inside the innermost one that has a marker closed, given the innermost
list and the lists around it. -/
def popFrom (marker : Text) (inner : OpenList) : List OpenList → List OpenList
  | [] => [inner]
  | outer :: around =>
    if inner.marker = marker then inner :: outer :: around
    else popFrom marker (outer.attach inner.close) around

/-- The stack with the lists inside the innermost one that has a marker closed. -/
def popTo (marker : Text) : List OpenList → List OpenList
  | [] => []
  | inner :: around => popFrom marker inner around

/-- The stack with an item added to the innermost list. -/
def add (item : ListItem) : List OpenList → List OpenList
  | [] => []
  | inner :: around => inner.append item :: around

/-- The stack behind an item: it is added to the open list that has its marker or, if there is none,
to a list of its own. -/
def take (stack : List OpenList) (line : ItemLine) : List OpenList :=
  if line.marker ∈ markers stack then add line.item (popTo line.marker stack)
  else add line.item (openedBy line :: stack)

/-- The list that is left when all lists of a stack are closed. -/
def closeFrom (inner : OpenList) : List OpenList → Element
  | [] => inner.close
  | outer :: around => closeFrom (outer.attach inner.close) around

/-- What is left when all lists of a stack are closed. -/
def closeAll : List OpenList → List Element
  | [] => []
  | inner :: around => [closeFrom inner around]

/-- What is left when items are taken from some stack on and all lists are closed behind them. -/
def finish (stack : List OpenList) (lines : List ItemLine) : List Element :=
  closeAll (lines.foldl take stack)

end OpenList

/-- The lists of some items: one list of all of them, with the other lists nested in it. -/
def listTree (lines : List ItemLine) : List Element :=
  OpenList.finish [] lines

namespace OpenList

section Take

variable {inner outer : OpenList} {stack around : List OpenList} {line : ItemLine}
  {lines : List ItemLine}

theorem marker_attach (list : OpenList) (block : Element) :
    (list.attach block).marker = list.marker := by
  rw [attach]
  split <;> rfl

theorem markers_attach (block : Element) :
    markers (outer.attach block :: around) = markers (outer :: around) := by
  rw [markers, markers, List.map_cons, List.map_cons, marker_attach]

theorem popFrom_of_marker (h : inner.marker = line.marker) :
    popFrom line.marker inner around = inner :: around := by
  cases around with
  | nil => rfl
  | cons outer rest => rw [popFrom, if_pos h]

/-- An item with the marker of the innermost list goes to that list. -/
theorem take_of_marker (h : inner.marker = line.marker) :
    take (inner :: around) line = inner.append line.item :: around := by
  have hmem : line.marker ∈ markers (inner :: around) := h ▸ List.mem_cons_self
  rw [take, if_pos hmem, popTo, popFrom_of_marker h, add]

/-- An item with the marker of no open list opens a list and goes to it. -/
theorem take_of_fresh (h : line.marker ∉ markers stack) :
    take stack line = take (openedBy line :: stack) line := by
  rw [take_of_marker rfl, take, if_neg h, add]

/-- Where an item does not go to the innermost list but to one around it, the innermost list may be
closed before. -/
theorem take_close (hmarker : line.marker ∈ markers (outer :: around))
    (hfresh : inner.marker ∉ markers (outer :: around)) :
    take (inner :: outer :: around) line = take (outer.attach inner.close :: around) line := by
  have hdiffers : inner.marker ≠ line.marker := fun heq ↦ hfresh (heq ▸ hmarker)
  have hmem : line.marker ∈ markers (inner :: outer :: around) := List.mem_cons_of_mem _ hmarker
  rw [take, take, if_pos hmem, markers_attach, if_pos hmarker, popTo, popFrom, if_neg hdiffers,
    popTo]

/-- Where the items go on in a list around the innermost one, or not at all, the innermost list may
be closed before. -/
theorem finish_close (hmarker : ∀ next ∈ lines.head?, next.marker ∈ markers (outer :: around))
    (hfresh : inner.marker ∉ markers (outer :: around)) :
    finish (inner :: outer :: around) lines =
      finish (outer.attach inner.close :: around) lines := by
  cases lines with
  | nil => rfl
  | cons next rest =>
    rw [finish, finish, List.foldl_cons, List.foldl_cons, take_close (hmarker next rfl) hfresh]

/-- Blocks are attached to the last item one by one, behind what is attached to it already. -/
theorem foldl_attach_append (list : OpenList) (item : ListItem) (blocks : List Element) :
    blocks.foldl attach (list.append item) =
      list.append { item with blocks := item.blocks ++ blocks } := by
  induction blocks generalizing item with
  | nil =>
    cases item
    rw [List.foldl_nil, List.append_nil]
  | cons block rest ih =>
    have hfirst : (list.append item).attach block =
        list.append { item with blocks := item.blocks ++ [block] } := rfl
    rw [List.foldl_cons, hfirst, ih, List.append_assoc, List.singleton_append]

/-- A list that an item opened holds the items that were added to it. -/
theorem close_foldl_append (list : OpenList) (items : List ListItem) :
    (items.foldl append list).close =
      Blocks.makeList list.number list.kind list.marker (list.items.reverse ++ items) := by
  induction items generalizing list with
  | nil => rw [List.foldl_nil, List.append_nil, close]
  | cons item rest ih =>
    rw [List.foldl_cons, ih]
    have hitems : (list.append item).items.reverse ++ rest =
        list.items.reverse ++ item :: rest := by
      rw [append, List.reverse_cons, List.append_assoc, List.singleton_append]
    rw [hitems]
    rfl

theorem marker_foldl_append (list : OpenList) (items : List ListItem) :
    (items.foldl append list).marker = list.marker := by
  induction items generalizing list with
  | nil => rfl
  | cons item rest ih =>
    rw [List.foldl_cons, ih]
    rfl

end Take

end OpenList

/-- The item that an element is, if it is one. -/
def Element.entry? : Element → Option ItemEntry
  | .listItem item => some item.entry
  | _ => none

/-- The items among some blocks and in them, in document order. -/
def entriesOf (blocks : List Element) : List ItemEntry :=
  (Element.preorderOf blocks).filterMap Element.entry?

/-- Some items and those that are attached to them, in document order. -/
def entriesOfItems (items : List ListItem) : List ItemEntry :=
  (Element.preorderOfItems items).filterMap Element.entry?

/-- The items on a stack, in document order: those of a list before those of the lists inside it. -/
def OpenList.entries : List OpenList → List ItemEntry
  | [] => []
  | inner :: around => entries around ++ entriesOfItems inner.items.reverse

section Entries

open OpenList

variable {inner : OpenList} {stack around : List OpenList}

theorem entriesOf_append (blocks others : List Element) :
    entriesOf (blocks ++ others) = entriesOf blocks ++ entriesOf others := by
  rw [entriesOf, Element.preorderOf_append, List.filterMap_append, entriesOf, entriesOf]

theorem entriesOfItems_cons (item : ListItem) (items : List ListItem) :
    entriesOfItems (item :: items) =
      item.entry :: (entriesOf item.blocks ++ entriesOfItems items) := by
  rw [entriesOfItems, Element.preorderOfItems, List.filterMap_append]
  cases item
  rfl

theorem entriesOfItems_append (items others : List ListItem) :
    entriesOfItems (items ++ others) = entriesOfItems items ++ entriesOfItems others := by
  induction items with
  | nil => rfl
  | cons item rest ih =>
    rw [List.cons_append, entriesOfItems_cons, entriesOfItems_cons, ih, List.cons_append,
      List.append_assoc]

theorem entriesOf_close (list : OpenList) :
    entriesOf [list.close] = entriesOfItems list.items.reverse := by
  rw [entriesOf, Element.preorderOf, close, Blocks.makeList, Element.preorder,
    List.filterMap_append, List.filterMap_cons]
  exact List.append_nil _

/-- An item that is added to a list comes last. -/
theorem entriesOfItems_append_item (list : OpenList) (line : ItemLine) :
    entriesOfItems (list.append line.item).items.reverse =
      entriesOfItems list.items.reverse ++ [line.item.entry] := by
  rw [append, List.reverse_cons, entriesOfItems_append]
  rfl

/-- What is attached to the last item of a list comes last. -/
theorem entriesOfItems_attach {list : OpenList} (h : list.items ≠ []) (block : Element) :
    entriesOfItems (list.attach block).items.reverse =
      entriesOfItems list.items.reverse ++ entriesOf [block] := by
  obtain ⟨number, kind, marker, items⟩ := list
  cases items with
  | nil => exact absurd rfl h
  | cons last earlier =>
    have hlast : ∀ item : ListItem, entriesOfItems [item] = item.entry :: entriesOf item.blocks :=
      fun item ↦ (entriesOfItems_cons item []).trans (congrArg _ (List.append_nil _))
    rw [attach]
    dsimp only
    rw [List.reverse_cons, List.reverse_cons, entriesOfItems_append, entriesOfItems_append, hlast,
      hlast, entriesOf_append, List.append_assoc]
    rfl

theorem items_attach_ne_nil {list : OpenList} (h : list.items ≠ []) (block : Element) :
    (list.attach block).items ≠ [] := by
  rw [attach]
  split
  · exact List.cons_ne_nil _ _
  · exact h

/-- The lists of a stack have items. -/
def Filled (stack : List OpenList) : Prop :=
  ∀ list ∈ stack, list.items ≠ []

/-- Closing lists keeps the items and their order, and a list is left. -/
theorem entries_popFrom (marker : Text) (h : Filled (inner :: around)) :
    popFrom marker inner around ≠ [] ∧ Filled (popFrom marker inner around) ∧
      entries (popFrom marker inner around) = entries (inner :: around) := by
  induction around generalizing inner with
  | nil => exact ⟨List.cons_ne_nil _ _, h, rfl⟩
  | cons outer rest ih =>
    rw [popFrom]
    split
    · exact ⟨List.cons_ne_nil _ _, h, rfl⟩
    · obtain ⟨hinner, hothers⟩ := List.forall_mem_cons.mp h
      obtain ⟨houter, hrest⟩ := List.forall_mem_cons.mp hothers
      have hattached : Filled (outer.attach inner.close :: rest) :=
        List.forall_mem_cons.mpr ⟨items_attach_ne_nil houter _, hrest⟩
      obtain ⟨hsome, hfilled, hentries⟩ := ih hattached
      refine ⟨hsome, hfilled, ?_⟩
      rw [hentries, entries, entries, entries, entriesOfItems_attach houter, entriesOf_close,
        List.append_assoc]

/-- An item that is added to the innermost list comes last. -/
theorem entries_add (line : ItemLine) (hsome : stack ≠ []) :
    entries (add line.item stack) = entries stack ++ [line.item.entry] := by
  cases stack with
  | nil => exact absurd rfl hsome
  | cons inner around =>
    rw [add, entries, entriesOfItems_append_item, entries, List.append_assoc]

theorem filled_add (line : ItemLine) (h : Filled around) :
    Filled (add line.item (inner :: around)) :=
  List.forall_mem_cons.mpr ⟨List.cons_ne_nil _ _, h⟩

/-- An item that is taken comes behind all items before it. -/
theorem entries_take (line : ItemLine) (h : Filled stack) :
    Filled (take stack line) ∧ entries (take stack line) = entries stack ++ [line.item.entry] := by
  rw [take]
  split
  · next hmarker =>
    cases stack with
    | nil => cases hmarker
    | cons inner around =>
      obtain ⟨hsome, hfilled, hentries⟩ := entries_popFrom line.marker h
      rw [popTo, entries_add line hsome, hentries]
      refine ⟨?_, rfl⟩
      cases hpopped : popFrom line.marker inner around with
      | nil => exact absurd hpopped hsome
      | cons first others =>
        rw [hpopped] at hfilled
        exact filled_add line (List.forall_mem_cons.mp hfilled).2
  · refine ⟨filled_add line h, ?_⟩
    have hopened : entries (openedBy line :: stack) = entries stack := List.append_nil _
    rw [entries_add line (List.cons_ne_nil _ _), hopened]

theorem entries_foldl_take (lines : List ItemLine) (h : Filled stack) :
    Filled (lines.foldl take stack) ∧
      entries (lines.foldl take stack) = entries stack ++ lines.map (·.item.entry) := by
  induction lines generalizing stack with
  | nil => exact ⟨h, (List.append_nil _).symm⟩
  | cons line rest ih =>
    obtain ⟨hfilled, hentries⟩ := entries_take line h
    obtain ⟨hall, hrest⟩ := ih hfilled
    refine ⟨hall, ?_⟩
    rw [List.foldl_cons, hrest, hentries, List.map_cons, List.append_assoc, List.singleton_append]

theorem entriesOf_closeFrom (h : Filled around) :
    entriesOf [closeFrom inner around] = entries (inner :: around) := by
  induction around generalizing inner with
  | nil => exact entriesOf_close inner
  | cons outer rest ih =>
    obtain ⟨houter, hrest⟩ := List.forall_mem_cons.mp h
    rw [closeFrom, ih hrest, entries, entries, entries, entriesOfItems_attach houter,
      entriesOf_close, List.append_assoc]

/-- Nested by their markers, the items come to stand in the tree once, in order. -/
theorem entriesOf_listTree (lines : List ItemLine) :
    entriesOf (listTree lines) = lines.map (·.item.entry) := by
  have hempty : Filled [] := nofun
  obtain ⟨hfilled, hentries⟩ := entries_foldl_take lines hempty
  rw [listTree, finish]
  cases hstack : lines.foldl take [] with
  | nil =>
    rw [hstack] at hentries
    exact hentries
  | cons inner around =>
    rw [hstack] at hfilled hentries
    rw [closeAll, entriesOf_closeFrom (List.forall_mem_cons.mp hfilled).2, hentries]
    rfl

theorem exists_closeFrom_eq (inner : OpenList) (around : List OpenList) :
    ∃ list : OpenList, closeFrom inner around = list.close := by
  induction around generalizing inner with
  | nil => exact ⟨inner, rfl⟩
  | cons outer rest ih => exact ih _

/-- Nested by their markers, items make a single list. -/
theorem exists_listTree_eq {lines : List ItemLine} (h : lines ≠ []) :
    ∃ list : OpenList, listTree lines = [list.close] := by
  have hempty : Filled [] := nofun
  obtain ⟨-, hentries⟩ := entries_foldl_take lines hempty
  rw [listTree, finish]
  cases hstack : lines.foldl take [] with
  | nil =>
    rw [hstack] at hentries
    exact absurd (List.map_eq_nil_iff.mp hentries.symm) h
  | cons inner around =>
    obtain ⟨list, hlist⟩ := exists_closeFrom_eq inner around
    exact ⟨list, by rw [closeAll, hlist]⟩

end Entries

end AsciidocSpans
