import AsciidocSpans.Element.Summary

/-!
The order in which the elements of a document are met. `Element.preorder` lists an element and
everything in it as it is written: a document, its header, its authors and its blocks; a list, and
each item before the blocks attached to it; the terms of an entry before their description; the
cells of a table row by row, each before the document inside it.

`InOrder` says that elements which are met in turn stand on lines that never go back, and that the
blocks of each container among them stand on lines that always go on. It is closed under putting one
run of elements behind another (`InOrder.append`), and so is `BlocksInOrder`, which is the same of
the blocks of one container.
-/

set_option autoImplicit false
set_option relaxedAutoImplicit false

namespace AsciidocSpans

namespace Element

/-- The header of a document, if it has one, and the authors in it. -/
def preorderOfHeader : Option Header → List Element
  | some head => .header head :: head.authors.map .author
  | none => []

mutual

/-- An element and everything in it, in document order. -/
def preorder : Element → List Element
  | .document d => preorderOfDocument d
  | .header h => preorderOfHeader (some h)
  | .titledSection info level blocks => .titledSection info level blocks :: preorderOf blocks
  | .container info kind blocks => .container info kind blocks :: preorderOf blocks
  | .admonition info style lines blocks => .admonition info style lines blocks :: preorderOf blocks
  | .list info kind marker items => .list info kind marker items :: preorderOfItems items
  | .listItem item => preorderOfItem item
  | .descriptionList info delimiter entries =>
    .descriptionList info delimiter entries :: preorderOfEntries entries
  | .table info columns headRows bodyRows =>
    .table info columns headRows bodyRows :: preorderOfRows headRows ++ preorderOfRows bodyRows
  | .tableCell cell => preorderOfCell cell
  | element => [element]

/-- Some blocks and everything in them. -/
def preorderOf : List Element → List Element
  | [] => []
  | element :: rest => preorder element ++ preorderOf rest

/-- An item and the blocks attached to it. -/
def preorderOfItem : ListItem → List Element
  | ⟨info, text, checkbox, blocks⟩ => .listItem ⟨info, text, checkbox, blocks⟩ :: preorderOf blocks

/-- Some items and everything in them. -/
def preorderOfItems : List ListItem → List Element
  | [] => []
  | item :: rest => preorderOfItem item ++ preorderOfItems rest

/-- The terms of an entry, and then its description. -/
def preorderOfEntry : DescriptionEntry → List Element
  | ⟨terms, none⟩ => preorderOfItems terms
  | ⟨terms, some description⟩ => preorderOfItems terms ++ preorderOfItem description

/-- Some entries and everything in them. -/
def preorderOfEntries : List DescriptionEntry → List Element
  | [] => []
  | entry :: rest => preorderOfEntry entry ++ preorderOfEntries rest

/-- The cells of some rows, row by row. -/
def preorderOfRows : List (List TableCell) → List Element
  | [] => []
  | row :: rest => preorderOfCells row ++ preorderOfRows rest

/-- Some cells and everything in them. -/
def preorderOfCells : List TableCell → List Element
  | [] => []
  | cell :: rest => preorderOfCell cell ++ preorderOfCells rest

/-- A cell and the document inside it. -/
def preorderOfCell : TableCell → List Element
  | ⟨info, text, style, colspan, some inner⟩ =>
    .tableCell ⟨info, text, style, colspan, some inner⟩ :: preorderOfDocument inner
  | ⟨info, text, style, colspan, none⟩ => [.tableCell ⟨info, text, style, colspan, none⟩]

/-- A document, its header and its blocks. -/
def preorderOfDocument : Document → List Element
  | ⟨info, head, blocks⟩ =>
    .document ⟨info, head, blocks⟩ :: preorderOfHeader head ++ preorderOf blocks

end

section Preorder

variable {elements : List Element}

theorem mem_preorder (element : Element) : element ∈ element.preorder := by
  cases element with
  | document d =>
    cases d
    exact List.mem_cons_self
  | listItem item =>
    cases item
    exact List.mem_cons_self
  | tableCell cell =>
    obtain ⟨info, text, style, colspan, inner⟩ := cell
    cases inner <;> exact List.mem_cons_self
  | _ => exact List.mem_cons_self

theorem mem_preorderOf {element : Element} (h : element ∈ elements) :
    element ∈ preorderOf elements := by
  induction elements with
  | nil => cases h
  | cons first rest ih =>
    rw [preorderOf, List.mem_append]
    rcases List.mem_cons.mp h with rfl | hrest
    · exact Or.inl (mem_preorder _)
    · exact Or.inr (ih hrest)

theorem preorderOf_append (others : List Element) :
    preorderOf (elements ++ others) = preorderOf elements ++ preorderOf others := by
  induction elements with
  | nil => rfl
  | cons element rest ih => rw [List.cons_append, preorderOf, preorderOf, ih, List.append_assoc]

theorem preorderOfCells_append (cells others : List TableCell) :
    preorderOfCells (cells ++ others) = preorderOfCells cells ++ preorderOfCells others := by
  induction cells with
  | nil => rfl
  | cons cell rest ih => rw [List.cons_append, preorderOfCells, preorderOfCells, ih,
      List.append_assoc]

/-- The cells of some rows are met one by one. -/
theorem preorderOfRows_eq (rows : List (List TableCell)) :
    preorderOfRows rows = preorderOfCells rows.flatten := by
  induction rows with
  | nil => rfl
  | cons row rest ih => rw [preorderOfRows, List.flatten_cons, preorderOfCells_append, ih]

theorem preorderOfCell_of_none {cell : TableCell} (h : cell.inner = none) :
    preorderOfCell cell = [.tableCell cell] := by
  obtain ⟨info, text, style, colspan, inner⟩ := cell
  cases h
  rfl

theorem preorderOfCell_of_some {cell : TableCell} {document : Document}
    (h : cell.inner = some document) :
    preorderOfCell cell = .tableCell cell :: preorderOfDocument document := by
  obtain ⟨info, text, style, colspan, inner⟩ := cell
  cases h
  rfl

/-- The blocks that an element holds as a container; none if it is no container. -/
def innerBlocks (element : Element) : List Element :=
  element.blocks?.getD []

end Preorder

section InOrder

variable {low middle later high : Int} {visited others blocks : List Element}
  {element first other : Element}

/-- The blocks of a container stand on lines that go on from each to the next. -/
def Rising (blocks : List Element) : Prop :=
  blocks.Pairwise fun block next ↦ block.lineno < next.lineno

/-- Elements that are met in turn stand on lines between two bounds that never go back, and the
blocks of each of them stand on lines that go on. -/
structure InOrder (low high : Int) (visited : List Element) : Prop where
  within : ∀ element ∈ visited, low ≤ element.lineno ∧ element.lineno ≤ high
  sorted : visited.Pairwise fun element next ↦ element.lineno ≤ next.lineno
  rising : ∀ element ∈ visited, Rising element.innerBlocks

theorem inOrder_nil : InOrder low high [] where
  within := nofun
  sorted := .nil
  rising := nofun

/-- An element that holds no blocks and is met alone. -/
theorem inOrder_singleton (hlow : low ≤ element.lineno) (hhigh : element.lineno ≤ high)
    (hblocks : element.blocks?.getD [] = []) : InOrder low high [element] where
  within := by
    intro other hother
    rw [List.mem_singleton.mp hother]
    exact ⟨hlow, hhigh⟩
  sorted := List.pairwise_singleton _ _
  rising := by
    intro other hother
    rw [List.mem_singleton.mp hother, innerBlocks, hblocks]
    exact .nil

theorem InOrder.mono (h : InOrder middle later visited) (hlow : low ≤ middle)
    (hhigh : later ≤ high) : InOrder low high visited where
  within := by
    intro element helement
    obtain ⟨hfirst, hlast⟩ := h.within element helement
    exact ⟨Int.le_trans hlow hfirst, Int.le_trans hlast hhigh⟩
  sorted := h.sorted
  rising := h.rising

/-- Elements that are met behind others stand no further up. -/
theorem InOrder.append (h : InOrder low middle visited) (hothers : InOrder later high others)
    (hlow : low ≤ later) (hmiddle : middle ≤ later) (hhigh : middle ≤ high) :
    InOrder low high (visited ++ others) where
  within := by
    intro element helement
    rcases List.mem_append.mp helement with hmem | hmem
    · exact (h.mono (Int.le_refl _) hhigh).within element hmem
    · exact (hothers.mono hlow (Int.le_refl _)).within element hmem
  sorted := by
    refine List.pairwise_append.mpr ⟨h.sorted, hothers.sorted, fun element helement next hnext ↦ ?_⟩
    have hbefore := (h.within element helement).2
    have hbehind := (hothers.within next hnext).1
    omega
  rising := by
    intro element helement
    rcases List.mem_append.mp helement with hmem | hmem
    · exact h.rising element hmem
    · exact hothers.rising element hmem

/-- An element is met before everything in it. -/
theorem InOrder.cons (hline : element.lineno = low) (hhigh : low ≤ high)
    (hrising : Rising element.innerBlocks) (h : InOrder low high visited) :
    InOrder low high (element :: visited) where
  within := List.forall_mem_cons.mpr ⟨by omega, h.within⟩
  sorted := by
    refine List.pairwise_cons.mpr ⟨fun next hnext ↦ ?_, h.sorted⟩
    have hnext := (h.within next hnext).1
    omega
  rising := List.forall_mem_cons.mpr ⟨hrising, h.rising⟩

/-- Elements without blocks on one line. -/
theorem inOrder_of_same_line (number : Int) (h : ∀ element ∈ visited, element.lineno = number ∧
    element.innerBlocks = []) : InOrder number number visited where
  within := by
    intro element helement
    rw [(h element helement).1]
    exact ⟨Int.le_refl _, Int.le_refl _⟩
  sorted := List.pairwise_of_forall_mem_list fun element helement next hnext ↦
    Int.le_of_eq ((h element helement).1.trans (h next hnext).1.symm)
  rising := by
    intro element helement
    rw [(h element helement).2]
    exact .nil

/-- Nothing that is met stands before the first element that is met. -/
theorem InOrder.from_first (h : InOrder low high (first :: visited)) :
    InOrder first.lineno high (first :: visited) where
  within := by
    have hfirst := (h.within first List.mem_cons_self).2
    refine List.forall_mem_cons.mpr ⟨⟨Int.le_refl _, hfirst⟩, fun element helement ↦ ?_⟩
    exact ⟨(List.pairwise_cons.mp h.sorted).1 element helement,
      (h.within element (List.mem_cons_of_mem _ helement)).2⟩
  sorted := h.sorted
  rising := h.rising

/-- The elements of a container, met in turn, and the blocks of the container themselves. -/
structure BlocksInOrder (low high : Int) (blocks : List Element) : Prop where
  visited : InOrder low high (preorderOf blocks)
  rising : Rising blocks

theorem blocksInOrder_nil : BlocksInOrder low high [] :=
  ⟨inOrder_nil, .nil⟩

theorem blocksInOrder_singleton (h : InOrder low high element.preorder) :
    BlocksInOrder low high [element] where
  visited := by
    rw [preorderOf, preorderOf, List.append_nil]
    exact h
  rising := List.pairwise_singleton _ _

theorem BlocksInOrder.mono (h : BlocksInOrder middle later blocks) (hlow : low ≤ middle)
    (hhigh : later ≤ high) : BlocksInOrder low high blocks :=
  ⟨h.visited.mono hlow hhigh, h.rising⟩

/-- Blocks behind others stand further down. -/
theorem BlocksInOrder.append (h : BlocksInOrder low middle blocks)
    (hothers : BlocksInOrder later high others) (hlow : low ≤ later) (hmiddle : middle < later)
    (hhigh : middle ≤ high) : BlocksInOrder low high (blocks ++ others) where
  visited := by
    rw [preorderOf_append]
    exact h.visited.append hothers.visited hlow (Int.le_of_lt hmiddle) hhigh
  rising := by
    refine List.pairwise_append.mpr ⟨h.rising, hothers.rising, fun block hblock next hnext ↦ ?_⟩
    have hbefore := (h.visited.within block (mem_preorderOf hblock)).2
    have hbehind := (hothers.visited.within next (mem_preorderOf hnext)).1
    omega

/-- What is met in an element does not depend on what it has in common with all others. -/
theorem exists_preorder_mapInfo (change : ElementInfo → ElementInfo) (element : Element) :
    ∃ inside, element.preorder = element :: inside ∧
      (element.mapInfo change).preorder = element.mapInfo change :: inside := by
  cases element with
  | document d =>
    cases d
    exact ⟨_, rfl, rfl⟩
  | listItem item =>
    cases item
    exact ⟨_, rfl, rfl⟩
  | tableCell cell =>
    obtain ⟨info, text, style, colspan, inner⟩ := cell
    cases inner <;> exact ⟨_, rfl, rfl⟩
  | _ => exact ⟨_, rfl, rfl⟩

/-- The first blocks of a container may be put into one of their own that stands on their line. -/
theorem BlocksInOrder.wrap {wrapper : Element} {rest : List Element}
    (h : BlocksInOrder low high (first :: rest ++ others))
    (hpreorder : wrapper.preorder = wrapper :: preorderOf (first :: rest))
    (hinner : wrapper.innerBlocks = first :: rest) (hline : wrapper.lineno = first.lineno) :
    BlocksInOrder low high (wrapper :: others) := by
  obtain ⟨inside, hfirst, -⟩ := exists_preorder_mapInfo id first
  have hvisited := h.visited
  have hmet : preorderOf (first :: rest ++ others) =
      first :: (inside ++ preorderOf (rest ++ others)) := by
    rw [List.cons_append, preorderOf, hfirst, List.cons_append]
  have hwithin := hvisited.within first (hmet ▸ List.mem_cons_self)
  have hrising := List.pairwise_append.mp h.rising
  constructor
  · rw [preorderOf, hpreorder, List.cons_append, ← preorderOf_append]
    refine InOrder.mono ?_ hwithin.1 (Int.le_refl _)
    refine .cons hline hwithin.2 (hinner ▸ hrising.1) ?_
    rw [hmet] at hvisited ⊢
    exact hvisited.from_first
  · refine List.pairwise_cons.mpr ⟨fun next hnext ↦ ?_, hrising.2.1⟩
    rw [hline]
    exact hrising.2.2 first List.mem_cons_self next hnext

/-- A change that keeps the line of an element keeps the order. -/
theorem InOrder.mapInfo {change : ElementInfo → ElementInfo}
    (hchange : ∀ info, (change info).lineno = info.lineno) (h : InOrder low high element.preorder) :
    InOrder low high (element.mapInfo change).preorder := by
  obtain ⟨inside, hbefore, hbehind⟩ := exists_preorder_mapInfo change element
  have hline : (element.mapInfo change).lineno = element.lineno := by
    cases element <;> exact hchange _
  have hblocks : (element.mapInfo change).innerBlocks = element.innerBlocks := by
    cases element <;> rfl
  rw [hbefore] at h
  rw [hbehind]
  obtain ⟨hwithin, hwithinRest⟩ := List.forall_mem_cons.mp h.within
  obtain ⟨hsorted, hsortedRest⟩ := List.pairwise_cons.mp h.sorted
  obtain ⟨hrising, hrisingRest⟩ := List.forall_mem_cons.mp h.rising
  exact {
    within := List.forall_mem_cons.mpr ⟨hline ▸ hwithin, hwithinRest⟩
    sorted := List.pairwise_cons.mpr ⟨hline ▸ hsorted, hsortedRest⟩
    rising := List.forall_mem_cons.mpr ⟨hblocks ▸ hrising, hrisingRest⟩ }

end InOrder

end Element

end AsciidocSpans
