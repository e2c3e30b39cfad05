import AsciidocSpans.Proofs.Conversion.Elements

/-!
The course of a conversion. A container converts its blocks one after the other, each of them in a
window of its own, and what they become is found again among the nodes of the container or right
below them. `TracedAll` goes along with this: it says of every block inside some blocks, however
deep, that a property holds of it, given the window of the blocks beside it, the end of the sibling
located last, and the nodes that it became. The nodes of a container are shared out among its blocks
in the only way there is, since every block comes with nodes that its own conversion came to.

`traced_convertBlocks` and the theorems beside it are by one induction over elements, items,
entries, rows and cells together: what holds of every block by itself holds throughout a conversion.
`traced_of_locateText` is what follows for the located tree of a text.
-/

set_option autoImplicit false
set_option relaxedAutoImplicit false

namespace AsciidocSpans

/-- The children of some nodes, side by side. -/
def Node.childrenOf (nodes : List Node) : List Node :=
  nodes.flatMap (·.children)

namespace Converter

open Node (childrenOf)

/-- The window of the first one of some sibling blocks. -/
def blockWindow (window : Window) (lastEnd : Option Position) (element : Element)
    (rest : List Element) : Window :=
  siblingWindow window element.lineno ((rest.map (·.lineno)).headD window.maxLine) lastEnd

/-- The window of the first one of some sibling items, given the line behind the items. -/
def itemWindow (window : Window) (behind : Int) (lastEnd : Option Position) (item : ListItem)
    (rest : List ListItem) : Window :=
  siblingWindow window item.info.lineno ((rest.map (·.info.lineno)).headD behind) lastEnd

section Traced

variable (converter : Converter)
  (holds : Window → Option Position → Element → List Node → Prop)

mutual

/-- The property holds throughout the blocks inside an element that was converted in a window. -/
def TracedInside (window : Window) : Element → List Node → Prop
  | .document ⟨_, _, blocks⟩, nodes => ∃ head inner, childrenOf nodes = head ++ inner ∧
      TracedAll window none blocks inner
  | .titledSection _ _ blocks, nodes => nodes = [] ∨ ∃ head inner, nodes = head ++ inner ∧
      TracedAll window none blocks inner
  | .container _ .preamble blocks, nodes => TracedAll window none blocks nodes
  | .container _ .exampleBlock blocks, nodes =>
    TracedAll (window.withNarrowing false) none blocks nodes
  | .container _ .quote blocks, nodes =>
    TracedAll (window.withNarrowing false) none blocks (childrenOf nodes)
  | .container _ .sidebar blocks, nodes | .admonition _ _ _ blocks, nodes =>
    ∃ head inner, childrenOf nodes = head ++ inner ∧ TracedAll window none blocks inner
  | .list _ _ _ items, nodes => ∃ head inner, childrenOf nodes = head ++ inner ∧
      TracedItems (window.withNarrowing true) window.maxLine none items inner
  | .listItem item, nodes => TracedItem window item nodes
  | .descriptionList _ _ entries, nodes => ∃ head inner, childrenOf nodes = head ++ inner ∧
      TracedEntries (window.withNarrowing true) none entries inner
  | .table _ _ headRows bodyRows, nodes => ∃ front head body lastEnd,
      childrenOf nodes = front ++ head ++ body ∧
      CameTo (converter.convertRows window.maxLine none headRows) (head, lastEnd) ∧
      TracedRows window.maxLine none headRows head ∧
      TracedRows window.maxLine lastEnd bodyRows body
  | _, _ => True

/-- The property holds of some sibling blocks and throughout the blocks inside them. -/
def TracedAll (window : Window) (lastEnd : Option Position) : List Element → List Node → Prop
  | [], nodes => nodes = []
  | element :: rest, nodes => ∃ own others, nodes = own ++ others ∧
      CameTo (converter.convertElement (blockWindow window lastEnd element rest) element) own ∧
      holds window lastEnd element own ∧
      TracedInside (blockWindow window lastEnd element rest) element own ∧
      TracedAll window (endOf lastEnd own) rest others

/-- The property holds throughout the blocks attached to some sibling items. -/
def TracedItems (window : Window) (behind : Int) (lastEnd : Option Position) :
    List ListItem → List Node → Prop
  | [], nodes => nodes = []
  | item :: rest, nodes => ∃ own others, nodes = own ++ others ∧
      CameTo (converter.convertItem (itemWindow window behind lastEnd item rest) item) own ∧
      TracedItem (itemWindow window behind lastEnd item rest) item own ∧
      TracedItems window behind (endOf lastEnd own) rest others

/-- The property holds throughout the blocks attached to an item. -/
def TracedItem (window : Window) : ListItem → List Node → Prop
  | ⟨_, _, _, blocks⟩, nodes => ∃ head inner, childrenOf nodes = head ++ inner ∧
      TracedAll window none blocks inner

/-- The property holds throughout the blocks attached to the items of some entries. -/
def TracedEntries (window : Window) (lastEnd : Option Position) :
    List DescriptionEntry → List Node → Prop
  | [], nodes => nodes = []
  | ⟨terms, none⟩ :: rest, nodes => ∃ own others afterTerms, nodes = own ++ others ∧
      CameTo (converter.convertItems window (firstItemLine window.maxLine rest) lastEnd terms)
        (own, afterTerms) ∧
      TracedItems window (firstItemLine window.maxLine rest) lastEnd terms own ∧
      TracedEntries window afterTerms rest others
  | ⟨terms, some description⟩ :: rest, nodes => ∃ own described others afterTerms,
      nodes = own ++ described ++ others ∧
      CameTo (converter.convertItems window description.info.lineno lastEnd terms)
        (own, afterTerms) ∧
      TracedItems window description.info.lineno lastEnd terms own ∧
      CameTo (converter.convertItem (itemWindow window (firstItemLine window.maxLine rest)
        afterTerms description []) description) described ∧
      TracedItem (itemWindow window (firstItemLine window.maxLine rest) afterTerms description [])
        description described ∧
      TracedEntries window (endOf afterTerms described) rest others

/-- The property holds throughout the documents in the cells of some rows. -/
def TracedRows (maxLine : Int) (lastEnd : Option Position) :
    List (List TableCell) → List Node → Prop
  | [], nodes => nodes = []
  | [] :: rest, nodes => TracedRows maxLine lastEnd rest nodes
  | (first :: others) :: rest, nodes => ∃ row behind, nodes = row ++ behind ∧
      CameTo (converter.wrapped .tableRow (childrenOf row)) row ∧
      TracedCells maxLine ⟨first.info.lineno, columnAfter lastEnd first.info.lineno⟩
        (first :: others) (childrenOf row) ∧
      TracedRows maxLine (endOf lastEnd row) rest behind

/-- The property holds throughout the documents in some cells. -/
def TracedCells (maxLine : Int) (lastEnd : Position) : List TableCell → List Node → Prop
  | [], nodes => nodes = []
  | cell :: rest, nodes => ∃ result others, nodes = result.toList ++ others ∧
      CameTo (converter.convertCell (cellWindow maxLine lastEnd cell) cell) result ∧
      (∀ node ∈ result, TracedCell (cellWindow maxLine lastEnd cell) cell node) ∧
      TracedCells maxLine ((result.map (·.location.stop)).getD lastEnd) rest others

/-- The property holds throughout the document in a cell, if the cell shows it. -/
def TracedCell (window : Window) : TableCell → Node → Prop
  | ⟨info, _, style, _, some ⟨_, _, blocks⟩⟩, node => style = some .asciidoc →
      TracedAll ((window.narrowed info.lineno none).withNarrowing true) none blocks node.children
  | ⟨_, _, _, _, none⟩, _ => True

end

end Traced

section Wrapped

variable {converter : Converter} {kind : NodeKind} {children : List Node}

theorem childrenOf_singleton (node : Node) : childrenOf [node] = node.children :=
  List.flatMap_singleton ..

/-- What is wrapped is right below the node around it, if there is one. -/
theorem yields_childrenOf_wrapped :
    Yields (converter.wrapped kind children) fun nodes ↦ childrenOf nodes = children := by
  rw [wrapped]
  split
  · next hempty => exact yields_pure (List.isEmpty_iff.mp hempty).symm
  · refine (yields_assembled fun node hnode ↦ hnode).bind fun node hnode ↦ yields_pure ?_
    obtain ⟨location, range, -, -, rfl⟩ := around_eq_ok hnode
    exact childrenOf_singleton _

/-- What is wrapped together with a title is right below the node around both, behind the title. -/
theorem yields_childrenOf_wrappedWithTitle (info : ElementInfo) (window : Window) :
    Yields (converter.wrappedWithTitle kind info children window) fun nodes ↦
      ∃ head, childrenOf nodes = head ++ children := by
  rw [wrappedWithTitle]
  split
  · next hempty => exact yields_pure ⟨[], (List.isEmpty_iff.mp hempty).symm⟩
  · refine (yields_trivial _).bind fun title _ ↦
      (yields_assembled fun node hnode ↦ hnode).bind fun node hnode ↦ yields_pure ⟨title.toList, ?_⟩
    obtain ⟨location, range, -, -, rfl⟩ := around_eq_ok hnode
    exact childrenOf_singleton _

/-- The header and the blocks of a document are right below its node, if there is one. -/
theorem yields_childrenOf_root (children : List Node) :
    Yields (do
      if children.isEmpty then return []
      else return [← assembled (Node.documentAround converter.source children)] :
      Conversion (List Node)) fun nodes ↦ childrenOf nodes = children := by
  split
  · next hempty => exact yields_pure (List.isEmpty_iff.mp hempty).symm
  · refine (yields_assembled fun node hnode ↦ hnode).bind fun node hnode ↦ yields_pure ?_
    obtain ⟨location, range, -, -, rfl⟩ := documentAround_eq_ok hnode
    exact childrenOf_singleton _

end Wrapped

/-- A property holds of every block by itself, whatever window its siblings are in. -/
def HoldsOfBlocks (converter : Converter)
    (holds : Window → Option Position → Element → List Node → Prop) : Prop :=
  ∀ window following lastEnd element,
    Yields (converter.convertElement (siblingWindow window element.lineno following lastEnd)
      element) (holds window lastEnd element)

section Course

variable {converter : Converter}
  {holds : Window → Option Position → Element → List Node → Prop}

mutual

/-- What holds of every block by itself holds throughout the blocks inside an element. -/
theorem traced_convertElement (hholds : HoldsOfBlocks converter holds) (window : Window)
    (element : Element) :
    Yields (converter.convertElement window element)
      (TracedInside converter holds window element) := by
  match element with
  | .document document => exact traced_convertDocument hholds window document
  | .titledSection info level blocks =>
    rw [convertElement]
    refine (yields_trivial _).bind fun title _ ↦ ?_
    cases title with
    | none => exact yields_pure (.inl rfl)
    | some title =>
      refine (yields_trivial _).bind fun id _ ↦
        (traced_convertBlocks hholds window none blocks).bind fun inner hinner ↦
          yields_pure (.inr ⟨id.toList ++ [title], inner, ?_, hinner⟩)
      rw [List.append_assoc]
      rfl
  | .container info .preamble blocks =>
    rw [convertElement]
    exact traced_convertBlocks hholds window none blocks
  | .container info .exampleBlock blocks =>
    rw [convertElement]
    exact traced_convertBlocks hholds _ none blocks
  | .container info .quote blocks =>
    rw [convertElement]
    refine (traced_convertBlocks hholds _ none blocks).bind fun inner hinner s nodes s' hnodes ↦ ?_
    rw [TracedInside, yields_childrenOf_wrapped s nodes s' hnodes]
    exact hinner
  | .container info .sidebar blocks =>
    rw [convertElement]
    refine (traced_convertBlocks hholds window none blocks).bind
      fun inner hinner s nodes s' hnodes ↦ ?_
    obtain ⟨head, hhead⟩ := yields_childrenOf_wrappedWithTitle info window s nodes s' hnodes
    exact ⟨head, inner, hhead, hinner⟩
  | .list info kind marker items =>
    rw [convertElement]
    refine (traced_convertItems hholds _ _ none items).bind fun inner hinner s nodes s' hnodes ↦ ?_
    obtain ⟨head, hhead⟩ := yields_childrenOf_wrappedWithTitle info window s nodes s' hnodes
    exact ⟨head, inner.1, hhead, hinner⟩
  | .listItem item =>
    rw [convertElement]
    exact traced_convertItem hholds window item
  | .descriptionList info delimiter entries =>
    rw [convertElement]
    refine (traced_convertEntries hholds _ none entries).bind
      fun inner hinner s nodes s' hnodes ↦ ?_
    obtain ⟨head, hhead⟩ := yields_childrenOf_wrappedWithTitle info window s nodes s' hnodes
    exact ⟨head, inner.1, hhead, hinner⟩
  | .admonition info style lines blocks =>
    have hwrap : ∀ head inner, TracedAll converter holds window none blocks inner →
        Yields (converter.wrappedWithTitle (.admonition style) info (head ++ inner) window)
          (TracedInside converter holds window (.admonition info style lines blocks)) := by
      intro head inner hinner s nodes s' hnodes
      obtain ⟨title, htitle⟩ := yields_childrenOf_wrappedWithTitle info window s nodes s' hnodes
      exact ⟨title ++ head, inner, by rw [htitle, List.append_assoc], hinner⟩
    match blocks, lines with
    | first :: rest, _ =>
      exact (traced_convertBlocks hholds window none (first :: rest)).bind (hwrap [])
    | [], (c :: first) :: rest =>
      refine (yields_trivial _).bind fun head _ ↦ ?_
      have h := hwrap head [] rfl
      rwa [List.append_nil] at h
    | [], [] => exact Yields.bind (yields_throw _) (hwrap [])
    | [], [] :: rest => exact Yields.bind (yields_throw _) (hwrap [])
  | .table info columnCount headRows bodyRows =>
    rw [convertElement]
    refine (yields_trivial _).bind fun title _ ↦ (yields_trivial _).bind fun attributes _ ↦
      ((yields_cameTo _).and (traced_convertRows hholds window.maxLine none headRows)).bind
        fun head hhead ↦ (traced_convertRows hholds window.maxLine head.2 bodyRows).bind
          fun body hbody s nodes s' hnodes ↦ ?_
    exact ⟨title.toList ++ attributes.toList, head.1, body.1, head.2,
      yields_childrenOf_wrapped s nodes s' hnodes, hhead.1, hhead.2, hbody⟩
  | .paragraph .. | .listing .. | .image .. | .tableOfContents .. | .header _ | .author _
  | .tableCell _ | .unhandled .. => exact fun _ _ _ _ ↦ trivial

theorem traced_convertBlocks (hholds : HoldsOfBlocks converter holds) (window : Window)
    (lastEnd : Option Position) (blocks : List Element) :
    Yields (converter.convertBlocks window lastEnd blocks)
      (TracedAll converter holds window lastEnd blocks) := by
  match blocks with
  | [] => exact yields_pure rfl
  | element :: rest =>
    rw [convertBlocks_cons]
    refine ((yields_cameTo _).and ((hholds window _ lastEnd element).and
      (traced_convertElement hholds _ element))).bind fun own hown ↦
        (yields_trivial _).bind fun _ _ ↦
          (traced_convertBlocks hholds window _ rest).bind fun others hothers ↦
            yields_pure ⟨own, others, rfl, hown.1, hown.2.1, hown.2.2, hothers⟩

theorem traced_convertItems (hholds : HoldsOfBlocks converter holds) (window : Window)
    (behind : Int) (lastEnd : Option Position) (items : List ListItem) :
    Yields (converter.convertItems window behind lastEnd items) fun result ↦
      TracedItems converter holds window behind lastEnd items result.1 := by
  match items with
  | [] => exact yields_pure rfl
  | item :: rest =>
    rw [convertItems_cons]
    exact ((yields_cameTo _).and (traced_convertItem hholds _ item)).bind fun own hown ↦
      (yields_trivial _).bind fun _ _ ↦
        (traced_convertItems hholds window behind _ rest).bind fun others hothers ↦
          yields_pure ⟨own, others.1, rfl, hown.1, hown.2, hothers⟩

theorem traced_convertEntries (hholds : HoldsOfBlocks converter holds) (window : Window)
    (lastEnd : Option Position) (entries : List DescriptionEntry) :
    Yields (converter.convertEntries window lastEnd entries) fun result ↦
      TracedEntries converter holds window lastEnd entries result.1 := by
  match entries with
  | [] => exact yields_pure rfl
  | ⟨terms, none⟩ :: rest =>
    rw [convertEntries]
    exact ((yields_cameTo _).and (traced_convertItems hholds window _ lastEnd terms)).bind
      fun own hown ↦ (traced_convertEntries hholds window own.2 rest).bind fun others hothers ↦
        yields_pure ⟨own.1, others.1, own.2, rfl, hown.1, hown.2, hothers⟩
  | ⟨terms, some description⟩ :: rest =>
    rw [convertEntries]
    exact ((yields_cameTo _).and (traced_convertItems hholds window _ lastEnd terms)).bind
      fun own hown ↦ ((yields_cameTo _).and (traced_convertItem hholds _ description)).bind
        fun described hdescribed ↦ (yields_trivial _).bind fun _ _ ↦
          (traced_convertEntries hholds window _ rest).bind fun others hothers ↦
            yields_pure ⟨own.1, described, others.1, own.2, rfl, hown.1, hown.2, hdescribed.1,
              hdescribed.2, hothers⟩

theorem traced_convertItem (hholds : HoldsOfBlocks converter holds) (window : Window)
    (item : ListItem) :
    Yields (converter.convertItem window item) (TracedItem converter holds window item) := by
  match item with
  | ⟨info, text, checkbox, blocks⟩ =>
    have hattach : ∀ own, Yields (do
        let attached ← converter.convertBlocks window none blocks
        converter.wrapped .listItem (own ++ attached))
        (TracedItem converter holds window ⟨info, text, checkbox, blocks⟩) :=
      fun own ↦ (traced_convertBlocks hholds window none blocks).bind
        fun attached hattached s nodes s' hnodes ↦
          ⟨own, attached, yields_childrenOf_wrapped s nodes s' hnodes, hattached⟩
    match text with
    | some (c :: rest) =>
      rw [convertItem]
      exact (yields_trivial _).bind fun own _ ↦ hattach own
    | some [] => exact (yields_trivial _).bind fun own _ ↦ hattach own
    | none => exact (yields_trivial _).bind fun own _ ↦ hattach own

theorem traced_convertRows (hholds : HoldsOfBlocks converter holds) (maxLine : Int)
    (lastEnd : Option Position) (rows : List (List TableCell)) :
    Yields (converter.convertRows maxLine lastEnd rows) fun result ↦
      TracedRows converter holds maxLine lastEnd rows result.1 := by
  match rows with
  | [] => exact yields_pure rfl
  | [] :: rest =>
    rw [convertRows]
    exact traced_convertRows hholds maxLine lastEnd rest
  | (first :: others) :: rest =>
    rw [convertRows]
    refine (traced_convertCells hholds maxLine _ (first :: others)).bind fun cells hcells ↦
      ((yields_cameTo _).and yields_childrenOf_wrapped).bind fun row hrow ↦
        (traced_convertRows hholds maxLine _ rest).bind fun below hbelow ↦
          yields_pure ⟨row, below.1, rfl, ?_, ?_, hbelow⟩
    · rw [hrow.2]
      exact hrow.1
    · rw [hrow.2]
      exact hcells

theorem traced_convertCells (hholds : HoldsOfBlocks converter holds) (maxLine : Int)
    (lastEnd : Position) (cells : List TableCell) :
    Yields (converter.convertCells maxLine lastEnd cells)
      (TracedCells converter holds maxLine lastEnd cells) := by
  match cells with
  | [] => exact yields_pure rfl
  | cell :: rest =>
    rw [convertCells]
    refine ((yields_cameTo _).and (traced_convertCell hholds _ cell)).bind fun result hresult ↦ ?_
    cases result with
    | none =>
      exact fun s nodes s' hnodes ↦ ⟨none, nodes, rfl, hresult.1, hresult.2,
        traced_convertCells hholds maxLine lastEnd rest s nodes s' hnodes⟩
    | some node =>
      exact (traced_convertCells hholds maxLine _ rest).bind fun others hothers ↦
        yields_pure ⟨some node, others, rfl, hresult.1, hresult.2, hothers⟩

theorem traced_convertCell (hholds : HoldsOfBlocks converter holds) (window : Window)
    (cell : TableCell) :
    Yields (converter.convertCell window cell) fun result ↦
      ∀ node ∈ result, TracedCell converter holds window cell node := by
  match cell with
  | ⟨info, text, style, colspan, none⟩ => exact fun _ _ _ _ _ _ ↦ trivial
  | ⟨info, text, style, colspan, some ⟨_, _, blocks⟩⟩ =>
    by_cases hstyle : style = some .asciidoc
    · subst hstyle
      rw [convertCell]
      refine (yields_trivial _).bind fun found _ ↦ ?_
      cases found with
      | none => exact yields_pure nofun
      | some location =>
        refine (traced_convertBlocks hholds _ none blocks).bind fun children hchildren ↦
          (yields_assembled fun node hnode ↦ hnode).bind fun node hnode ↦ yields_pure ?_
        obtain ⟨range, -, rfl⟩ := located_eq_ok hnode
        rintro _ ⟨⟩ -
        exact hchildren
    · exact fun _ _ _ _ _ _ hasciidoc ↦ absurd hasciidoc hstyle

theorem traced_convertDocument (hholds : HoldsOfBlocks converter holds) (window : Window)
    (document : Document) :
    Yields (converter.convertDocument window document)
      (TracedInside converter holds window (.document document)) := by
  match document with
  | ⟨info, header, blocks⟩ =>
    rw [convertDocument]
    refine (traced_convertBlocks hholds window none blocks).bind fun nodes hnodes ↦ ?_
    cases header with
    | none =>
      exact (yields_trivial _).bind fun head _ s roots s' hroots ↦
        ⟨head, nodes, yields_childrenOf_root (head ++ nodes) s roots s' hroots, hnodes⟩
    | some header =>
      exact (yields_trivial _).bind fun head _ s roots s' hroots ↦
        ⟨head, nodes, yields_childrenOf_root (head ++ nodes) s roots s' hroots, hnodes⟩

end

/-- In the located tree of a text, the children of the document are those of its header and the
nodes of its blocks, and what holds of every block by itself holds throughout these. -/
theorem traced_of_locateText {settings : LooseSettings} {text : Text} {root : Node}
    (hholds : HoldsOfBlocks (ofText settings text) holds)
    (h : (locateText settings text).1 = .ok root) :
    ∃ marker document head nodes, settings.marker? = some marker ∧
      (Document.ofText marker text).1 = .ok document ∧ root.children = head ++ nodes ∧
      TracedAll (ofText settings text) holds { minLine := 1, maxLine := text.lines.length } none
        document.blocks nodes := by
  obtain ⟨marker, document, hmarker, hread, hdocument⟩ := exists_document_of_locateText h
  obtain ⟨log, hroot⟩ := exists_convertRoot_of_locateDocument hdocument
  have hblocks := traced_convertBlocks hholds { minLine := 1, maxLine := text.lines.length } none
    document.blocks
  have hchildren : Yields ((ofText settings text).convertRoot document) fun root ↦
      ∃ head nodes, root.children = head ++ nodes ∧ TracedAll (ofText settings text) holds
        { minLine := 1, maxLine := text.lines.length } none document.blocks nodes :=
    (yields_children_convertDocument hblocks).bind fun roots hroots ↦
      (yields_trivial _).bind fun _ _ ↦ yields_pure hroots
  obtain ⟨head, nodes, heq, hnodes⟩ := hchildren [] root log hroot
  exact ⟨marker, document, head, nodes, hmarker, hread, heq, hnodes⟩

end Course

end Converter

end AsciidocSpans
