import AsciidocSpans.Proofs.Conversion.Provenance

/-!
Every node that an element becomes is built from spans that a search found. The elements are any:
their line numbers, titles and texts are nowhere constrained, only that the conversion comes to a
result. `yields_convertElement` is one induction over elements, items, entries, rows and cells
together, with one case for each way in which they are converted, and `built_of_locateDocument` is
what follows for a whole document.
-/

set_option autoImplicit false
set_option relaxedAutoImplicit false

namespace AsciidocSpans.Converter

/-- The window in which a cell is looked for, given where the one before it ended. -/
def cellWindow (maxLine : Int) (lastEnd : Position) (cell : TableCell) : Window :=
  { minLine := cell.info.lineno, maxLine, narrows := false
    startColumn := columnAfter (some lastEnd) cell.info.lineno }

section Siblings

variable (converter : Converter) (window : Window)

theorem convertBlocks_cons (lastEnd : Option Position) (element : Element) (rest : List Element) :
    converter.convertBlocks window lastEnd (element :: rest) = do
      let nodes ← converter.convertElement (siblingWindow window element.lineno
        ((rest.map (·.lineno)).headD window.maxLine) lastEnd) element
      reportOmission element nodes
      return nodes ++ (← converter.convertBlocks window (endOf lastEnd nodes) rest) := by
  rw [convertBlocks.eq_def]
  cases rest with
  | nil => rfl
  | cons next others => rfl

theorem convertItems_cons (behind : Int) (lastEnd : Option Position) (item : ListItem)
    (rest : List ListItem) :
    converter.convertItems window behind lastEnd (item :: rest) = do
      let nodes ← converter.convertItem (siblingWindow window item.info.lineno
        ((rest.map (·.info.lineno)).headD behind) lastEnd) item
      reportOmission (.listItem item) nodes
      let (others, final) ← converter.convertItems window behind (endOf lastEnd nodes) rest
      return (nodes ++ others, final) := by
  rw [convertItems.eq_def]
  cases rest with
  | nil => rfl
  | cons next others => rfl

end Siblings

variable {converter : Converter}

section Simple

theorem yields_convertTitle (title : Text) (level : Int) (window : Window) :
    Yields (converter.convertTitle title level window) converter.MaybeShown :=
  yields_convertText? rfl (by nofun) title window

theorem yields_convertParagraphText (text : Text) (window : Window) :
    Yields (converter.convertParagraphText text window) converter.AllShown := by
  rw [convertParagraphText]
  refine (yields_find converter false text.lines window).bind fun found hfound ↦ ?_
  cases found with
  | none => exact yields_pure allShown_nil
  | some location =>
    refine Yields.bind (Q := converter.Shown) (yields_assembled fun node hnode ↦ ?_)
      fun _ h ↦ yields_pure (allShown_nil.cons h)
    rw [← Text.unlines_lines text] at hnode
    exact shown_aroundText rfl (by nofun) hfound.symm hnode

/-- A title above a leaf that was found are built, and so is what covers them. -/
theorem built_titled {title attributes : List Node} {leaf : Node}
    (htitle : converter.AllShown title) (hattributes : converter.AllShown attributes)
    (hleaf : converter.Built leaf) :
    ∀ child ∈ title ++ attributes ++ [leaf], converter.Built child := by
  intro child hchild
  rcases List.mem_append.mp hchild with hmem | hmem
  · exact ((htitle.append hattributes) child hmem).1
  · rw [List.mem_singleton.mp hmem]
    exact hleaf

theorem yields_convertParagraph (info : ElementInfo) (lines : List Text) (window : Window) :
    Yields (converter.convertParagraph info lines window) converter.AllShown := by
  rw [convertParagraph]
  refine (yields_find converter false lines window).bind fun found hfound ↦ ?_
  cases found with
  | none => exact yields_pure allShown_nil
  | some location =>
    refine (yields_convertBlockTitle info window).bind fun title htitle ↦ ?_
    refine Yields.bind (Q := converter.Built)
      (yields_assembled fun leaf hleaf ↦ (built_str hfound.symm hleaf).1) fun leaf hleaf ↦ ?_
    refine Yields.bind (Q := converter.Shown) (yields_assembled fun node hnode ↦ ?_)
      fun _ h ↦ yields_pure (allShown_nil.cons h)
    refine shown_around rfl (by nofun) ?_ hnode
    have hchildren := built_titled htitle.toList allShown_nil hleaf
    rwa [List.append_nil] at hchildren

theorem yields_convertListing (info : ElementInfo) (lines : List Text) (language : Option Text)
    (window : Window) :
    Yields (converter.convertListing info lines language window) converter.AllShown := by
  rw [convertListing]
  refine (yields_find converter true lines window).bind fun found hfound ↦ ?_
  cases found with
  | none => exact yields_pure allShown_nil
  | some location =>
    refine (yields_convertBlockTitle info window).bind fun title htitle ↦ ?_
    refine Yields.bind (Q := converter.Shown) (yields_assembled fun node hnode ↦ ?_)
      fun _ h ↦ yields_pure (allShown_nil.cons h)
    obtain ⟨range, hrange, rfl⟩ := located_eq_ok hnode
    exact ⟨.code hfound.symm (fun child hchild ↦ (htitle.toList child hchild).1) hrange, nofun⟩

theorem yields_convertImage (info : ElementInfo) (window : Window) :
    Yields (converter.convertImage info window) converter.AllShown := by
  rw [convertImage]
  refine (yields_trivial _).bind fun raw _ ↦
    (yields_find converter false [raw] window).bind fun found hfound ↦ ?_
  cases found with
  | none => exact yields_pure allShown_nil
  | some location =>
    refine (yields_convertBlockTitle info window).bind fun title htitle ↦
      (yields_convertImageAttributes info).bind fun attributes hattributes ↦ ?_
    refine Yields.bind (Q := converter.Built)
      (yields_assembled fun leaf hleaf ↦ (built_str hfound.symm hleaf).1) fun leaf hleaf ↦ ?_
    refine Yields.bind (Q := converter.Shown) (yields_assembled fun node hnode ↦ ?_)
      fun _ h ↦ yields_pure (allShown_nil.cons h)
    exact shown_around rfl (by nofun) (built_titled htitle.toList hattributes hleaf) hnode

theorem yields_convertTableOfContents (info : ElementInfo) (window : Window) :
    Yields (converter.convertTableOfContents info window) converter.AllShown := by
  rw [convertTableOfContents]
  exact (yields_trivial _).bind fun raw _ ↦
    (yields_convertText? rfl (by nofun) raw window).bind fun _ h ↦ yields_pure h.toList

theorem yields_convertHeader (id : Option Text) (header : Header) (window : Window) :
    Yields (converter.convertHeader id header window) converter.AllShown := by
  rw [convertHeader]
  refine (yields_convertId id _).bind fun idNode hid ↦
    (yields_convertTitle _ _ _).bind fun title htitle ↦ ?_
  have hboth := hid.toList.append htitle.toList
  split
  · exact (yields_convertAuthors 0 header.authors).bind fun authors hauthors ↦
      yields_pure (hboth.append hauthors)
  · exact (yields_pure allShown_nil).bind fun authors hauthors ↦
      yields_pure (hboth.append hauthors)

theorem yields_wrapped {kind : NodeKind} {children : List Node} (hkind : kind.isKnown)
    (hstr : kind ≠ .str) (h : converter.AllShown children) :
    Yields (converter.wrapped kind children) converter.AllShown := by
  rw [wrapped]
  split
  · exact yields_pure allShown_nil
  · refine Yields.bind (Q := converter.Shown) (yields_assembled fun node hnode ↦ ?_)
      fun _ hshown ↦ yields_pure (allShown_nil.cons hshown)
    exact shown_around hkind hstr (fun child hchild ↦ (h child hchild).1) hnode

theorem yields_wrappedWithTitle {kind : NodeKind} {info : ElementInfo} {children : List Node}
    {window : Window} (hkind : kind.isKnown) (hstr : kind ≠ .str)
    (h : converter.AllShown children) :
    Yields (converter.wrappedWithTitle kind info children window) converter.AllShown := by
  rw [wrappedWithTitle]
  split
  · exact yields_pure allShown_nil
  · refine (yields_convertBlockTitle info window).bind fun title htitle ↦ ?_
    refine Yields.bind (Q := converter.Shown) (yields_assembled fun node hnode ↦ ?_)
      fun _ hshown ↦ yields_pure (allShown_nil.cons hshown)
    have hchildren := htitle.toList.append h
    exact shown_around hkind hstr (fun child hchild ↦ (hchildren child hchild).1) hnode

/-- The node of a document stands for it. -/
theorem yields_root {children : List Node} (h : converter.AllShown children) :
    Yields (do
      if children.isEmpty then return []
      else return [← assembled (Node.documentAround converter.source children)])
      converter.AllShown := by
  split
  · exact yields_pure allShown_nil
  · refine Yields.bind (Q := converter.Shown) (yields_assembled fun node hnode ↦ ?_)
      fun _ hshown ↦ yields_pure (allShown_nil.cons hshown)
    exact shown_documentAround (fun child hchild ↦ (h child hchild).1) hnode

/-- The node of a cell whose text was found: it covers the leaf that holds the text, or it stands
around the blocks of a document of its own, which it may not cover. -/
theorem yields_cell {text : Text} {window : Window} {location : Location} {children : List Node}
    (hfound : converter.locator.find? false text.lines window = some location)
    (h : converter.AllShown children ∨
      ∃ leaf, Node.str converter.source text location = .ok leaf ∧ children = [leaf]) :
    Yields (do return some (← assembled
      (Node.located converter.source .tableCell text location children)))
      converter.MaybeShown := by
  refine Yields.bind (Q := converter.Shown) (yields_assembled fun node hnode ↦ ?_)
    fun _ hshown ↦ yields_pure (maybeShown_some hshown)
  obtain ⟨range, hrange, rfl⟩ := located_eq_ok hnode
  rcases h with hblocks | ⟨leaf, hleaf, rfl⟩
  · exact ⟨.cell hfound (fun child hchild ↦ (hblocks child hchild).1)
      (fun child hchild ↦ (hblocks child hchild).2) hrange, nofun⟩
  · rw [← Text.unlines_lines text] at hleaf
    obtain ⟨hbuilt, hlocation⟩ := built_str hfound hleaf
    refine ⟨.cover rfl (by nofun) (fun child hchild ↦ ?_) ?_ hrange, nofun⟩
    · rw [List.mem_singleton.mp hchild]
      exact hbuilt
    · rw [List.map_singleton, hlocation]
      rfl

end Simple

/-- The nodes of some siblings stand for elements, wherever the last one of them ends. -/
def FirstShown (converter : Converter) (result : List Node × Option Position) : Prop :=
  converter.AllShown result.1

mutual

/-- Every node of an element is built from spans that a search found. -/
theorem yields_convertElement (window : Window) (element : Element) :
    Yields (converter.convertElement window element) converter.AllShown := by
  match element with
  | .document document => exact yields_convertDocument window document
  | .titledSection info level blocks =>
    rw [convertElement]
    refine (yields_convertTitle _ level window).bind fun title htitle ↦ ?_
    cases title with
    | none => exact yields_pure allShown_nil
    | some title =>
      exact (yields_convertId info.id window).bind fun id hid ↦
        (yields_convertBlocks window none blocks).bind fun nodes hnodes ↦
          yields_pure (hid.toList.append (hnodes.cons (htitle title rfl)))
  | .container info .preamble blocks =>
    rw [convertElement]
    exact yields_convertBlocks window none blocks
  | .container info .exampleBlock blocks =>
    rw [convertElement]
    exact yields_convertBlocks _ none blocks
  | .container info .quote blocks =>
    rw [convertElement]
    exact (yields_convertBlocks _ none blocks).bind fun nodes hnodes ↦
      yields_wrapped rfl (by nofun) hnodes
  | .container info .sidebar blocks =>
    rw [convertElement]
    exact (yields_convertBlocks _ none blocks).bind fun nodes hnodes ↦
      yields_wrappedWithTitle rfl (by nofun) hnodes
  | .paragraph info isLiteral lines =>
    rw [convertElement]
    exact yields_convertParagraph info lines window
  | .list info kind marker items =>
    rw [convertElement]
    exact (yields_convertItems _ _ none items).bind fun result hresult ↦
      yields_wrappedWithTitle rfl (by nofun) hresult
  | .listItem item =>
    rw [convertElement]
    exact yields_convertItem window item
  | .descriptionList info delimiter entries =>
    rw [convertElement]
    exact (yields_convertEntries _ none entries).bind fun result hresult ↦
      yields_wrappedWithTitle rfl (by nofun) hresult
  | .listing info lines language =>
    rw [convertElement]
    exact yields_convertListing info lines language window
  | .admonition info style lines blocks =>
    have hwrap : ∀ children, converter.AllShown children →
        Yields (converter.wrappedWithTitle (.admonition style) info children window)
          converter.AllShown := fun children ↦ yields_wrappedWithTitle rfl (by nofun)
    match blocks, lines with
    | first :: rest, _ => exact (yields_convertBlocks window none (first :: rest)).bind hwrap
    | [], (c :: first) :: rest => exact (yields_convertParagraphText _ window).bind hwrap
    | [], [] => exact Yields.bind (yields_throw _) hwrap
    | [], [] :: rest => exact Yields.bind (yields_throw _) hwrap
  | .table info columnCount headRows bodyRows =>
    rw [convertElement]
    refine (yields_convertBlockTitle info window).bind fun title htitle ↦
      (yields_convertTableAttributes info.attributes window).bind fun attributes hattributes ↦
        (yields_convertRows window.maxLine none headRows).bind fun head hhead ↦
          (yields_convertRows window.maxLine head.2 bodyRows).bind fun body hbody ↦ ?_
    exact yields_wrapped rfl (by nofun)
      (((htitle.toList.append hattributes.toList).append hhead).append hbody)
  | .image info target =>
    rw [convertElement]
    exact yields_convertImage info window
  | .tableOfContents info =>
    rw [convertElement]
    exact yields_convertTableOfContents info window
  | .header _ => exact yields_pure allShown_nil
  | .author _ => exact yields_pure allShown_nil
  | .tableCell _ => exact yields_pure allShown_nil
  | .unhandled _ _ => exact yields_pure allShown_nil

theorem yields_convertBlocks (window : Window) (lastEnd : Option Position)
    (blocks : List Element) :
    Yields (converter.convertBlocks window lastEnd blocks) converter.AllShown := by
  match blocks with
  | [] => exact yields_pure allShown_nil
  | element :: rest =>
    rw [convertBlocks.eq_def]
    exact (yields_convertElement _ element).bind fun nodes hnodes ↦
      (yields_trivial _).bind fun _ _ ↦
        (yields_convertBlocks window _ rest).bind fun others hothers ↦
          yields_pure (hnodes.append hothers)

theorem yields_convertItems (window : Window) (behind : Int) (lastEnd : Option Position)
    (items : List ListItem) :
    Yields (converter.convertItems window behind lastEnd items) converter.FirstShown := by
  match items with
  | [] => exact yields_pure allShown_nil
  | item :: rest =>
    rw [convertItems.eq_def]
    exact (yields_convertItem _ item).bind fun nodes hnodes ↦
      (yields_trivial _).bind fun _ _ ↦
        (yields_convertItems window behind _ rest).bind fun others hothers ↦
          yields_pure (hnodes.append hothers)

theorem yields_convertEntries (window : Window) (lastEnd : Option Position)
    (entries : List DescriptionEntry) :
    Yields (converter.convertEntries window lastEnd entries) converter.FirstShown := by
  match entries with
  | [] => exact yields_pure allShown_nil
  | ⟨terms, none⟩ :: rest =>
    rw [convertEntries]
    exact (yields_convertItems window _ lastEnd terms).bind fun nodes hnodes ↦
      (yields_convertEntries window _ rest).bind fun others hothers ↦
        yields_pure (hnodes.append hothers)
  | ⟨terms, some description⟩ :: rest =>
    rw [convertEntries]
    exact (yields_convertItems window _ lastEnd terms).bind fun nodes hnodes ↦
      (yields_convertItem _ description).bind fun described hdescribed ↦
        (yields_trivial _).bind fun _ _ ↦
          (yields_convertEntries window _ rest).bind fun others hothers ↦
            yields_pure ((hnodes.append hdescribed).append hothers)

theorem yields_convertItem (window : Window) (item : ListItem) :
    Yields (converter.convertItem window item) converter.AllShown := by
  match item with
  | ⟨info, text, checkbox, blocks⟩ =>
    have hattach : ∀ own, converter.AllShown own →
        Yields (do
          let attached ← converter.convertBlocks window none blocks
          converter.wrapped .listItem (own ++ attached)) converter.AllShown :=
      fun own hown ↦ (yields_convertBlocks window none blocks).bind fun attached hattached ↦
        yields_wrapped rfl (by nofun) (hown.append hattached)
    match text with
    | some (c :: rest) =>
      rw [convertItem]
      exact (yields_convertParagraphText _ window).bind hattach
    | some [] => exact (yields_pure allShown_nil).bind hattach
    | none => exact (yields_pure allShown_nil).bind hattach

theorem yields_convertRows (maxLine : Int) (lastEnd : Option Position)
    (rows : List (List TableCell)) :
    Yields (converter.convertRows maxLine lastEnd rows) converter.FirstShown := by
  match rows with
  | [] => exact yields_pure allShown_nil
  | [] :: rest =>
    rw [convertRows]
    exact yields_convertRows maxLine lastEnd rest
  | (first :: others) :: rest =>
    rw [convertRows]
    exact (yields_convertCells maxLine _ (first :: others)).bind fun cells hcells ↦
      (yields_wrapped rfl (by nofun) hcells).bind fun row hrow ↦
        (yields_convertRows maxLine _ rest).bind fun below hbelow ↦
          yields_pure (hrow.append hbelow)

theorem yields_convertCells (maxLine : Int) (lastEnd : Position) (cells : List TableCell) :
    Yields (converter.convertCells maxLine lastEnd cells) converter.AllShown := by
  match cells with
  | [] => exact yields_pure allShown_nil
  | cell :: rest =>
    rw [convertCells]
    refine (yields_convertCell _ cell).bind fun result hresult ↦ ?_
    cases result with
    | none => exact yields_convertCells maxLine lastEnd rest
    | some node =>
      exact (yields_convertCells maxLine _ rest).bind fun others hothers ↦
        yields_pure (hothers.cons (hresult node rfl))

theorem yields_convertCell (window : Window) (cell : TableCell) :
    Yields (converter.convertCell window cell) converter.MaybeShown := by
  match cell with
  | ⟨info, text, style, colspan, inner⟩ =>
    have hinner : ∀ document ∈ inner, ∀ window, Yields
        (converter.convertBlocks window none document.blocks) converter.AllShown := by
      intro document hdocument window
      match inner with
      | none => cases hdocument
      | some ⟨_, _, blocks⟩ =>
        cases hdocument
        exact yields_convertBlocks window none blocks
    rw [convertCell]
    refine (yields_find converter false text.lines window).bind fun found hfound ↦ ?_
    cases found with
    | none => exact yields_pure maybeShown_none
    | some location =>
      dsimp only
      split
      · exact (hinner _ rfl _).bind fun children hchildren ↦
          yields_cell hfound.symm (Or.inl hchildren)
      · refine Yields.bind
          (Q := fun leaf ↦ Node.str converter.source text location = .ok leaf)
          (yields_assembled fun leaf hleaf ↦ hleaf) fun leaf hleaf ↦ ?_
        exact (yields_cell hfound.symm (Or.inr ⟨leaf, hleaf, rfl⟩) : Yields _ _)

theorem yields_convertDocument (window : Window) (document : Document) :
    Yields (converter.convertDocument window document) converter.AllShown := by
  match document with
  | ⟨info, header, blocks⟩ =>
    rw [convertDocument]
    refine (yields_convertBlocks window none blocks).bind fun nodes hnodes ↦ ?_
    cases header with
    | none =>
      exact (yields_pure allShown_nil).bind fun head hhead ↦ yields_root (hhead.append hnodes)
    | some header =>
      exact (yields_convertHeader info.id header window).bind fun head hhead ↦
        yields_root (hhead.append hnodes)

end

/-- The root of a conversion is built from spans that a search found. -/
theorem yields_convertRoot (document : Document) :
    Yields (converter.convertRoot document) converter.Built := by
  rw [convertRoot]
  refine (yields_convertDocument _ document).bind fun nodes hnodes ↦
    (yields_trivial _).bind fun _ _ ↦ yields_pure ?_
  cases nodes with
  | nil => exact .empty
  | cons root rest => exact (hnodes root List.mem_cons_self).1

/-- The children of a document are those of its header and the nodes of its blocks. -/
theorem yields_children_convertDocument {P : List Node → Prop} {window : Window}
    {document : Document} (h : Yields (converter.convertBlocks window none document.blocks) P) :
    Yields (converter.convertDocument window document) fun roots ↦
      ∃ head nodes, (roots.headD Node.emptyDocument).children = head ++ nodes ∧ P nodes := by
  obtain ⟨info, header, blocks⟩ := document
  have hroot : ∀ head nodes : List Node, P nodes → Yields (do
      let children := head ++ nodes
      if children.isEmpty then return []
      else return [← assembled (Node.documentAround converter.source children)])
      fun roots ↦ ∃ head nodes,
        (roots.headD Node.emptyDocument).children = head ++ nodes ∧ P nodes := by
    intro head nodes hnodes
    dsimp only
    split
    · next hempty => exact yields_pure ⟨head, nodes, (List.isEmpty_iff.mp hempty).symm, hnodes⟩
    · refine (yields_assembled fun node hnode ↦ hnode).bind fun node hnode ↦
        yields_pure ⟨head, nodes, ?_, hnodes⟩
      obtain ⟨location, range, -, -, rfl⟩ := documentAround_eq_ok hnode
      rfl
  rw [convertDocument]
  refine h.bind fun nodes hnodes ↦ ?_
  cases header with
  | none => exact (yields_trivial _).bind fun head _ ↦ hroot head nodes hnodes
  | some header => exact (yields_trivial _).bind fun head _ ↦ hroot head nodes hnodes

/-- A document that is located is converted as the root of a tree. -/
theorem exists_convertRoot_of_locateDocument {settings : LooseSettings} {document : Document}
    {text : Text} {root : Node} (h : (locateDocument settings document text).1 = .ok root) :
    ∃ log, (ofText settings text).convertRoot document [] = .ok root log := by
  rw [locateDocument] at h
  split at h
  · next found log hroot =>
    cases h
    exact ⟨log, hroot⟩
  · cases h

/-- The tree of a text that is read is that of the document that it makes. -/
theorem locateText_of_ofText {settings : Settings} {text : Text} {document : Document}
    (h : (Document.ofText settings.commentMarker text).1 = .ok document) :
    (locateText settings.loosen text).1 =
      (locateDocument settings.loosen document text).1.mapError .conversion := by
  rw [locateText, Settings.marker?_loosen]
  dsimp only
  rw [← Prod.eta (Document.ofText settings.commentMarker text), h]

/-- The located tree of a text is the located tree of the document that was read from it. -/
theorem exists_document_of_locateText {settings : LooseSettings} {text : Text} {root : Node}
    (h : (locateText settings text).1 = .ok root) :
    ∃ marker document, settings.marker? = some marker ∧
      (Document.ofText marker text).1 = .ok document ∧
      (locateDocument settings document text).1 = .ok root := by
  rw [locateText] at h
  split at h
  · cases h
  · next marker hmarker =>
    split at h
    · cases h
    · next document _ hread =>
      refine ⟨marker, document, hmarker, by rw [hread], ?_⟩
      dsimp only at h
      cases hresult : (locateDocument settings document text).1 with
      | error cause =>
        rw [hresult] at h
        cases h
      | ok node =>
        rw [hresult] at h
        cases h
        rfl

/-- Every located tree is built from spans that a search found, whatever the document. -/
theorem built_of_locateDocument {settings : LooseSettings} {document : Document} {text : Text}
    {node : Node} (h : (locateDocument settings document text).1 = .ok node) :
    (ofText settings text).Built node := by
  obtain ⟨log, hroot⟩ := exists_convertRoot_of_locateDocument h
  exact yields_convertRoot document _ _ _ hroot

/-- What is made of a document is a document. -/
theorem yields_kind_convertDocument (window : Window) (document : Document) :
    Yields (converter.convertDocument window document)
      fun nodes ↦ ∀ node ∈ nodes, node.kind = .document := by
  have hroot : ∀ children : List Node, Yields (do
      if children.isEmpty then return []
      else return [← assembled (Node.documentAround converter.source children)])
      fun nodes ↦ ∀ node ∈ nodes, node.kind = .document := by
    intro children
    split
    · exact yields_pure nofun
    · refine Yields.bind (Q := fun node ↦ node.kind = .document)
        (yields_assembled fun node hnode ↦ ?_) fun node hkind ↦ yields_pure fun other hother ↦ ?_
      · obtain ⟨location, range, -, -, rfl⟩ := documentAround_eq_ok hnode
        rfl
      · rw [List.mem_singleton.mp hother, hkind]
  obtain ⟨info, header, blocks⟩ := document
  rw [convertDocument]
  refine (yields_trivial _).bind fun nodes _ ↦ ?_
  cases header with
  | none => exact (yields_trivial _).bind fun head _ ↦ hroot (head ++ nodes)
  | some header => exact (yields_trivial _).bind fun head _ ↦ hroot (head ++ nodes)

/-- The root of every located tree is a document. -/
theorem kind_of_locateDocument {settings : LooseSettings} {document : Document} {text : Text}
    {root : Node} (h : (locateDocument settings document text).1 = .ok root) :
    root.kind = .document := by
  have hkind : Yields ((ofText settings text).convertRoot document)
      fun root ↦ root.kind = .document := by
    rw [convertRoot]
    refine (yields_kind_convertDocument _ document).bind fun nodes hnodes ↦
      (yields_trivial _).bind fun _ _ ↦ yields_pure ?_
    cases nodes with
    | nil => rfl
    | cons root rest => exact hnodes root List.mem_cons_self
  obtain ⟨log, hroot⟩ := exists_convertRoot_of_locateDocument h
  exact hkind _ _ _ hroot

end AsciidocSpans.Converter
