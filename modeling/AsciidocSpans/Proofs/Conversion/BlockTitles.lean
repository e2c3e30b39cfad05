import AsciidocSpans.Proofs.Conversion.Traced
import AsciidocSpans.Proofs.Conversion.Verbatim
import AsciidocSpans.Proofs.Element.Preorder

/-!
Where block titles are located. A block title is looked for upwards from the line above the block's
window. That is the line above the block if the window around the block narrows to the lines of the
blocks in it, as it does in a document, a section, a sidebar, an item and a cell. Then the title on
the line directly above a block is shown at just that line, but for white space at its end, unless a
sibling was located on the first line of the block or beyond (`titlesLocated_of_locateText`).

The window of a quote or an example block does not narrow: the titles of the blocks in it are looked
for above the quote or the example as a whole. `mislocated_titles` has such blocks, and one behind a
sibling that was located on its first line.
-/

set_option autoImplicit false
set_option relaxedAutoImplicit false

namespace AsciidocSpans

/-- Whether an element shows its block title. -/
def Element.showsTitle : Element → Bool
  | .paragraph .. | .list .. | .descriptionList .. | .listing .. | .admonition .. | .table ..
  | .image .. | .container _ .sidebar _ => true
  | _ => false

/-- A line, given by what stands on it and the number of lines before it, is directly above an
element and gives the title of the element. -/
structure TitleAbove (marker : Text) (lines : List Text) (element : Element) (before : Nat)
    (raw : Text) : Prop where
  line : lines[before]? = some raw
  above : element.lineno = before + 2
  titled : ∃ title, element.info.title = some title ∧
    (Line.classify marker raw (before + 1)).shape = .blockTitle title

/-- A node is a block title at the whole of a line, but for white space at the end of the line. -/
structure TitlesLine (before : Nat) (line : Text) (node : Node) : Prop where
  kind : node.kind = .blockTitle
  raw : node.raw = Text.trimRight line
  location : node.location = linesSpan (before + 1) [Text.trimRight line]

/-- The nodes of a block show the title on the line directly above the block, if the window around
the block narrows and no sibling was located on the first line of the block or beyond. -/
def TitleLocated (marker : Text) (lines : List Text) (window : Window) (lastEnd : Option Position)
    (element : Element) (nodes : List Node) : Prop :=
  element.showsTitle = true → window.narrows = true → EndsBefore lastEnd element.lineno →
    ∀ before raw, TitleAbove marker lines element before raw →
      ∀ node ∈ nodes, ∃ child ∈ node.children, TitlesLine before raw child

namespace Locator

/-- A search before a window finds the line above the window, without the white space at its end, on
just that line. -/
theorem findBackTo?_of_lineAbove {locator : Locator} {verbatim : Bool} {window : Window}
    {highest : Int} {before : Nat} {raw : Text} (hline : locator.source.lines[before]? = some raw)
    (hkept : locator.skips verbatim raw = false) (hminLine : window.minLine = before + 2)
    (hcolumn : window.startColumn = 0) (hhighest : highest ≤ before + 1) :
    locator.findBackTo? verbatim [Text.trimRight raw] window highest =
      some (linesSpan (before + 1) [Text.trimRight raw]) := by
  obtain ⟨count, hcount⟩ : ∃ count, (window.minLine - highest).toNat = count + 1 :=
    ⟨((before : Int) + 1 - highest).toNat, by omega⟩
  have hfound : locator.find? verbatim ([raw].map Text.trimRight)
      (windowFrom (window.minLine - 1) window) =
        some (linesSpan (before + 1) ([raw].map Text.trimRight)) := by
    refine find?_of_parts Text.isPrefix_trimRight (drop_eq_cons hline) (List.cons_ne_nil raw [])
      (fun line hmem ↦ List.mem_singleton.mp hmem ▸ hkept) ?_ ?_ hcolumn
    · rw [windowFrom, hminLine]
      dsimp only
      omega
    · rw [windowFrom, hminLine, List.length_singleton]
      push_cast
      omega
  rw [List.map_singleton] at hfound
  rw [findBackTo?, hcount, searchUp?, hfound]

end Locator

namespace Converter

section Searches

variable {settings : Settings} {text : Text} {element : Element} {window : Window} {before : Nat}
  {raw : Text}

/-- The line of a title is no comment, provided that the marker holds no carriage return. -/
theorem skips_titleAbove (hreturn : '\r' ∉ settings.commentMarker)
    (h : TitleAbove settings.commentMarker text.lines element before raw) (verbatim : Bool) :
    (ofText settings.loosen text).locator.skips verbatim raw = false := by
  obtain ⟨title, -, hshape⟩ := h.titled
  have hnot : ¬ settings.commentMarker <+: raw :=
    Line.not_isPrefix_of_not_isPassedOver hreturn (by rw [hshape]; rfl)
  exact skips_of_not_isPrefix (Settings.marker?_loosen settings) hnot verbatim

/-- The title on the line directly above an element is found from the start of the element's line
on. -/
theorem yields_titlesLine (hreturn : '\r' ∉ settings.commentMarker)
    (hlookback : 1 ≤ settings.titleLookback)
    (h : TitleAbove settings.commentMarker text.lines element before raw)
    (hminLine : window.minLine = element.lineno) (hcolumn : window.startColumn = 0) :
    Yields ((ofText settings.loosen text).convertBlockTitle element.info window) fun result ↦
      ∃ title, result = some title ∧ TitlesLine before raw title := by
  obtain ⟨title, htitle, hshape⟩ := h.titled
  obtain ⟨hsome, hraw⟩ := Line.trimRight_eq_of_blockTitle hshape
  obtain ⟨c, rest, rfl⟩ := List.exists_cons_of_ne_nil hsome
  have hhighest : window.highestLine settings.titleLookback ≤ before + 1 := by
    rw [Window.highestLine, hminLine, h.above]
    omega
  have hfound := Locator.findBackTo?_of_lineAbove h.line (skips_titleAbove hreturn h false)
    (hminLine.trans h.above) hcolumn hhighest
  have hsearch : Yields ((ofText settings.loosen text).locateBefore ['.' :: c :: rest] window
      (ofText settings.loosen text).settings.titleLookback) fun found ↦
        found = some (linesSpan (before + 1) [Text.trimRight raw]) := by
    have hlast : (ofText settings.loosen text).settings.titleLookback.highestLine? window =
        some (window.highestLine settings.titleLookback) := rfl
    rw [locateBefore, hlast, usable, pure_bind]
    refine (yields_trivial _).bind fun _ _ ↦ ?_
    rw [← hraw, hfound]
    exact yields_pure rfl
  rw [convertBlockTitle, htitle]
  refine hsearch.bind fun found hlocation ↦ ?_
  rw [hlocation]
  refine (yields_assembled fun node hnode ↦ hnode).bind fun node hnode ↦ yields_pure ?_
  obtain ⟨range, leaf, -, -, rfl⟩ := aroundText_eq_ok hnode
  exact ⟨_, rfl, rfl, hraw.symm, rfl⟩

end Searches

section Nodes

variable {converter : Converter} {info : ElementInfo} {window : Window} {P : Node → Prop}

/-- Each of some nodes has a child that satisfies `P`. -/
def ShowChild (P : Node → Prop) (nodes : List Node) : Prop :=
  ∀ node ∈ nodes, ∃ child ∈ node.children, P child

theorem showChild_nil : ShowChild P [] := by
  intro node hnode
  cases hnode

theorem showChild_singleton {node child : Node} (hchild : child ∈ node.children) (h : P child) :
    ShowChild P [node] := by
  intro other hother
  rw [List.mem_singleton.mp hother]
  exact ⟨child, hchild, h⟩

theorem showChild_wrapped (kind : NodeKind) {children : List Node} {child : Node}
    (hchild : child ∈ children) (h : P child) :
    Yields (converter.wrapped kind children) (ShowChild P) := by
  rw [wrapped]
  split
  · exact yields_pure showChild_nil
  · refine (yields_assembled fun node hnode ↦ hnode).bind fun node hnode ↦ yields_pure ?_
    obtain ⟨span, range, -, -, rfl⟩ := around_eq_ok hnode
    exact showChild_singleton hchild h

variable (htitle : Yields (converter.convertBlockTitle info window) fun result ↦
  ∃ title, result = some title ∧ P title)

include htitle

/-- A paragraph has its title among its children. -/
theorem showChild_convertParagraph (lines : List Text) :
    Yields (converter.convertParagraph info lines window) (ShowChild P) := by
  rw [convertParagraph]
  refine (yields_trivial _).bind fun found _ ↦ ?_
  cases found with
  | none => exact yields_pure showChild_nil
  | some location =>
    refine htitle.bind fun result hresult ↦ (yields_trivial _).bind fun leaf _ ↦
      (yields_assembled fun node hnode ↦ hnode).bind fun node hnode ↦ yields_pure ?_
    obtain ⟨title, rfl, h⟩ := hresult
    obtain ⟨span, range, -, -, rfl⟩ := around_eq_ok hnode
    exact showChild_singleton List.mem_cons_self h

/-- A listing has its title among its children. -/
theorem showChild_convertListing (lines : List Text) (language : Option Text) :
    Yields (converter.convertListing info lines language window) (ShowChild P) := by
  rw [convertListing]
  refine (yields_trivial _).bind fun found _ ↦ ?_
  cases found with
  | none => exact yields_pure showChild_nil
  | some location =>
    refine htitle.bind fun result hresult ↦
      (yields_assembled fun node hnode ↦ hnode).bind fun node hnode ↦ yields_pure ?_
    obtain ⟨title, rfl, h⟩ := hresult
    obtain ⟨range, -, rfl⟩ := located_eq_ok hnode
    exact showChild_singleton List.mem_cons_self h

/-- An image has its title among its children. -/
theorem showChild_convertImage : Yields (converter.convertImage info window) (ShowChild P) := by
  rw [convertImage]
  refine (yields_trivial _).bind fun raw _ ↦ (yields_trivial _).bind fun found _ ↦ ?_
  cases found with
  | none => exact yields_pure showChild_nil
  | some location =>
    refine htitle.bind fun result hresult ↦ (yields_trivial _).bind fun attributes _ ↦
      (yields_trivial _).bind fun leaf _ ↦
        (yields_assembled fun node hnode ↦ hnode).bind fun node hnode ↦ yields_pure ?_
    obtain ⟨title, rfl, h⟩ := hresult
    obtain ⟨span, range, -, -, rfl⟩ := around_eq_ok hnode
    exact showChild_singleton List.mem_cons_self h

/-- A sidebar, a list and an admonition have their title among their children. -/
theorem showChild_wrappedWithTitle (kind : NodeKind) (children : List Node) :
    Yields (converter.wrappedWithTitle kind info children window) (ShowChild P) := by
  rw [wrappedWithTitle]
  split
  · exact yields_pure showChild_nil
  · refine htitle.bind fun result hresult ↦
      (yields_assembled fun node hnode ↦ hnode).bind fun node hnode ↦ yields_pure ?_
    obtain ⟨title, rfl, h⟩ := hresult
    obtain ⟨span, range, -, -, rfl⟩ := around_eq_ok hnode
    exact showChild_singleton List.mem_cons_self h

/-- A table has its title among its children. -/
theorem showChild_table (columnCount : Nat) (headRows bodyRows : List (List TableCell)) :
    Yields (converter.convertElement window (.table info columnCount headRows bodyRows))
      (ShowChild P) := by
  rw [convertElement]
  refine htitle.bind fun result hresult ↦ (yields_trivial _).bind fun attributes _ ↦
    (yields_trivial _).bind fun head _ ↦ (yields_trivial _).bind fun body _ ↦ ?_
  obtain ⟨title, rfl, h⟩ := hresult
  exact showChild_wrapped .table List.mem_cons_self h

omit htitle

/-- Every element that shows its title has it among its children. -/
theorem showChild_convertElement {element : Element} (hshows : element.showsTitle = true)
    (htitle : Yields (converter.convertBlockTitle element.info window) fun result ↦
      ∃ title, result = some title ∧ P title) :
    Yields (converter.convertElement window element) (ShowChild P) := by
  match element with
  | .paragraph info isLiteral lines =>
    rw [convertElement]
    exact showChild_convertParagraph htitle lines
  | .listing info lines language =>
    rw [convertElement]
    exact showChild_convertListing htitle lines language
  | .image info target =>
    rw [convertElement]
    exact showChild_convertImage htitle
  | .container info .sidebar blocks =>
    rw [convertElement]
    exact (yields_trivial _).bind fun children _ ↦ showChild_wrappedWithTitle htitle _ children
  | .list info kind marker items =>
    rw [convertElement]
    exact (yields_trivial _).bind fun result _ ↦ showChild_wrappedWithTitle htitle _ result.1
  | .descriptionList info delimiter entries =>
    rw [convertElement]
    exact (yields_trivial _).bind fun result _ ↦ showChild_wrappedWithTitle htitle _ result.1
  | .admonition info style lines blocks =>
    match blocks, lines with
    | first :: rest, _ =>
      exact (yields_trivial _).bind fun children _ ↦ showChild_wrappedWithTitle htitle _ children
    | [], (c :: first) :: rest =>
      exact (yields_trivial _).bind fun children _ ↦ showChild_wrappedWithTitle htitle _ children
    | [], [] => exact Yields.bind (yields_throw _) fun _ (h : False) ↦ h.elim
    | [], [] :: rest => exact Yields.bind (yields_throw _) fun _ (h : False) ↦ h.elim
  | .table info columnCount headRows bodyRows =>
    exact showChild_table htitle columnCount headRows bodyRows

end Nodes

section Trees

variable {settings : Settings} {text : Text}

/-- Every block by itself shows the title that stands on the line directly above it. -/
theorem titleLocated_convertElement (hreturn : '\r' ∉ settings.commentMarker)
    (hlookback : 1 ≤ settings.titleLookback) :
    HoldsOfBlocks (ofText settings.loosen text)
      (TitleLocated settings.commentMarker text.lines) := by
  intro window following lastEnd element s nodes s' hrun hshows hnarrows hbefore before raw habove
  exact showChild_convertElement hshows (yields_titlesLine hreturn hlookback habove
    (minLine_siblingWindow hnarrows hbefore.endsBy) (startColumn_siblingWindow hnarrows hbefore))
      s nodes s' hrun

/-- Throughout the located tree of every text, the blocks in windows that narrow show the titles
that stand on the lines directly above them. -/
theorem titlesLocated_of_locateText {root : Node} (hreturn : '\r' ∉ settings.commentMarker)
    (hlookback : 1 ≤ settings.titleLookback)
    (h : (locateText settings.loosen text).1 = .ok root) :
    ∃ document head nodes, (Document.ofText settings.commentMarker text).1 = .ok document ∧
      root.children = head ++ nodes ∧
      TracedAll (ofText settings.loosen text) (TitleLocated settings.commentMarker text.lines)
        { minLine := 1, maxLine := text.lines.length } none document.blocks nodes := by
  obtain ⟨marker, document, head, nodes, hmarker, hread, hchildren, hnodes⟩ :=
    traced_of_locateText (titleLocated_convertElement hreturn hlookback) h
  cases hmarker
  exact ⟨document, head, nodes, hread, hchildren, hnodes⟩

/-- The lines and the titles of the elements of a text that have a block title to show. -/
def titledLines (text : Text) : Option (List (Int × Text)) :=
  (Document.ofText Settings.default.commentMarker text).1.toOption.map fun document ↦
    ((Element.document document).preorder.filter (·.showsTitle)).filterMap fun element ↦
      element.info.title.map (element.lineno, ·)

/-- The texts and the spans of the block titles in the located tree of a text. -/
def titleSpans (text : Text) : Option (List (Text × Location)) :=
  (locateText Settings.default.loosen text).1.toOption.map fun root ↦
    (root.nodes.filter (·.kind == .blockTitle)).map fun node ↦ (node.raw, node.location)

/-- Titles of a list in a section, a paragraph in an item, a listing in a sidebar, a paragraph in an
item of a quote, and a paragraph in a cell. -/
theorem titlesLocated_nestedBlocks :
    let text : Text := ("== s\n\n.T \n* a\n+\n.U\nx\n\n****\n.V\n----\ny\n----\n****\n\n" ++
      "____\n* b\n+\n.W\nz\n____\n\n|===\na|x\n\n.S\ny\n|===").toList
    ('\r' ∉ Settings.default.commentMarker ∧ 1 ≤ Settings.default.titleLookback) ∧
    titledLines text = some [(4, "T".toList), (7, "U".toList), (11, "V".toList),
      (20, "W".toList), (27, "S".toList)] ∧
    titleSpans text = some [(".T".toList, ⟨⟨3, 0⟩, ⟨3, 2⟩⟩), (".U".toList, ⟨⟨6, 0⟩, ⟨6, 2⟩⟩),
      (".V".toList, ⟨⟨10, 0⟩, ⟨10, 2⟩⟩), (".W".toList, ⟨⟨19, 0⟩, ⟨19, 2⟩⟩),
      (".S".toList, ⟨⟨26, 0⟩, ⟨26, 2⟩⟩)] ∧
    ∃ root, (locateText Settings.default.loosen text).1 = .ok root ∧
      ∃ document head nodes,
        (Document.ofText Settings.default.commentMarker text).1 = .ok document ∧
        root.children = head ++ nodes ∧
        TracedAll (ofText Settings.default.loosen text)
          (TitleLocated Settings.default.commentMarker text.lines)
          { minLine := 1, maxLine := text.lines.length } none document.blocks nodes := by
  intro text
  have hreturn : '\r' ∉ Settings.default.commentMarker := by decide
  have hlookback : 1 ≤ Settings.default.titleLookback := by decide
  obtain ⟨root, hroot, -⟩ := exists_of_okAnd (show okAnd
    (locateText Settings.default.loosen text).1 (fun _ ↦ true) = true by decide +kernel)
  exact ⟨⟨hreturn, hlookback⟩, by decide +kernel, by decide +kernel, root, hroot,
    titlesLocated_of_locateText hreturn hlookback hroot⟩

/-- Titles that are not located on the line directly above a block: those of the blocks in an
example and in a quote are not found, and behind a literal block that was located on the first line
of a list, the title of the list is found in the list. -/
theorem mislocated_titles :
    let inExample : Text := "====\n.b\nx\n====".toList
    let inQuote : Text := "____\n.b\nx\n____".toList
    let behindSibling : Text := "....\n// x\n....\n.b\na // x:: d.b".toList
    (Line.classify "//".toList ".b".toList 2).shape = .blockTitle "b".toList ∧
    (inExample.lines[1]? = some ".b".toList ∧ titledLines inExample = some [(3, "b".toList)] ∧
      shownSpans inExample = some [⟨⟨3, 0⟩, ⟨3, 1⟩⟩] ∧ titleSpans inExample = some []) ∧
    (inQuote.lines[1]? = some ".b".toList ∧ titledLines inQuote = some [(3, "b".toList)] ∧
      shownSpans inQuote = some [⟨⟨3, 0⟩, ⟨3, 1⟩⟩] ∧ titleSpans inQuote = some []) ∧
    behindSibling.lines[3]? = some ".b".toList ∧
      titledLines behindSibling = some [(5, "b".toList)] ∧
      shownSpans behindSibling =
        some [⟨⟨5, 2⟩, ⟨5, 6⟩⟩, ⟨⟨5, 0⟩, ⟨5, 6⟩⟩, ⟨⟨5, 9⟩, ⟨5, 12⟩⟩] ∧
      titleSpans behindSibling = some [(".b".toList, ⟨⟨5, 10⟩, ⟨5, 12⟩⟩)] := by
  decide +kernel

end Trees

end Converter

end AsciidocSpans
