import AsciidocSpans.Proofs.Conversion.Located

/-!
Running text is located. Elements that are laid out on lines of their own are found on these lines,
each in its turn: `succeeds_convertElement` and the theorems beside it go through elements, blocks,
items and entries together. What carries the induction is that the end of the sibling located last
never lies beyond the position at which the next sibling may stand (`Reached`). So no element takes
the text of another one, and every element finds its own.

With what the reader lays out (`Blocks.exists_laidDocument`) this gives `located_of_prose`: in a
text without delimited blocks, tables, macros, admonitions and attribute lists, nothing that the
document says is lost or misplaced.
-/

set_option autoImplicit false
set_option relaxedAutoImplicit false

namespace AsciidocSpans.Converter

open Blocks

variable {settings : Settings} {text : Text}

section Bounds

variable {marker : Text} {lines : List Text} {first stop : Position} {behind : Int}

/-- An item stands on its line or behind the position from which it is laid out. -/
theorem le_of_laidItem {item : ListItem} (h : LaidItem marker lines first stop item) :
    first ≤ ⟨item.info.lineno + 1, 0⟩ := by
  obtain ⟨info, shown, checkbox, blocks⟩ := item
  obtain ⟨own, column, -, -, hlineno, -, hfirst, -⟩ := h
  refine Position.le_trans hfirst (Position.le_of_line_lt ?_)
  change (own : Int) + 1 < info.lineno + 1
  omega

/-- Lines end before the end of a window that reaches as far. -/
theorem lineStart_le_of_opens {window : Window} {own start last : Nat}
    (h : Opens window own start last) : lineStart last ≤ ⟨window.maxLine + 1, 0⟩ := by
  have hmax := h.maxLine
  rw [Position.le_iff, lineStart]
  dsimp only
  omega

/-- Items are laid out before the end of the line of the first one, if there is one. -/
theorem le_of_laidEntries {entries : List DescriptionEntry}
    (h : LaidEntries marker lines first stop entries) (hstop : stop ≤ ⟨behind + 1, 0⟩) :
    first ≤ ⟨firstItemLine behind entries + 1, 0⟩ := by
  match entries with
  | [] => exact Position.le_trans h hstop
  | ⟨term :: terms, none⟩ :: rest =>
    obtain ⟨middle, -, ⟨_, hterm, -⟩, -⟩ := h
    exact le_of_laidItem hterm
  | ⟨term :: terms, some description⟩ :: rest =>
    obtain ⟨before, middle, -, ⟨_, hterm, -⟩, -⟩ := h
    exact le_of_laidItem hterm
  | ⟨[], none⟩ :: rest =>
    obtain ⟨_, hterms, -⟩ := h
    exact absurd rfl hterms
  | ⟨[], some description⟩ :: rest =>
    obtain ⟨_, _, hterms, -⟩ := h
    exact absurd rfl hterms

end Bounds

section Steps

variable (converter : Converter) (window : Window)

/-- The nodes of the text of an item. -/
def convertItemText : Option Text → Conversion (List Node)
  | some (c :: rest) => converter.convertParagraphText (c :: rest) window
  | _ => return []

theorem convertItem_eq (info : ElementInfo) (shown : Option Text) (checkbox : Option Checkbox)
    (blocks : List Element) :
    converter.convertItem window ⟨info, shown, checkbox, blocks⟩ = (do
      let own ← converter.convertItemText window shown
      let attached ← converter.convertBlocks window none blocks
      converter.wrapped .listItem (own ++ attached)) := by
  match shown with
  | none => rfl
  | some [] => rfl
  | some (c :: rest) => rfl

end Steps

theorem succeeds_reportOmission (element : Element) (nodes : List Node) :
    Succeeds (reportOmission element nodes) fun _ ↦ True := by
  rw [reportOmission]
  split
  · exact succeeds_report _ _
  · exact succeeds_pure trivial

/-- The text of an item is located on its own line, if it has any. -/
theorem succeeds_itemText {window : Window} {own column start stop : Nat} {info : ElementInfo}
    {shown : Option Text} (hlineno : info.lineno = own + 1) (hstop : own < stop)
    (hwritten : ∀ segment, shown = some segment → segment ≠ [] →
      Written settings.commentMarker text.lines own column stop segment.lines)
    (hopens : Opens window own start stop) (hcolumn : start ≤ column) :
    Succeeds ((ofText settings.loosen text).convertItemText window shown) fun nodes ↦ ∃ high,
        Located text ⟨own + 1, start⟩ high (Element.ownTextOfItem info shown) nodes ∧
        high ≤ lineStart stop ∧
        ∀ segment, shown = some segment → segment ≠ [] → segment.lines = [segment] →
          Tight high nodes ∧ high ≤ ⟨own + 1, (column + segment.length : Nat)⟩ := by
  have hnext : (⟨own + 1, start⟩ : Position) ≤ lineStart stop := by
    refine Position.le_of_line_lt ?_
    rw [lineStart]
    dsimp only
    omega
  cases shown with
  | none => exact succeeds_pure ⟨_, located_nil (Position.le_refl _), hnext, by simp⟩
  | some item =>
    cases item with
    | nil =>
      refine succeeds_pure ⟨_, located_nil (Position.le_refl _), hnext, ?_⟩
      intro segment heq hne
      cases heq
      exact absurd rfl hne
    | cons c rest =>
      refine (succeeds_convertParagraphText (hwritten _ rfl (List.cons_ne_nil _ _)) hopens
        hcolumn).mono fun nodes hnodes ↦ ?_
      obtain ⟨node, rfl, hline, hlocated, hsingle⟩ := hnodes
      refine ⟨node.location.stop, ?_, ?_, ?_⟩
      · rw [Element.ownTextOfItem, hlineno]
        exact hlocated
      · exact Position.le_of_line_lt (Int.lt_add_one_of_le hline)
      · intro segment heq hne hlines
        cases heq
        exact ⟨Or.inr ⟨node, rfl, rfl⟩, hsingle hlines⟩

mutual

/-- Elements that are laid out are located, from their own line to where they end. -/
theorem succeeds_convertElement {own stop : Nat} (element : Element) (window : Window)
    (hlaid : Laid settings.commentMarker text.lines own stop element) (hstop : own < stop)
    (hkept : Kept settings.commentMarker text.lines own) (hlineno : element.lineno = own + 1)
    (hopens : Opens window own 0 stop) :
    Succeeds ((ofText settings.loosen text).convertElement window element) fun nodes ↦
      Located text (lineStart own) (lineStart stop) element.ownTexts nodes := by
  have hline : (own : Int) + 1 < (lineStart stop).line := by
    rw [lineStart]
    dsimp only
    omega
  match element with
  | .document _ => exact hlaid.elim
  | .header _ => exact hlaid.elim
  | .author _ => exact hlaid.elim
  | .listItem _ => exact hlaid.elim
  | .listing .. => exact hlaid.elim
  | .admonition .. => exact hlaid.elim
  | .table .. => exact hlaid.elim
  | .tableCell _ => exact hlaid.elim
  | .image .. => exact hlaid.elim
  | .tableOfContents _ => exact hlaid.elim
  | .container _ .exampleBlock _ => exact hlaid.elim
  | .container _ .quote _ => exact hlaid.elim
  | .container _ .sidebar _ => exact hlaid.elim
  | .unhandled .. =>
    rw [convertElement]
    refine succeeds_pure (located_nil ?_)
    exact lineStart_le_lineStart.mpr (Nat.le_of_lt hstop)
  | .titledSection info level blocks =>
    obtain ⟨⟨column, hwritten⟩, hblocks⟩ := hlaid
    rw [convertElement, Element.ownTexts, show info.lineno = own + 1 from hlineno]
    refine (succeeds_convertTitle hwritten hopens hstop level).bind fun title htitle ↦ ?_
    obtain ⟨node, rfl, hlocated⟩ := htitle
    refine (succeeds_convertId hkept hopens.minLine info.id).bind fun id hid ↦ ?_
    refine (succeeds_convertBlocks blocks window none hblocks hopens.narrows hopens.maxLine
      reached_none).bind fun nodes hnodes ↦ succeeds_pure ?_
    exact (hlocated.append hnodes).behind_asides
      (fun node hnode ↦ hid node (Option.mem_toList.mp hnode)) hline
  | .container info .preamble blocks =>
    rw [convertElement, Element.ownTexts]
    exact succeeds_convertBlocks blocks window none hlaid hopens.narrows hopens.maxLine
      reached_none
  | .paragraph info isLiteral segments =>
    obtain ⟨column, hwritten⟩ := hlaid
    rw [convertElement, Element.ownTexts, show info.lineno = own + 1 from hlineno]
    exact succeeds_convertParagraph hwritten hkept hopens info
  | .list info kind marker items =>
    rw [convertElement, Element.ownTexts]
    have hmax := lineStart_le_of_opens hopens
    refine (succeeds_convertItems items (window.withNarrowing true) window.maxLine none hlaid rfl
      reached_none (Position.le_refl _) hmax).bind fun result hresult ↦ ?_
    obtain ⟨high, hhigh, hlocated, -⟩ := hresult
    exact succeeds_wrappedWithTitle hkept hopens.minLine hline rfl (hlocated.mono_high hhigh) info
  | .descriptionList info delimiter entries =>
    rw [convertElement, Element.ownTexts]
    have hmax := lineStart_le_of_opens hopens
    refine (succeeds_convertEntries entries (window.withNarrowing true) none hlaid rfl
      reached_none (Position.le_refl _) hmax).bind fun result hresult ↦ ?_
    obtain ⟨high, hhigh, hlocated, -⟩ := hresult
    exact succeeds_wrappedWithTitle hkept hopens.minLine hline rfl (hlocated.mono_high hhigh) info

theorem succeeds_convertBlocks {first stop : Nat} (blocks : List Element) (window : Window)
    (lastEnd : Option Position)
    (hlaid : LaidAll settings.commentMarker text.lines first stop blocks)
    (hnarrows : window.narrows = true) (hmax : (stop : Int) ≤ window.maxLine)
    (hreached : Reached lastEnd (lineStart first)) :
    Succeeds ((ofText settings.loosen text).convertBlocks window lastEnd blocks) fun nodes ↦
      Located text (lineStart first) (lineStart stop) (Element.ownTextsOf blocks) nodes := by
  match blocks with
  | [] => exact succeeds_pure (located_nil (lineStart_le_lineStart.mpr hlaid))
  | element :: rest =>
    obtain ⟨own, middle, hfirst, hown, hkept, hlineno, helement, hrest⟩ := hlaid
    rw [convertBlocks_cons, Element.ownTextsOf]
    have hfollowing : (middle : Int) ≤ (rest.map (·.lineno)).headD window.maxLine := by
      cases rest with
      | nil => exact Int.le_trans (Int.ofNat_le.mpr hrest) hmax
      | cons next others =>
        obtain ⟨after, _, hafter, -, -, hnext, -⟩ := hrest
        rw [List.map_cons, List.headD_cons]
        omega
    have hplace : lineStart first ≤ ⟨own + 1, (0 : Nat)⟩ := lineStart_le_lineStart.mpr hfirst
    obtain ⟨start, hopens, -, hstart, -⟩ := exists_opens_siblingWindow hreached hplace hnarrows
      (Int.le_trans (Int.ofNat_le.mpr hown) hfollowing) hfollowing
    rw [Nat.le_zero.mp hstart] at hopens
    rw [hlineno]
    refine (succeeds_convertElement element _ helement hown hkept hlineno hopens).bind
      fun nodes hnodes ↦ (succeeds_reportOmission element nodes).bind fun _ _ ↦ ?_
    have hnodes : Located text (lineStart first) (lineStart middle) element.ownTexts nodes :=
      hnodes.mono_low (lineStart_le_lineStart.mpr hfirst)
    exact (succeeds_convertBlocks rest window _ hrest hnarrows hmax
      (hreached.behind hnodes (Or.inl rfl))).bind fun others hothers ↦
        succeeds_pure (hnodes.append hothers)

theorem succeeds_convertItems {first stop low : Position} (items : List ListItem)
    (window : Window) (behind : Int) (lastEnd : Option Position)
    (hlaid : LaidItems settings.commentMarker text.lines first stop items)
    (hnarrows : window.narrows = true) (hreached : Reached lastEnd low) (hlow : low ≤ first)
    (hstop : stop ≤ ⟨behind + 1, 0⟩) :
    Succeeds ((ofText settings.loosen text).convertItems window behind lastEnd items)
      fun result ↦ ∃ high, high ≤ stop ∧
        Located text low high (Element.ownTextsOfItems items) result.1 ∧
        Reached result.2 high := by
  match items with
  | [] => exact succeeds_pure ⟨low, Position.le_trans hlow hlaid, located_nil (Position.le_refl _),
      hreached⟩
  | item :: rest =>
    obtain ⟨middle, hitem, hrest⟩ := hlaid
    rw [convertItems_cons, Element.ownTextsOfItems]
    have hfollowing : middle ≤ ⟨(rest.map (·.info.lineno)).headD behind + 1, 0⟩ := by
      cases rest with
      | nil => exact Position.le_trans hrest hstop
      | cons next others =>
        obtain ⟨_, hnext, -⟩ := hrest
        exact le_of_laidItem hnext
    refine (succeeds_convertItem item window _ lastEnd hitem hnarrows hreached hlow
      hfollowing).bind fun nodes hnodes ↦ (succeeds_reportOmission _ nodes).bind fun _ _ ↦ ?_
    obtain ⟨next, hnext, hlocated, hreached⟩ := hnodes
    refine (succeeds_convertItems rest window behind _ hrest hnarrows hreached hnext
      hstop).bind fun result hresult ↦ ?_
    obtain ⟨high, hhigh, hothers, hfinal⟩ := hresult
    exact succeeds_pure ⟨high, hhigh, hlocated.append hothers, hfinal⟩

theorem succeeds_convertEntries {first stop low : Position} (entries : List DescriptionEntry)
    (window : Window) (lastEnd : Option Position)
    (hlaid : LaidEntries settings.commentMarker text.lines first stop entries)
    (hnarrows : window.narrows = true) (hreached : Reached lastEnd low) (hlow : low ≤ first)
    (hstop : stop ≤ ⟨window.maxLine + 1, 0⟩) :
    Succeeds ((ofText settings.loosen text).convertEntries window lastEnd entries)
      fun result ↦ ∃ high, high ≤ stop ∧
        Located text low high (Element.ownTextsOfEntries entries) result.1 ∧
        Reached result.2 high := by
  match entries with
  | [] => exact succeeds_pure ⟨low, Position.le_trans hlow hlaid, located_nil (Position.le_refl _),
      hreached⟩
  | ⟨terms, none⟩ :: rest =>
    obtain ⟨middle, -, hterms, hrest⟩ := hlaid
    rw [convertEntries, Element.ownTextsOfEntries]
    refine (succeeds_convertItems terms window _ lastEnd hterms hnarrows hreached hlow
      (le_of_laidEntries hrest hstop)).bind fun result hresult ↦ ?_
    obtain ⟨next, hnext, hlocated, hreached⟩ := hresult
    refine (succeeds_convertEntries rest window _ hrest hnarrows hreached hnext
      hstop).bind fun result hresult ↦ ?_
    obtain ⟨high, hhigh, hothers, hfinal⟩ := hresult
    exact succeeds_pure ⟨high, hhigh, hlocated.append hothers, hfinal⟩
  | ⟨terms, some description⟩ :: rest =>
    obtain ⟨before, middle, -, hterms, hdescription, hrest⟩ := hlaid
    rw [convertEntries, Element.ownTextsOfEntries]
    refine (succeeds_convertItems terms window _ lastEnd hterms hnarrows hreached hlow
      (le_of_laidItem hdescription)).bind fun result hresult ↦ ?_
    obtain ⟨next, hnext, hlocated, hreached⟩ := hresult
    refine (succeeds_convertItem description window _ _ hdescription hnarrows hreached hnext
      (le_of_laidEntries hrest hstop)).bind fun described hdescribed ↦
        (succeeds_reportOmission _ described).bind fun _ _ ↦ ?_
    obtain ⟨second, hsecond, hbelow, hreached⟩ := hdescribed
    refine (succeeds_convertEntries rest window _ hrest hnarrows hreached hsecond
      hstop).bind fun result hresult ↦ ?_
    obtain ⟨high, hhigh, hothers, hfinal⟩ := hresult
    exact succeeds_pure ⟨high, hhigh, (hlocated.append hbelow).append hothers, hfinal⟩

theorem succeeds_convertItem {first stop low : Position} (item : ListItem)
    (window : Window) (following : Int) (lastEnd : Option Position)
    (hlaid : LaidItem settings.commentMarker text.lines first stop item)
    (hnarrows : window.narrows = true) (hreached : Reached lastEnd low) (hlow : low ≤ first)
    (hstop : stop ≤ ⟨following + 1, 0⟩) :
    Succeeds ((ofText settings.loosen text).convertItem
        (siblingWindow window item.info.lineno following lastEnd) item)
      fun nodes ↦ ∃ high, high ≤ stop ∧
        Located text low high (Element.ownTextsOfItem item) nodes ∧
        Reached (endOf lastEnd nodes) high := by
  obtain ⟨info, shown, checkbox, blocks⟩ := item
  obtain ⟨own, column, behind, last, hlineno, hkept, hfirst, hbehind, hwritten, hblocks, hend⟩ :=
    hlaid
  have hle := hblocks.le
  have hreach : (behind : Int) ≤ following := by
    rw [Position.le_iff] at hstop
    dsimp only at hstop
    rcases hend with hlast | ⟨segment, -, hne, -, -, heq, hlast⟩
    · rw [Position.le_iff, lineStart] at hlast
      dsimp only at hlast
      omega
    · have hpos := List.length_pos_iff.mpr hne
      rw [Position.le_iff] at hlast
      dsimp only at hlast
      omega
  obtain ⟨start, hopens, hmax, hstart, hlow⟩ := exists_opens_siblingWindow hreached
    (Position.le_trans hlow hfirst) hnarrows (by omega : (own : Int) + 1 ≤ following) hreach
  rw [convertItem_eq, Element.ownTextsOfItem, show info.lineno = own + 1 from hlineno]
  refine (succeeds_itemText hlineno hbehind hwritten hopens hstart).bind fun nodes hnodes ↦ ?_
  obtain ⟨middle, hlocated, hmiddle, hsingle⟩ := hnodes
  replace hlocated := hlocated.mono_low hlow
  rcases hend with hlast | ⟨segment, hshown, hne, hlines, rfl, -, hlast⟩
  · -- The item ends with a line, behind the blocks that are attached to it.
    have hmaxLine : (last : Int) ≤ (siblingWindow window (own + 1) following lastEnd).maxLine := by
      rw [hmax]
      rw [Position.le_iff] at hstop
      rw [Position.le_iff, lineStart] at hlast
      dsimp only at hstop hlast
      omega
    refine (succeeds_convertBlocks blocks _ none hblocks hopens.narrows hmaxLine
      reached_none).bind fun attached hattached ↦ ?_
    refine (succeeds_wrapped rfl ((hlocated.mono_high hmiddle).append hattached)).mono
      fun outer houter ↦ ⟨lineStart last, hlast, houter.1, ?_⟩
    exact hreached.behind houter.1 (Or.inl rfl)
  · -- The item is its text and nothing else.
    obtain ⟨htight, hhigh⟩ := hsingle segment hshown hne hlines
    refine Succeeds.bind (Q := (· = [])) (succeeds_pure rfl) fun attached hattached ↦ ?_
    rw [hattached, List.append_nil, Element.ownTextsOf, List.append_nil]
    refine (succeeds_wrapped rfl hlocated).mono fun outer houter ↦
      ⟨middle, Position.le_trans hhigh hlast, houter.1, ?_⟩
    exact hreached.behind houter.1 (houter.2 htight)

end

section Documents

/-- Text beside what elements say, wherever it is found. -/
theorem succeeds_convertText? (kind : NodeKind) (hkind : kind.showsOwnText = false)
    (hstr : kind ≠ .str) (value : Text) (window : Window) :
    Succeeds ((ofText settings.loosen text).convertText? kind value window)
      fun result ↦ ∀ node ∈ result, Aside text text.lines.length node := by
  rw [convertText?]
  refine (succeeds_find false [value] window).bind fun found hfound ↦ ?_
  cases found with
  | none => exact succeeds_pure (by simp)
  | some location =>
    have hspan : (Source.ofText text).HasSpan location := Locator.hasSpan_of_find? hfound.symm
    obtain ⟨range, hnode⟩ := exists_aroundText hspan kind value
    refine (succeeds_assembled (Q := Aside text text.lines.length) ⟨_, hnode,
      aside_aroundText hkind hstr hspan (Source.line_le_lineCount hspan.stop)⟩).bind
        fun node haside ↦ succeeds_pure fun other hother ↦ ?_
    cases hother
    exact haside

theorem succeeds_convertAuthorParts (author : Author) (column : Int) :
    Succeeds ((ofText settings.loosen text).convertAuthorParts author column)
      fun parts ↦ ∀ node ∈ parts, Aside text text.lines.length node := by
  rw [convertAuthorParts]
  refine (succeeds_convertText? .authorName rfl (by simp) author.name _).bind fun name hname ↦ ?_
  have hname : ∀ node ∈ name.toList, Aside text text.lines.length node :=
    fun node hnode ↦ hname node (Option.mem_toList.mp hnode)
  dsimp only
  split
  · next c rest _ =>
    refine (succeeds_convertText? .authorEmail rfl (by simp) (c :: rest) _).bind fun email hemail ↦
      succeeds_pure fun node hnode ↦ ?_
    rcases List.mem_append.mp hnode with hmem | hmem
    · exact hname node hmem
    · exact hemail node (Option.mem_toList.mp hmem)
  · exact succeeds_pure hname

/-- The authors stand beside what elements say. -/
theorem succeeds_convertAuthors (column : Int) (authors : List Author) :
    Succeeds ((ofText settings.loosen text).convertAuthors column authors)
      fun nodes ↦ ∀ node ∈ nodes, Aside text text.lines.length node := by
  induction authors generalizing column with
  | nil => exact succeeds_pure (by simp)
  | cons author rest ih =>
    rw [convertAuthors]
    refine (succeeds_convertAuthorParts author column).bind fun parts hparts ↦ ?_
    split
    · next last hlast =>
      have hne : parts ≠ [] := by
        rintro rfl
        cases hlast
      obtain ⟨location, range, hnode, hspan, child, hchild, hstop⟩ :=
        exists_around hne (fun node hnode ↦ (hparts node hnode).span) .author []
      have haside : Aside text text.lines.length (.mk .author [] location range parts) := by
        refine ⟨hspan, Source.line_le_lineCount hspan.stop, by rintro ⟨⟩, ?_⟩
        rw [Node.ownLeaves_mk, ownLeavesOf_asides hparts]
        rfl
      refine (succeeds_assembled (Q := Aside text text.lines.length) ⟨_, hnode, haside⟩).bind
        fun node haside ↦ (ih _).bind fun others hothers ↦ succeeds_pure fun other hother ↦ ?_
      rcases List.mem_cons.mp hother with rfl | hmem
      · exact haside
      · exact hothers other hmem
    · exact (succeeds_report _ _).bind fun _ _ ↦ ih column

/-- The header of a document shows the title of the document and nothing else. -/
theorem succeeds_convertHeader {own column first : Nat} {window : Window} {header : Header}
    (hwritten : Written settings.commentMarker text.lines own column (own + 1)
      [header.info.title.getD []])
    (hown : own < first) (hlineno : header.info.lineno = own + 1)
    (hmax : (own : Int) + 1 ≤ window.maxLine) (hnarrows : window.narrows = true)
    (id : Option Text) :
    Succeeds ((ofText settings.loosen text).convertHeader id header window) fun nodes ↦
      ∃ head authors, nodes = head ++ authors ∧
        Located text (lineStart own) (lineStart first)
          (Element.ownTextOfHeader (some header)) head ∧
        ∀ node ∈ authors, Aside text text.lines.length node := by
  have hopens : Opens (window.narrowed header.info.lineno none) own 0 (own + 1) :=
    ⟨hlineno, hmax, rfl, hnarrows⟩
  rw [convertHeader]
  refine (succeeds_convertId hwritten.kept hopens.minLine id).bind fun idNode hid ↦
    (succeeds_convertTitle hwritten hopens (Nat.lt_succ_self own) header.level).bind
      fun title htitle ↦ ?_
  obtain ⟨node, rfl, hlocated⟩ := htitle
  have hhead : Located text (lineStart own) (lineStart first)
      (Element.ownTextOfHeader (some header)) (idNode.toList ++ [node]) := by
    rw [Element.ownTextOfHeader, hlineno]
    refine (hlocated.mono_high (lineStart_le_lineStart.mpr hown)).behind_asides
      (fun node hnode ↦ hid node (Option.mem_toList.mp hnode)) ?_
    rw [lineStart]
    dsimp only
    omega
  split
  · exact (succeeds_convertAuthors 0 header.authors).bind fun authors hauthors ↦
      succeeds_pure ⟨_, authors, rfl, hhead, hauthors⟩
  · refine Succeeds.bind (Q := (· = [])) (succeeds_pure rfl) fun authors hauthors ↦
      succeeds_pure ⟨_, authors, rfl, hhead, ?_⟩
    rw [hauthors]
    exact nofun

/-- The document around some nodes shows what they show, also if there are none. -/
theorem succeeds_root {low high : Position} {owns : List OwnText} {children : List Node}
    (hspans : ∀ child ∈ children, (Source.ofText text).HasSpan child.location)
    (hplaced : Placed low high owns (Node.ownLeavesOf children)) :
    Succeeds (do
      if children.isEmpty then return []
      else return [← assembled (Node.documentAround (Source.ofText text) children)] :
        Conversion (List Node)) fun nodes ↦
      Placed low high owns (nodes.headD Node.emptyDocument).ownLeaves := by
  by_cases hnil : children = []
  · rw [hnil] at hplaced ⊢
    exact succeeds_pure hplaced
  · rw [if_neg (mt List.isEmpty_iff.mp hnil)]
    obtain ⟨location, hcovers, hspan, -⟩ := exists_coveringSpan hnil hspans
    obtain ⟨range, hrange⟩ := exists_range_of_hasSpan hspan
    refine (succeeds_assembled (Q := fun node ↦ Placed low high owns node.ownLeaves)
      ⟨.mk .document (text.slice range.1 range.2) location range children, ?_, ?_⟩).bind
        fun node hnode ↦ succeeds_pure hnode
    · simp only [Node.documentAround, hcovers, bind, Except.bind, hrange]
      rfl
    · rw [Node.ownLeaves_mk]
      exact hplaced

/-- What a document says is placed in its tree. -/
theorem succeeds_convertRoot {document : Document}
    (hlaid : LaidDocument settings.commentMarker text.lines document) :
    Succeeds ((ofText settings.loosen text).convertRoot document) fun root ↦
      ∃ low high, Placed low high document.ownTexts root.ownLeaves := by
  obtain ⟨info, header, blocks⟩ := document
  obtain ⟨first, stop, hstop, hblocks, hheader⟩ := hlaid
  have hmax : (stop : Int) ≤ text.lines.length := Int.ofNat_le.mpr hstop
  rw [convertRoot, convertDocument]
  refine Succeeds.bind (Q := fun nodes : List Node ↦ ∃ low high,
    Placed low high (Document.mk info header blocks).ownTexts
      (nodes.headD Node.emptyDocument).ownLeaves) ?_ fun nodes hnodes ↦
        (succeeds_report _ _).bind fun _ _ ↦ succeeds_pure hnodes
  refine (succeeds_convertBlocks blocks _ none hblocks rfl hmax reached_none).bind
    fun nodes hnodes ↦ ?_
  cases header with
  | none =>
    refine Succeeds.bind (Q := (· = [])) (succeeds_pure rfl) fun head hhead ↦ ?_
    rw [hhead]
    exact (succeeds_root hnodes.spans hnodes.placed).mono fun _ hplaced ↦ ⟨_, _, hplaced⟩
  | some header =>
    obtain ⟨own, column, hown, hlineno, hwritten⟩ := hheader header rfl
    have hle := hblocks.le
    refine (succeeds_convertHeader hwritten hown hlineno ?_ rfl info.id).bind fun head hhead ↦ ?_
    · change (own : Int) + 1 ≤ (text.lines.length : Nat)
      omega
    · obtain ⟨title, authors, rfl, htitle, hauthors⟩ := hhead
      have hlast : Located text (lineStart first) (lineStart text.lines.length)
          (Element.ownTextsOf blocks) (authors ++ nodes) := by
        refine (hnodes.mono_high (lineStart_le_lineStart.mpr hstop)).behind_asides hauthors ?_
        rw [lineStart]
        exact Int.lt_succ _
      have hall := htitle.append hlast
      rw [← List.append_assoc] at hall
      exact (succeeds_root hall.spans hall.placed).mono fun _ hplaced ↦ ⟨_, _, hplaced⟩

/-- Running text has a located tree, in which everything that the document says is placed. -/
theorem exists_placed_of_prose
    (hprose : Prose settings.commentMarker text.lines) :
    ∃ document root low high, (Document.ofText settings.commentMarker text).1 = .ok document ∧
      (locateText settings.loosen text).1 = .ok root ∧
      Placed low high document.ownTexts root.ownLeaves := by
  obtain ⟨document, hdocument, hlaid⟩ := exists_laidDocument hprose
  have hrun : Succeeds ((ofText settings.loosen text).convertRoot document) _ :=
    succeeds_convertRoot hlaid
  obtain ⟨root, log, hroot, low, high, hplaced⟩ := hrun []
  refine ⟨document, root, low, high, hdocument, ?_, hplaced⟩
  rw [locateText, Settings.marker?_loosen]
  dsimp only
  split
  · next cause _ herror =>
    rw [herror] at hdocument
    cases hdocument
  · next other _ hok =>
    rw [hok] at hdocument
    cases hdocument
    rw [locateDocument, hroot]
    rfl

/-- Nothing is lost or misplaced in running text. Its tree has one leaf for each own text of the
document, in the order of the document: the leaf holds that text and starts on the line of the
element whose own text it is, and no leaf starts before the end of an earlier one. -/
theorem located_of_prose (text : Text)
    (h : ∀ line ∈ Line.classifyAll "//".toList 1 text.lines, line.shape.isProse = true) :
    ∃ document root, (Document.ofText "//".toList text).1 = .ok document ∧
      (locateText Settings.default.loosen text).1 = .ok root ∧
      List.Forall₂ (fun own leaf ↦ leaf.raw = own.text ∧ leaf.location.start.line = own.lineno)
        document.ownTexts root.ownLeaves ∧
      root.ownLeaves.Pairwise fun first second ↦
        first.location.stop ≤ second.location.start := by
  have hprose : Prose Settings.default.commentMarker text.lines := prose_lines (by decide) h
  obtain ⟨document, root, low, high, hdocument, hroot, hplaced⟩ := exists_placed_of_prose hprose
  exact ⟨document, root, hdocument, hroot, hplaced.forall₂, hplaced.pairwise⟩

/-- A title, an item with a comment in it, a term and its description that all say the same. -/
def repeatedText : Text :=
  "== a\n\n* a\n// a\n  a\n\na:: a".toList

theorem located_repeatedText :
    (∀ line ∈ Line.classifyAll "//".toList 1 repeatedText.lines, line.shape.isProse = true) ∧
    ∃ document root, (Document.ofText "//".toList repeatedText).1 = .ok document ∧
      (locateText Settings.default.loosen repeatedText).1 = .ok root ∧
      List.Forall₂ (fun own leaf ↦ leaf.raw = own.text ∧ leaf.location.start.line = own.lineno)
        document.ownTexts root.ownLeaves ∧
      root.ownLeaves.Pairwise fun first second ↦
        first.location.stop ≤ second.location.start := by
  have hprose : ∀ line ∈ Line.classifyAll "//".toList 1 repeatedText.lines,
      line.shape.isProse = true := by decide +kernel
  exact ⟨hprose, located_of_prose repeatedText hprose⟩

end Documents

end AsciidocSpans.Converter
