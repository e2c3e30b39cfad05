import AsciidocSpans.Proofs.Blocks.Formation
import AsciidocSpans.Proofs.Conversion.Lookback
import AsciidocSpans.Proofs.Conversion.Visits

/-!
Documents under raised settings. A block is looked for from where the one beside it ends. So one
that ends later because an id or a block title is fresh may move those behind it, with their own ids
and titles (`asides_moved`). A visit to a block is in place if what is fresh there ends no later
than the block does anyway; a block that becomes nothing is in place too, if it does not become a
node by a fresh title or id alone (`Visit.inPlace`).

Where all visits of a conversion are in place, one induction over the element tree shows that every
part of it is kept with raised settings, and that every window is the same
(`echoes_convertElement`). So the ids and block titles of the document are kept, as they are and in
order (`exists_locateDocument_of_raisedInPlace`). All visits are in place in any text, if only the
lookback for ids is raised and the line directly above a block was tried before: what is fresh then
ends above the title of its section (`raisedInPlace_of_ofText`).
-/

set_option autoImplicit false
set_option relaxedAutoImplicit false

namespace AsciidocSpans

/-- Whether an element can become a node that holds nothing but ids, titles or attributes. -/
def Element.mayStandAlone : Element → Bool
  | .table .. | .document _ => true
  | _ => false

namespace Converter

/-! ### Elements in place -/

/-- Where raised settings find the id or the block title of an element that is not found without
them. -/
def fresh? (settings wider : Settings) (text : Text) (window : Window) :
    Element → Option Location
  | .titledSection info _ _ => freshId? settings wider text info.id window
  | .document ⟨info, some header, _⟩ =>
    freshId? settings wider text info.id (window.narrowed header.info.lineno none)
  | .container info .sidebar _ | .paragraph info _ _ | .list info _ _ _
  | .descriptionList info _ _ | .listing info _ _ | .admonition info _ _ _ | .table info _ _ _
  | .image info _ => freshTitle? settings wider text info window
  | _ => none

/-- Whether a visited element ends no earlier than what is fresh in it. One that becomes nothing is
in place if it does not become a node by that alone. -/
def Visit.inPlace (settings wider : Settings) (text : Text) (visit : Visit) : Bool :=
  (fresh? settings wider text visit.window visit.element).all fun location ↦
    match (ofText settings.loosen text).convertElement visit.window visit.element [] with
    | .ok nodes _ =>
      nodes.any (location.stop ≤ ·.location.stop) ||
        nodes.isEmpty && !visit.element.mayStandAlone
    | .error _ _ => true

/-- Settings are raised, and what is fresh in the blocks of a document is in place. -/
structure RaisedInPlace (settings wider : Settings) (text : Text) (document : Document) : Prop
    extends settings.RaisedTo wider where
  inPlace : ∀ visit ∈ visitsOfText settings text document, visit.inPlace settings wider text

variable {settings wider : Settings} {text : Text}

section InPlace

variable {visits more : List Visit}

/-- All of some visits are in place. -/
def AllInPlace (settings wider : Settings) (text : Text) (visits : List Visit) : Prop :=
  ∀ visit ∈ visits, visit.inPlace settings wider text

theorem allInPlace_cons_iff {visit : Visit} :
    AllInPlace settings wider text (visit :: visits) ↔
      visit.inPlace settings wider text ∧ AllInPlace settings wider text visits :=
  List.forall_mem_cons

theorem allInPlace_append_iff :
    AllInPlace settings wider text (visits ++ more) ↔
      AllInPlace settings wider text visits ∧ AllInPlace settings wider text more :=
  List.forall_mem_append

/-- A visited element is in place if what it becomes, whatever was reported before, ends no earlier
than what is fresh in it. -/
theorem inPlace_of_yields {visit : Visit}
    (h : ∀ location, fresh? settings wider text visit.window visit.element = some location →
      Yields ((ofText settings.loosen text).convertElement visit.window visit.element) fun nodes ↦
        nodes = [] ∧ visit.element.mayStandAlone = false ∨
          ∃ node ∈ nodes, location.stop ≤ node.location.stop) :
    visit.inPlace settings wider text := by
  rw [Visit.inPlace]
  cases hfresh : fresh? settings wider text visit.window visit.element with
  | none => rfl
  | some location =>
    rw [Option.all_some]
    split
    · next nodes log hrun =>
      rcases h location hfresh [] nodes log hrun with ⟨rfl, halone⟩ | ⟨node, hnode, hle⟩
      · rw [halone]
        rfl
      · rw [List.any_eq_true.mpr ⟨node, hnode, decide_eq_true hle⟩, Bool.true_or]
    · rfl

/-- The visits behind a computation are those behind what it comes to. -/
theorem AllInPlace.behind {α : Type} {x : Conversion α} {further : α → List Visit} {value : α}
    (h : AllInPlace settings wider text (visitsBehind x further))
    (hx : Succeeds x (· = value)) : AllInPlace settings wider text (further value) := by
  obtain ⟨_, log, hrun, rfl⟩ := hx []
  rwa [visitsBehind, hrun] at h

/-- An element that is in place ends where it did, whatever is fresh in it. -/
theorem echoes_settled {visit : Visit} (hvisit : visit.inPlace settings wider text)
    {y : Conversion (List Node)}
    (h : Echoes
      (KeepsBut (fresh? settings wider text visit.window visit.element)
        visit.element.mayStandAlone)
      ((ofText settings.loosen text).convertElement visit.window visit.element) y) :
    Echoes (Keeps never)
      ((ofText settings.loosen text).convertElement visit.window visit.element) y := by
  intro s nodes s' hrun
  obtain ⟨hsteady, hother⟩ := h s nodes s' hrun
  refine ⟨hsteady, hother.mono fun others hkept ↦ ?_⟩
  -- The visit is judged by a run from an empty log, which comes to the same nodes as this one.
  obtain ⟨_, log, hfrom, rfl⟩ := hsteady []
  rw [Visit.inPlace] at hvisit
  cases hfresh : fresh? settings wider text visit.window visit.element with
  | none =>
    rw [hfresh] at hkept
    exact hkept.keeps.settled fun _ ⟨_, hnone, _⟩ ↦ absurd hnone (Option.not_mem_none _)
  | some location =>
    rw [hfresh, Option.all_some, hfrom] at hvisit
    rw [hfresh] at hkept
    rcases Bool.or_eq_true_iff.mp hvisit with hends | hempty
    · obtain ⟨node, hnode, hle⟩ := List.any_eq_true.mp hends
      refine hkept.keeps.settled fun position ⟨place, hplace, hstop⟩ ↦ Or.inr ⟨node, hnode, ?_⟩
      cases hplace
      exact hstop ▸ of_decide_eq_true hle
    · obtain ⟨hnodes, hnot⟩ := Bool.and_eq_true_iff.mp hempty
      have hnil := List.isEmpty_iff.mp hnodes
      rw [hkept.empty (by simpa using hnot) hnil, hnil]
      exact keeps_refl []

end InPlace

/-! ### The course of a conversion -/

section Course

theorem echoes_reportOmission (element : Element) (nodes others : List Node) :
    Echoes (fun _ _ ↦ True) (reportOmission element nodes) (reportOmission element others) :=
  (steady_reportOmission _ _).echoes_of_yields (yields_trivial _) (fails_reportOmission _ _)
    (yields_trivial _) fun _ _ _ _ ↦ trivial

/-- The nodes of some siblings are kept, and the last one of them ends where it did. -/
inductive KeptTo : List Node × Option Position → List Node × Option Position → Prop
  | mk {nodes others : List Node} {lastEnd : Option Position} (keeps : Keeps never nodes others) :
      KeptTo (nodes, lastEnd) (others, lastEnd)

/-- The cell around some nodes keeps what they keep: its own span is that of its text. -/
theorem echoes_cell (content : Text) {location : Location} {children others : List Node}
    (hspan : (Source.ofText text).HasSpan location)
    (hasides : (Node.asidesOf children).Sublist (Node.asidesOf others)) :
    Echoes (Option.Rel fun node other ↦ Keeps never [node] [other])
      (do return some (← assembled
        (Node.located (Source.ofText text) .tableCell content location children)))
      (do return some (← assembled
        (Node.located (Source.ofText text) .tableCell content location others))) :=
  (echoes_located rfl hspan (Position.le_refl _) (Or.inr rfl) hasides).bind fun _ _ _ hkeeps ↦
    echoes_pure (.some hkeeps)

/-- The cell around its text is the same. -/
theorem echoes_cellOfText (content : Text) {location : Location}
    (hspan : (Source.ofText text).HasSpan location) :
    let built : Conversion (Option Node) := do
      let leaf ← assembled (Node.str (Source.ofText text) content location)
      return some (← assembled
        (Node.located (Source.ofText text) .tableCell content location [leaf]))
    Echoes (Option.Rel fun node other ↦ Keeps never [node] [other]) built built := by
  refine ((steady_assembled _).echoes (yields_trivial _)).bind fun leaf _ _ hsame ↦ ?_
  rw [hsame.1]
  exact echoes_cell content hspan (List.Sublist.refl _)

mutual

/-- What an element becomes is kept, if it and all elements inside it are in place. -/
theorem echoes_convertElement (h : settings.RaisedTo wider) (around : Window)
    (lastEnd : Option Position) (window : Window) (element : Element)
    (hplace : AllInPlace settings wider text (⟨around, lastEnd, window, element⟩ ::
      (ofText settings.loosen text).visitsInside window element)) :
    Echoes (Keeps never) ((ofText settings.loosen text).convertElement window element)
      ((ofText wider.loosen text).convertElement window element) := by
  obtain ⟨hvisit, hinside⟩ := allInPlace_cons_iff.mp hplace
  refine echoes_settled hvisit ?_
  dsimp only
  match element with
  | .document document =>
    rw [visitsInside] at hinside
    rw [convertElement, convertElement]
    exact (echoes_convertDocument h window document hinside).mono fun _ _ hkeeps ↦
      ⟨hkeeps, nofun⟩
  | .titledSection info level blocks =>
    rw [visitsInside] at hinside
    rw [convertElement, convertElement]
    refine (echoes_convertTitle h _ level window).bind fun title _ hcame hsame ↦ ?_
    cases hsame
    cases title with
    | none => exact echoes_pure (keeps_refl []).keepsBut
    | some title =>
      have hblocks := echoes_convertBlocks h window none blocks (hinside.behind hcame)
      refine (echoes_convertId h info.id window).bind fun id other _ hagain ↦
        hblocks.bind fun nodes others _ hkeeps ↦ echoes_pure ?_
      have hbelow := (keeps_refl [title]).append hkeeps
      exact ⟨hagain.keeps.append hbelow.of_never, fun _ hnil ↦ by simp at hnil⟩
  | .container info .preamble blocks | .container info .exampleBlock blocks =>
    rw [visitsInside] at hinside
    rw [convertElement, convertElement]
    exact (echoes_convertBlocks h _ none blocks hinside).mono fun _ _ ↦ Keeps.keepsBut
  | .container info .quote blocks =>
    rw [visitsInside] at hinside
    rw [convertElement, convertElement]
    exact ((echoes_convertBlocks h _ none blocks hinside).and
      (yields_convertBlocks _ none blocks)).bind fun nodes others _ hresult ↦
        (echoes_wrapped rfl hresult.1 hresult.2).mono fun _ _ ↦ Keeps.keepsBut
  | .container info .sidebar blocks =>
    rw [visitsInside] at hinside
    rw [convertElement, convertElement]
    exact ((echoes_convertBlocks h window none blocks hinside).and
      (yields_convertBlocks window none blocks)).bind fun nodes others _ hresult ↦
        echoes_wrappedWithTitle h rfl hresult.1 hresult.2 info window
  | .paragraph info isLiteral lines =>
    rw [convertElement, convertElement]
    exact echoes_convertParagraph h info lines window
  | .list info kind marker items =>
    rw [visitsInside] at hinside
    rw [convertElement, convertElement]
    exact ((echoes_convertItems h _ _ none items hinside).and
      (yields_convertItems _ _ none items)).bind fun _ _ _ ⟨.mk hkeeps, hshown⟩ ↦
        echoes_wrappedWithTitle h rfl hkeeps hshown info window
  | .listItem item =>
    rw [visitsInside] at hinside
    rw [convertElement, convertElement]
    exact (echoes_convertItem h window item hinside).mono fun _ _ ↦ Keeps.keepsBut
  | .descriptionList info delimiter entries =>
    rw [visitsInside] at hinside
    rw [convertElement, convertElement]
    exact ((echoes_convertEntries h _ none entries hinside).and
      (yields_convertEntries _ none entries)).bind fun _ _ _ ⟨.mk hkeeps, hshown⟩ ↦
        echoes_wrappedWithTitle h rfl hkeeps hshown info window
  | .listing info lines language =>
    rw [convertElement, convertElement]
    exact echoes_convertListing h info lines language window
  | .admonition info style lines blocks =>
    match blocks, lines, hinside with
    | first :: rest, _, hinside =>
      exact ((echoes_convertBlocks h window none (first :: rest) hinside).and
        (yields_convertBlocks window none (first :: rest))).bind fun nodes others _ hresult ↦
          echoes_wrappedWithTitle h rfl hresult.1 hresult.2 info window
    | [], (c :: first) :: rest, _ =>
      exact ((echoes_convertParagraphText h _ window).and
        (yields_convertParagraphText _ window)).bind fun nodes others _ hresult ↦
          echoes_wrappedWithTitle h rfl hresult.1 hresult.2 info window
    | [], [], _ | [], [] :: rest, _ =>
      exact Echoes.bind (echoes_throw (R := fun nodes others ↦ Keeps never nodes others ∧
        (ofText wider.loosen text).AllShown others) _) fun nodes others _ hresult ↦
          echoes_wrappedWithTitle h rfl hresult.1 hresult.2 info window
  | .table info columnCount headRows bodyRows =>
    rw [visitsInside] at hinside
    obtain ⟨hheadRows, hbodyRows⟩ := allInPlace_append_iff.mp hinside
    rw [convertElement, convertElement,
      h.same (fun given ↦ (ofText given.loosen text).convertTableAttributes) fun _ _ ↦ rfl]
    refine ((echoes_convertBlockTitle h info window).and
      (yields_convertBlockTitle info window)).bind fun title other _ htitle ↦
        ((steady_convertTableAttributes _ info.attributes window).echoes
          (yields_convertTableAttributes info.attributes window)).bind
            fun attributes _ _ hattributes ↦ ?_
    obtain ⟨rfl, hattributes⟩ := hattributes
    refine ((echoes_convertRows h window.maxLine none headRows hheadRows).and
      (yields_convertRows window.maxLine none headRows)).bind fun _ _ hcame hhead ↦ ?_
    obtain ⟨⟨hhead⟩, hheadShown⟩ := hhead
    refine ((echoes_convertRows h window.maxLine _ bodyRows (hbodyRows.behind hcame)).and
      (yields_convertRows window.maxLine _ bodyRows)).bind fun _ _ _ hbody ↦ ?_
    obtain ⟨⟨hbody⟩, hbodyShown⟩ := hbody
    have hfront := (htitle.1.keeps.append (keeps_refl attributes.toList)).append hhead.of_never
    exact (echoes_wrapped rfl (hfront.append hbody.of_never)
      (((htitle.2.toList.append hattributes.toList).append hheadShown).append hbodyShown)).mono
        fun _ _ hkeeps ↦ ⟨hkeeps, nofun⟩
  | .image info target =>
    rw [convertElement, convertElement]
    exact echoes_convertImage h info window
  | .tableOfContents info =>
    rw [convertElement, convertElement]
    exact (echoes_convertTableOfContents h info window).mono fun _ _ ↦ Keeps.keepsBut
  | .header _ | .author _ | .tableCell _ | .unhandled _ _ =>
    rw [convertElement, convertElement]
    · exact echoes_pure (keeps_refl []).keepsBut

theorem echoes_convertBlocks (h : settings.RaisedTo wider) (window : Window)
    (lastEnd : Option Position) (blocks : List Element)
    (hplace : AllInPlace settings wider text
      ((ofText settings.loosen text).visitsOf window lastEnd blocks)) :
    Echoes (Keeps never) ((ofText settings.loosen text).convertBlocks window lastEnd blocks)
      ((ofText wider.loosen text).convertBlocks window lastEnd blocks) := by
  match blocks with
  | [] => exact echoes_pure (keeps_refl [])
  | element :: rest =>
    rw [visitsOf] at hplace
    obtain ⟨hown, hrest⟩ := allInPlace_append_iff.mp hplace
    rw [convertBlocks_cons, convertBlocks_cons]
    refine (echoes_convertElement h window lastEnd _ element hown).bind
      fun nodes others hcame hkeeps ↦ (echoes_reportOmission element nodes others).bind
        fun _ _ _ _ ↦ ?_
    -- The element ends where it did, so the window of the next one is the same.
    rw [hkeeps.endOf_eq lastEnd]
    exact (echoes_convertBlocks h window _ rest (hrest.behind hcame)).bind fun _ _ _ hothers ↦
      echoes_pure (hkeeps.append hothers)

theorem echoes_convertItems (h : settings.RaisedTo wider) (window : Window) (behind : Int)
    (lastEnd : Option Position) (items : List ListItem)
    (hplace : AllInPlace settings wider text
      ((ofText settings.loosen text).visitsOfItems window behind lastEnd items)) :
    Echoes KeptTo ((ofText settings.loosen text).convertItems window behind lastEnd items)
      ((ofText wider.loosen text).convertItems window behind lastEnd items) := by
  match items with
  | [] => exact echoes_pure ⟨keeps_refl []⟩
  | item :: rest =>
    rw [visitsOfItems] at hplace
    obtain ⟨hown, hrest⟩ := allInPlace_append_iff.mp hplace
    rw [convertItems_cons, convertItems_cons]
    refine (echoes_convertItem h _ item hown).bind
      fun nodes others hcame hkeeps ↦ (echoes_reportOmission (.listItem item) nodes others).bind
        fun _ _ _ _ ↦ ?_
    rw [hkeeps.endOf_eq lastEnd]
    exact (echoes_convertItems h window behind _ rest (hrest.behind hcame)).bind
      fun _ _ _ ⟨hothers⟩ ↦ echoes_pure ⟨hkeeps.append hothers⟩

theorem echoes_convertEntries (h : settings.RaisedTo wider) (window : Window)
    (lastEnd : Option Position) (entries : List DescriptionEntry)
    (hplace : AllInPlace settings wider text
      ((ofText settings.loosen text).visitsOfEntries window lastEnd entries)) :
    Echoes KeptTo ((ofText settings.loosen text).convertEntries window lastEnd entries)
      ((ofText wider.loosen text).convertEntries window lastEnd entries) := by
  match entries with
  | [] => exact echoes_pure ⟨keeps_refl []⟩
  | ⟨terms, none⟩ :: rest =>
    rw [visitsOfEntries] at hplace
    obtain ⟨hterms, hrest⟩ := allInPlace_append_iff.mp hplace
    rw [convertEntries, convertEntries]
    refine (echoes_convertItems h window _ lastEnd terms hterms).bind fun _ _ hcame habove ↦ ?_
    obtain ⟨habove⟩ := habove
    exact (echoes_convertEntries h window _ rest (hrest.behind hcame)).bind
      fun _ _ _ ⟨hothers⟩ ↦ echoes_pure ⟨habove.append hothers⟩
  | ⟨terms, some description⟩ :: rest =>
    rw [visitsOfEntries] at hplace
    obtain ⟨hterms, hbehind⟩ := allInPlace_append_iff.mp hplace
    rw [convertEntries, convertEntries]
    refine (echoes_convertItems h window _ lastEnd terms hterms).bind fun _ _ hcame habove ↦ ?_
    obtain ⟨habove⟩ := habove
    obtain ⟨hown, hrest⟩ := allInPlace_append_iff.mp (hbehind.behind hcame)
    refine (echoes_convertItem h _ description hown).bind fun described others hcame hkeeps ↦
      (echoes_reportOmission (.listItem description) described others).bind fun _ _ _ _ ↦ ?_
    rw [hkeeps.endOf_eq]
    exact (echoes_convertEntries h window _ rest (hrest.behind hcame)).bind
      fun _ _ _ ⟨hothers⟩ ↦ echoes_pure ⟨(habove.append hkeeps).append hothers⟩

theorem echoes_convertItem (h : settings.RaisedTo wider) (window : Window) (item : ListItem)
    (hplace : AllInPlace settings wider text
      ((ofText settings.loosen text).visitsOfItem window item)) :
    Echoes (Keeps never) ((ofText settings.loosen text).convertItem window item)
      ((ofText wider.loosen text).convertItem window item) := by
  match item with
  | ⟨info, content, checkbox, blocks⟩ =>
    rw [visitsOfItem] at hplace
    have hattach : ∀ own others, Keeps never own others →
        (ofText wider.loosen text).AllShown others →
          Echoes (Keeps never)
            (do
              let attached ← (ofText settings.loosen text).convertBlocks window none blocks
              (ofText settings.loosen text).wrapped .listItem (own ++ attached))
            (do
              let attached ← (ofText wider.loosen text).convertBlocks window none blocks
              (ofText wider.loosen text).wrapped .listItem (others ++ attached)) :=
      fun own others hown hothers ↦ ((echoes_convertBlocks h window none blocks hplace).and
        (yields_convertBlocks window none blocks)).bind fun attached _ _ hattached ↦
          echoes_wrapped rfl (hown.append hattached.1) (hothers.append hattached.2)
    match content with
    | some (c :: rest) =>
      rw [convertItem, convertItem]
      exact ((echoes_convertParagraphText h _ window).and
        (yields_convertParagraphText _ window)).bind fun own others _ hown ↦
          hattach own others hown.1 hown.2
    | some [] => exact hattach [] [] (keeps_refl []) allShown_nil
    | none => exact hattach [] [] (keeps_refl []) allShown_nil

theorem echoes_convertRows (h : settings.RaisedTo wider) (maxLine : Int)
    (lastEnd : Option Position) (rows : List (List TableCell))
    (hplace : AllInPlace settings wider text
      ((ofText settings.loosen text).visitsOfRows maxLine lastEnd rows)) :
    Echoes KeptTo ((ofText settings.loosen text).convertRows maxLine lastEnd rows)
      ((ofText wider.loosen text).convertRows maxLine lastEnd rows) := by
  match rows with
  | [] => exact echoes_pure ⟨keeps_refl []⟩
  | [] :: rest =>
    rw [visitsOfRows] at hplace
    rw [convertRows, convertRows]
    exact echoes_convertRows h maxLine lastEnd rest hplace
  | (first :: others) :: rest =>
    rw [visitsOfRows] at hplace
    obtain ⟨hcells, hbehind⟩ := allInPlace_append_iff.mp hplace
    rw [convertRows, convertRows]
    refine ((echoes_convertCells h maxLine _ (first :: others) hcells).and
      (yields_convertCells maxLine _ (first :: others))).bind fun cells _ hcame hkeeps ↦
        (echoes_wrapped rfl hkeeps.1 hkeeps.2).bind fun row _ hrow hrowKeeps ↦ ?_
    rw [hrowKeeps.endOf_eq lastEnd]
    exact (echoes_convertRows h maxLine _ rest ((hbehind.behind hcame).behind hrow)).bind
      fun _ _ _ ⟨hothers⟩ ↦ echoes_pure ⟨hrowKeeps.append hothers⟩

theorem echoes_convertCells (h : settings.RaisedTo wider) (maxLine : Int) (lastEnd : Position)
    (cells : List TableCell)
    (hplace : AllInPlace settings wider text
      ((ofText settings.loosen text).visitsOfCells maxLine lastEnd cells)) :
    Echoes (Keeps never) ((ofText settings.loosen text).convertCells maxLine lastEnd cells)
      ((ofText wider.loosen text).convertCells maxLine lastEnd cells) := by
  match cells with
  | [] => exact echoes_pure (keeps_refl [])
  | cell :: rest =>
    rw [visitsOfCells] at hplace
    obtain ⟨hown, hrest⟩ := allInPlace_append_iff.mp hplace
    rw [convertCells, convertCells]
    refine (echoes_convertCell h _ cell hown).bind fun found other hcame hresult ↦ ?_
    have hrest := hrest.behind hcame
    cases hresult with
    | none => exact echoes_convertCells h maxLine lastEnd rest hrest
    | @some node other hkeeps =>
      have hstop : other.location.stop = node.location.stop :=
        Option.some.inj (hkeeps.endOf_eq none)
      dsimp only
      rw [hstop]
      exact (echoes_convertCells h maxLine _ rest hrest).bind fun _ _ _ hothers ↦
        echoes_pure (hkeeps.append hothers)

theorem echoes_convertCell (h : settings.RaisedTo wider) (window : Window) (cell : TableCell)
    (hplace : AllInPlace settings wider text
      ((ofText settings.loosen text).visitsOfCell window cell)) :
    Echoes (Option.Rel fun node other ↦ Keeps never [node] [other])
      ((ofText settings.loosen text).convertCell window cell)
      ((ofText wider.loosen text).convertCell window cell) := by
  match cell with
  | ⟨info, content, style, colspan, none⟩ =>
    rw [convertCell, convertCell]
    refine (echoes_find h false content.lines window).bind fun found _ _ hresult ↦ ?_
    obtain ⟨rfl, hfound⟩ := hresult
    cases found with
    | none => exact echoes_pure .none
    | some location =>
      have hspan := Locator.hasSpan_of_find? hfound.symm
      dsimp only
      split
      · next hnone => cases hnone
      · exact echoes_cellOfText content hspan
  | ⟨info, content, style, colspan, some ⟨_, _, blocks⟩⟩ =>
    rw [visitsOfCell] at hplace
    rw [convertCell, convertCell]
    refine (echoes_find h false content.lines window).bind fun found _ hcame hresult ↦ ?_
    obtain ⟨rfl, hfound⟩ := hresult
    cases found with
    | none => exact echoes_pure .none
    | some location =>
      have hspan := Locator.hasSpan_of_find? hfound.symm
      by_cases hstyle : style = some .asciidoc
      · subst hstyle
        have hblocks := hplace.behind hcame
        exact (echoes_convertBlocks h _ none blocks hblocks).bind fun _ _ _ hkeeps ↦
          echoes_cell content hspan hkeeps.asides
      · -- A document in a cell of another style is not gone into.
        dsimp only
        split
        · exact absurd rfl hstyle
        · exact echoes_cellOfText content hspan

theorem echoes_convertDocument (h : settings.RaisedTo wider) (window : Window)
    (document : Document)
    (hplace : AllInPlace settings wider text
      ((ofText settings.loosen text).visitsOfDocument window document)) :
    Echoes (Keeps (IsStop (fresh? settings wider text window (.document document))))
      ((ofText settings.loosen text).convertDocument window document)
      ((ofText wider.loosen text).convertDocument window document) := by
  match document with
  | ⟨info, header, blocks⟩ =>
    rw [visitsOfDocument] at hplace
    rw [convertDocument, convertDocument]
    refine ((echoes_convertBlocks h window none blocks hplace).and
      (yields_convertBlocks window none blocks)).bind fun nodes others _ hnodes ↦ ?_
    have hroot : ∀ excepted head further, Keeps excepted head further →
        (ofText wider.loosen text).AllShown further →
          Echoes (Keeps excepted)
            (do
              if (head ++ nodes).isEmpty then return []
              else return [← assembled
                (Node.documentAround (Source.ofText text) (head ++ nodes))] :
              Conversion (List Node))
            (do
              if (further ++ others).isEmpty then return []
              else return [← assembled
                (Node.documentAround (Source.ofText text) (further ++ others))] :
              Conversion (List Node)) :=
      fun excepted head further hkeeps hshown ↦
        (steady_root (ofText settings.loosen text) _).echoes_of_yields yields_gathered_root
          (fails_root (hshown.append hnodes.2)) yields_gathered_root
            fun _ _ ↦ (hkeeps.append hnodes.1.of_never).gathered
    cases header with
    | none => exact hroot _ [] [] (keeps_refl []) allShown_nil
    | some header =>
      exact ((echoes_convertHeader h info.id header window).and
        (yields_convertHeader info.id header window)).bind fun head further _ hhead ↦
          hroot _ head further hhead.1 hhead.2

end

end Course

/-! ### Documents -/

section Documents

/-- A document becomes a single node, if it becomes any. -/
theorem yields_length_convertDocument (converter : Converter) (window : Window)
    (document : Document) :
    Yields (converter.convertDocument window document) (·.length ≤ 1) := by
  obtain ⟨info, header, blocks⟩ := document
  rw [convertDocument]
  refine (yields_trivial _).bind fun nodes _ ↦ ?_
  have hroot : ∀ children, Yields (do
      if children.isEmpty then return []
      else return [← assembled (Node.documentAround converter.source children)] :
      Conversion (List Node)) (·.length ≤ 1) := by
    intro children
    split
    · exact yields_pure (Nat.zero_le 1)
    · exact (yields_trivial _).bind fun _ _ ↦ yields_pure (Nat.le_refl 1)
  cases header with
  | none => exact hroot _
  | some header => exact (yields_trivial _).bind fun head _ ↦ hroot _

theorem asides_headD_sublist (nodes : List Node) :
    (nodes.headD Node.emptyDocument).asides.Sublist (Node.asidesOf nodes) := by
  cases nodes with
  | nil => exact List.Sublist.refl _
  | cons node rest => exact List.sublist_append_left _ _

theorem asides_headD_of_length_le {nodes : List Node} (h : nodes.length ≤ 1) :
    (nodes.headD Node.emptyDocument).asides = Node.asidesOf nodes := by
  cases nodes with
  | nil => rfl
  | cons node rest =>
    rw [List.eq_nil_of_length_eq_zero (Nat.le_zero.mp (Nat.le_of_succ_le_succ h))]
    exact (Node.asidesOf_singleton node).symm

theorem echoes_convertRoot {document : Document} (h : RaisedInPlace settings wider text document) :
    Echoes (fun root other ↦ root.asides.Sublist other.asides)
      ((ofText settings.loosen text).convertRoot document)
      ((ofText wider.loosen text).convertRoot document) := by
  have hplace : AllInPlace settings wider text ((ofText settings.loosen text).visitsOfDocument
      { minLine := 1, maxLine := text.lines.length } document) := by
    obtain ⟨info, header, blocks⟩ := document
    exact h.inPlace
  rw [convertRoot, convertRoot]
  refine ((echoes_convertDocument h.toRaisedTo _ document hplace).and
    (yields_length_convertDocument _ _ document)).bind fun nodes others _ hresult ↦ ?_
  have hasides : (nodes.headD Node.emptyDocument).asides.Sublist
      (others.headD Node.emptyDocument).asides := by
    rw [asides_headD_of_length_le hresult.2]
    exact (asides_headD_sublist nodes).trans hresult.1.asides
  refine ((steady_report _ _).echoes_of_yields (yields_trivial _) (fails_report _ _)
    (yields_trivial _) fun _ _ _ _ ↦ trivial).bind fun _ _ _ (_ : True) ↦ echoes_pure hasides

/-- If what is fresh in a document is in place, raised settings keep all its ids and block
titles. -/
theorem exists_locateDocument_of_raisedInPlace {document : Document} {root : Node}
    (h : RaisedInPlace settings wider text document)
    (hroot : (locateDocument settings.loosen document text).1 = .ok root) :
    ∃ other, (locateDocument wider.loosen document text).1 = .ok other ∧
      root.asides.Sublist other.asides := by
  obtain ⟨log, hrun⟩ := exists_convertRoot_of_locateDocument hroot
  obtain ⟨other, further, hother, hasides⟩ := (echoes_convertRoot h [] root log hrun).2 []
  refine ⟨other, ?_, hasides⟩
  rw [locateDocument, hother]

end Documents

/-! ### Fresh ids in a text -/

section Texts

/-- Text that is found in a window ends in the window or below it. -/
theorem yields_minLine_convertText? (converter : Converter) (kind : NodeKind) (value : Text)
    (window : Window) :
    Yields (converter.convertText? kind value window) fun result ↦
      ∀ node ∈ result, window.minLine ≤ node.location.stop.line := by
  rw [convertText?]
  refine (yields_find converter false [value] window).bind fun found hfound ↦ ?_
  cases found with
  | none => exact yields_no_result _
  | some location =>
    intro s result s' hrun node hnode
    rw [yields_location_aroundText s result s' hrun node hnode]
    exact Locator.minLine_le_stop_of_find? hfound.symm

/-- A section reaches as far as its title, if it becomes anything. -/
theorem yields_minLine_titledSection (converter : Converter) (window : Window)
    (info : ElementInfo) (level : Int) (blocks : List Element) :
    Yields (converter.convertElement window (.titledSection info level blocks)) fun nodes ↦
      nodes = [] ∨ ∃ node ∈ nodes, window.minLine ≤ node.location.stop.line := by
  rw [convertElement]
  refine (yields_minLine_convertText? converter _ _ window).bind fun title htitle ↦ ?_
  cases title with
  | none => exact yields_pure (Or.inl rfl)
  | some title =>
    refine (yields_trivial _).bind fun id _ ↦ (yields_trivial _).bind fun nodes _ ↦
      yields_pure (Or.inr ⟨title, ?_, htitle title rfl⟩)
    exact List.mem_append_right _ List.mem_cons_self

/-- A section is in place, if ids were looked for on the line directly above it before. -/
theorem inPlace_titledSection (htried : 1 ≤ settings.idLookback) (around : Window)
    (lastEnd : Option Position) (window : Window) (info : ElementInfo) (level : Int)
    (blocks : List Element) :
    Visit.inPlace settings wider text
      ⟨around, lastEnd, window, .titledSection info level blocks⟩ := by
  refine inPlace_of_yields fun location hlocation ↦ ?_
  have habove := stop_line_lt_of_freshId? htried hlocation
  intro s nodes s' hrun
  have hends := yields_minLine_titledSection _ window info level blocks s nodes s' hrun
  exact hends.imp (⟨·, rfl⟩) fun ⟨node, hnode, hle⟩ ↦
    ⟨node, hnode, Position.le_of_line_lt (habove.trans_le hle)⟩

/-- No block that is read from lines is a document. -/
theorem not_document_of_formed {commentMarker : Text} {I : List Line → Prop} {element : Element}
    (h : Blocks.Formed commentMarker I element) (document : Document) :
    element ≠ .document document := by
  rintro rfl
  generalize helement : Element.document document = element at h
  cases h with
  | plain isPlain =>
    subst helement
    cases isPlain
  | _ => cases helement

/-- A block that is no document is in place, if the lookback for block titles is the same and ids
were looked for on the line directly above before. -/
theorem inPlace_of_titleLookback_eq (htitle : wider.titleLookback = settings.titleLookback)
    (htried : 1 ≤ settings.idLookback) {visit : Visit}
    (hnot : ∀ document, visit.element ≠ .document document) :
    visit.inPlace settings wider text := by
  obtain ⟨around, lastEnd, window, element⟩ := visit
  have hnone : ∀ element, fresh? settings wider text window element = none →
      Visit.inPlace settings wider text ⟨around, lastEnd, window, element⟩ := by
    intro element hfresh
    rw [Visit.inPlace, hfresh, Option.all_none]
  cases element with
  | document document => exact absurd rfl (hnot document)
  | titledSection info level blocks => exact inPlace_titledSection htried _ _ _ _ _ _
  | container info kind blocks =>
    cases kind with
    | sidebar => exact hnone _ (freshTitle?_of_eq htitle info window)
    | _ => exact hnone _ rfl
  | paragraph info | list info | descriptionList info | listing info | admonition info
  | table info | image info => exact hnone _ (freshTitle?_of_eq htitle info window)
  | _ => exact hnone _ rfl

/-- All that a larger lookback for ids finds in the document that a text makes is in place, if the
line directly above a block was tried before. -/
theorem raisedInPlace_of_ofText {marker : Text} {document : Document}
    (hread : (Document.ofText marker text).1 = .ok document) (h : settings.RaisedTo wider)
    (htitle : wider.titleLookback = settings.titleLookback) (htried : 1 ≤ settings.idLookback) :
    RaisedInPlace settings wider text document := by
  have hformed := Blocks.formed_of_ofText Blocks.lasting_true trivial hread
  have hblocks : AllStanding text (Blocks.Formed marker fun _ ↦ True) document.blocks :=
    fun block hblock held hheld ↦
      ⟨(allStanding_of_ofText hread block hblock held hheld).1, hformed block hblock held hheld⟩
  refine ⟨h, fun visit hvisit ↦ inPlace_of_titleLookback_eq htitle htried ?_⟩
  have hfits := (meets_convertBlocks _ none document.blocks hblocks).fits visit hvisit
  exact not_document_of_formed hfits.holds

end Texts

/-! ### Wider searches -/

/-- A search that is widened finds what it found. In a window that goes on further, text is found at
the same place, and so it is before a window when the search may go further up. Raised lookbacks
keep the node of an id or of a block title that is found before a window. In a document they keep
those of all ids and block titles, as they are and in order, and may add more, if what they may add
is in place; so it is in the document of a text if the lookback for ids is the only one raised. -/
theorem kept_of_widened :
    (∀ (locator : Locator) (verbatim : Bool) (segments : List Text) (window : Window)
      (maxLine : Int) (location : Location), window.maxLine ≤ maxLine →
        locator.find? verbatim segments window = some location →
          locator.find? verbatim segments { window with maxLine } = some location) ∧
    (∀ (locator : Locator) (verbatim : Bool) (segments : List Text) (window : Window)
      (lookback further : Int) (location : Location), lookback ≤ further →
        locator.findBefore? verbatim segments window lookback = some location →
          locator.findBefore? verbatim segments window further = some location) ∧
    (∀ (settings wider : Settings) (text : Text) (window : Window), settings.RaisedTo wider →
      (∀ id, Succeeds ((ofText settings.loosen text).convertId id window) fun found ↦
        Succeeds ((ofText wider.loosen text).convertId id window) fun other ↦
          ∀ node ∈ found, other = some node) ∧
      ∀ info, Succeeds ((ofText settings.loosen text).convertBlockTitle info window) fun found ↦
        Succeeds ((ofText wider.loosen text).convertBlockTitle info window) fun other ↦
          ∀ node ∈ found, other = some node) ∧
    (∀ (settings wider : Settings) (text : Text) (document : Document) (root : Node),
      RaisedInPlace settings wider text document →
        (locateDocument settings.loosen document text).1 = .ok root →
          ∃ other, (locateDocument wider.loosen document text).1 = .ok other ∧
            root.asides.Sublist other.asides) ∧
    ∀ (settings wider : Settings) (text : Text) (root : Node), settings.RaisedTo wider →
      wider.titleLookback = settings.titleLookback → 1 ≤ settings.idLookback →
        (locateText settings.loosen text).1 = .ok root →
          ∃ other, (locateText wider.loosen text).1 = .ok other ∧
            root.asides.Sublist other.asides := by
  refine ⟨fun _ _ _ _ _ _ ↦ Locator.find?_of_maxLine_le,
    fun _ _ _ _ _ _ _ ↦ Locator.findBefore?_of_lookback_le, ?_,
    fun _ _ _ _ _ ↦ exists_locateDocument_of_raisedInPlace, ?_⟩
  · intro settings wider text window h
    refine ⟨fun id ↦ ?_, fun info ↦ ?_⟩
    · exact ((echoes_convertId h id window).mono fun _ _ hagain ↦ hagain.same).succeeds
        (fails_convertId id window)
    · exact ((echoes_convertBlockTitle h info window).mono fun _ _ hagain ↦ hagain.same).succeeds
        (fails_convertBlockTitle info window)
  · intro settings wider text root h htitle htried hroot
    obtain ⟨marker, document, hmarker, hread, hlocated⟩ := exists_document_of_locateText hroot
    cases hmarker
    obtain ⟨other, hother, hasides⟩ := exists_locateDocument_of_raisedInPlace
      (raisedInPlace_of_ofText hread h htitle htried) hlocated
    refine ⟨other, ?_, hasides⟩
    rw [h.same Settings.commentMarker fun _ _ ↦ rfl] at hread
    rw [locateText_of_ofText hread, hother]
    rfl

/-- The texts and spans of the ids and block titles in a tree, if there is one. -/
def shownAsides {ε : Type} (outcome : Except ε Node) : List (Text × Location) :=
  match outcome with
  | .ok root => root.asides.map fun node ↦ (node.raw, node.location)
  | .error _ => []

/-- A list with a title four lines above it, before a section with an id. -/
def titledListText : Text :=
  ".l\n[a]\n[b]\n[c]\n* x\n* y\n\n[[i]]\n== S".toList

/-- The title of the list is only found with a larger lookback, and the id is where it was. -/
theorem kept_in_titledListText :
    let locator := (ofText Settings.default.loosen titledListText).locator
    let window : Window := { minLine := 9, maxLine := 9 }
    let titled : Settings := { Settings.default with titleLookback := 4 }
    let marked : Settings := { Settings.default with idLookback := 8 }
    locator.find? false ["S".toList] { window with maxLine := 20 } = some ⟨⟨9, 3⟩, ⟨9, 4⟩⟩ ∧
    locator.findBefore? false ["i".toList] window 8 = some ⟨⟨8, 2⟩, ⟨8, 3⟩⟩ ∧
    Succeeds ((ofText Settings.default.loosen titledListText).convertId (some "i".toList) window)
      (fun found ↦ Succeeds
        ((ofText marked.loosen titledListText).convertId (some "i".toList) window)
          fun other ↦ ∀ node ∈ found, other = some node) ∧
    (∃ document root other,
      (Document.ofText Settings.default.commentMarker titledListText).1 = .ok document ∧
      RaisedInPlace Settings.default titled titledListText document ∧
      (locateDocument Settings.default.loosen document titledListText).1 = .ok root ∧
      (locateDocument titled.loosen document titledListText).1 = .ok other ∧
      root.asides.Sublist other.asides) ∧
    (∃ root other, (locateText Settings.default.loosen titledListText).1 = .ok root ∧
      (locateText marked.loosen titledListText).1 = .ok other ∧
      root.asides.Sublist other.asides) ∧
    shownAsides (locateText Settings.default.loosen titledListText).1 =
      [("i".toList, ⟨⟨8, 2⟩, ⟨8, 3⟩⟩)] ∧
    shownAsides (locateText titled.loosen titledListText).1 =
      [(".l".toList, ⟨⟨1, 0⟩, ⟨1, 2⟩⟩), ("i".toList, ⟨⟨8, 2⟩, ⟨8, 3⟩⟩)] := by
  intro locator window titled marked
  obtain ⟨hforward, hbackward, hasides, hdocument, htext⟩ := kept_of_widened
  have htitled : Settings.default.RaisedTo titled := ⟨rfl, by decide, by decide⟩
  have hmarked : Settings.default.RaisedTo marked := ⟨rfl, by decide, by decide⟩
  obtain ⟨document, hread, hplaced⟩ := exists_of_okAnd (show
    okAnd (Document.ofText Settings.default.commentMarker titledListText).1 (fun document ↦
      (visitsOfText Settings.default titledListText document).all
        (·.inPlace Settings.default titled titledListText) &&
      okAnd (locateDocument Settings.default.loosen document titledListText).1 fun _ ↦ true) by
    decide +kernel)
  obtain ⟨hvisits, hlocated⟩ := Bool.and_eq_true_iff.mp hplaced
  obtain ⟨root, hroot, -⟩ := exists_of_okAnd hlocated
  have hplace : RaisedInPlace Settings.default titled titledListText document :=
    ⟨htitled, List.all_eq_true.mp hvisits⟩
  obtain ⟨other, hother, hkept⟩ := hdocument _ titled _ document root hplace hroot
  have hshown : (locateText Settings.default.loosen titledListText).1 = .ok root := by
    rw [locateText_of_ofText hread, hroot]
    rfl
  obtain ⟨further, hfurther, hids⟩ := htext _ marked _ root hmarked rfl (by decide) hshown
  exact ⟨hforward locator false _ window 20 _ (by decide) (by decide +kernel),
    hbackward locator false _ window 2 8 _ (by decide) (by decide +kernel),
    (hasides _ marked _ window hmarked).1 _,
    ⟨document, root, other, hread, hplace, hroot, hother, hkept⟩,
    ⟨root, further, hshown, hfurther, hids⟩, by decide +kernel, by decide +kernel⟩

/-- A larger lookback for block titles makes a node of an empty table in an example. The paragraph
behind the table is then looked for where the title was found, and its own title moves. With a
lookback of no lines before, what is added may end in its own block, and move the id or the title of
the block behind it. -/
theorem asides_moved :
    (let text : Text :=
        "====\n.b.c\nx\n\ny.c\n\n.b\n|===\n|===\n\n.c\nz\n====".toList
      let wider : Settings := { Settings.default with titleLookback := 4 }
      Settings.default.titleLookback ≤ wider.titleLookback ∧
      shownAsides (locateText Settings.default.loosen text).1 =
        [(".c".toList, ⟨⟨5, 1⟩, ⟨5, 3⟩⟩)] ∧
      shownAsides (locateText wider.loosen text).1 =
        [(".b".toList, ⟨⟨2, 0⟩, ⟨2, 2⟩⟩), (".c".toList, ⟨⟨2, 2⟩, ⟨2, 4⟩⟩)]) ∧
    (let text : Text := "x i i i\nT .t\nA".toList
      let block : Element := .container { lineno := 2 } .exampleBlock
        [.paragraph { lineno := 2, title := some "t".toList } false ["T".toList],
          .titledSection { lineno := 3, title := some "A".toList, id := some "i".toList } 1 []]
      let shown := fun (titleLookback : Int) ↦ shownAsides (locateDocument
        { Settings.default with titleLookback }.loosen ⟨{ lineno := 1 }, none, [block]⟩ text).1
      shown 0 = [("i".toList, ⟨⟨1, 2⟩, ⟨1, 3⟩⟩)] ∧
      shown 1 = [(".t".toList, ⟨⟨2, 2⟩, ⟨2, 4⟩⟩), ("i".toList, ⟨⟨1, 4⟩, ⟨1, 5⟩⟩)]) ∧
    (let text : Text := "x .t .t .t\nT i\np".toList
      let block : Element := .container { lineno := 2 } .exampleBlock
        [.titledSection { lineno := 2, title := some "T".toList, id := some "i".toList } 1 [],
          .paragraph { lineno := 3, title := some "t".toList } false ["p".toList]]
      let shown := fun (idLookback : Int) ↦ shownAsides (locateDocument
        { Settings.default with idLookback }.loosen ⟨{ lineno := 1 }, none, [block]⟩ text).1
      shown 0 = [(".t".toList, ⟨⟨1, 2⟩, ⟨1, 4⟩⟩)] ∧
      shown 1 = [("i".toList, ⟨⟨2, 2⟩, ⟨2, 3⟩⟩), (".t".toList, ⟨⟨1, 5⟩, ⟨1, 7⟩⟩)]) := by
  decide +kernel

end Converter

end AsciidocSpans
