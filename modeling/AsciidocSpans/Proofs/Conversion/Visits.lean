import AsciidocSpans.Proofs.Blocks.LineNumbers
import AsciidocSpans.Proofs.Conversion.Steady
import AsciidocSpans.Proofs.Conversion.Traced
import AsciidocSpans.Proofs.Conversion.Unfailing
import AsciidocSpans.Proofs.Element.Inside

/-!
The visits of a conversion. A conversion visits blocks one after the other: those of a container
before those behind it, the ones attached to an item before the next item, and those in a cell
before the next cell. It passes over the blocks of a section whose title is not found, and over the
document in a cell that is not found. `visitsOf` lists the visits, each with the window in which the
block is looked for.

A conversion fails at the first visit to an admonition without content, and if there is none it
comes to a result; so `Meets` says of a computation and of the visits in the course of it, and
`meets_convertElement` and the theorems beside it say so of all of them, by one induction over the
element tree. `locateDocument_eq_error_iff` is what follows for documents.
-/

set_option autoImplicit false
set_option relaxedAutoImplicit false

namespace AsciidocSpans

/-- An admonition without blocks whose first line, if there is one, is empty. -/
def Element.isEmptyAdmonition : Element → Bool
  | .admonition _ _ lines [] => (lines.headD []).isEmpty
  | _ => false

namespace Converter

/-! ### Visits -/

/-- A visit to a block: the window of the blocks beside it, the end of the sibling located last, and
the window in which the block itself is looked for. -/
structure Visit where
  around : Window
  lastEnd : Option Position
  window : Window
  element : Element

/-- The first visit to an admonition without content. -/
def firstEmptyAdmonition? (visits : List Visit) : Option Visit :=
  visits.find? (·.element.isEmptyAdmonition)

/-- The visits behind a computation, which depend on what it comes to. There are none if it fails.
What was reported before is of no matter, so the log that it starts with is empty. -/
def visitsBehind {α : Type} (x : Conversion α) (more : α → List Visit) : List Visit :=
  match x [] with
  | .ok result _ => more result
  | .error _ _ => []

section Visits

variable (converter : Converter)

mutual

/-- The visits to the blocks inside an element that is looked for in a window. -/
def visitsInside (window : Window) : Element → List Visit
  | .document document => visitsOfDocument window document
  | .titledSection info level blocks =>
    visitsBehind (converter.convertTitle (info.title.getD []) level window) fun title ↦
      if title.isSome then visitsOf window none blocks else []
  | .container _ .preamble blocks | .container _ .sidebar blocks | .admonition _ _ _ blocks =>
    visitsOf window none blocks
  | .container _ .exampleBlock blocks | .container _ .quote blocks =>
    visitsOf (window.withNarrowing false) none blocks
  | .list _ _ _ items => visitsOfItems (window.withNarrowing true) window.maxLine none items
  | .listItem item => visitsOfItem window item
  | .descriptionList _ _ entries => visitsOfEntries (window.withNarrowing true) none entries
  | .table _ _ headRows bodyRows =>
    visitsOfRows window.maxLine none headRows ++
      visitsBehind (converter.convertRows window.maxLine none headRows) fun head ↦
        visitsOfRows window.maxLine head.2 bodyRows
  | _ => []

/-- The visits to some sibling blocks and to the blocks inside them. -/
def visitsOf (window : Window) (lastEnd : Option Position) : List Element → List Visit
  | [] => []
  | element :: rest =>
    let own := blockWindow window lastEnd element rest
    ⟨window, lastEnd, own, element⟩ :: visitsInside own element ++
      visitsBehind (converter.convertElement own element) fun nodes ↦
        visitsOf window (endOf lastEnd nodes) rest

/-- The visits to the blocks attached to some sibling items. -/
def visitsOfItems (window : Window) (behind : Int) (lastEnd : Option Position) :
    List ListItem → List Visit
  | [] => []
  | item :: rest =>
    let own := itemWindow window behind lastEnd item rest
    visitsOfItem own item ++ visitsBehind (converter.convertItem own item) fun nodes ↦
      visitsOfItems window behind (endOf lastEnd nodes) rest

/-- The visits to the blocks attached to an item. -/
def visitsOfItem (window : Window) : ListItem → List Visit
  | ⟨_, _, _, blocks⟩ => visitsOf window none blocks

/-- The visits to the blocks attached to the items of some entries. -/
def visitsOfEntries (window : Window) (lastEnd : Option Position) :
    List DescriptionEntry → List Visit
  | [] => []
  | ⟨terms, none⟩ :: rest =>
    let behind := firstItemLine window.maxLine rest
    visitsOfItems window behind lastEnd terms ++
      visitsBehind (converter.convertItems window behind lastEnd terms) fun above ↦
        visitsOfEntries window above.2 rest
  | ⟨terms, some description⟩ :: rest =>
    let lineno := description.info.lineno
    visitsOfItems window lineno lastEnd terms ++
      visitsBehind (converter.convertItems window lineno lastEnd terms) fun above ↦
        let own := itemWindow window (firstItemLine window.maxLine rest) above.2 description []
        visitsOfItem own description ++
          visitsBehind (converter.convertItem own description) fun described ↦
            visitsOfEntries window (endOf above.2 described) rest

/-- The visits to the blocks of the documents in the cells of some rows. -/
def visitsOfRows (maxLine : Int) (lastEnd : Option Position) : List (List TableCell) → List Visit
  | [] => []
  | [] :: rest => visitsOfRows maxLine lastEnd rest
  | (first :: others) :: rest =>
    let start := ⟨first.info.lineno, columnAfter lastEnd first.info.lineno⟩
    visitsOfCells maxLine start (first :: others) ++
      visitsBehind (converter.convertCells maxLine start (first :: others)) fun cells ↦
        visitsBehind (converter.wrapped .tableRow cells) fun row ↦
          visitsOfRows maxLine (endOf lastEnd row) rest

/-- The visits to the blocks of the documents in some cells. -/
def visitsOfCells (maxLine : Int) (lastEnd : Position) : List TableCell → List Visit
  | [] => []
  | cell :: rest =>
    let own := cellWindow maxLine lastEnd cell
    visitsOfCell own cell ++ visitsBehind (converter.convertCell own cell) fun node ↦
      visitsOfCells maxLine ((node.map (·.location.stop)).getD lastEnd) rest

/-- The visits to the blocks of the document in a cell, if the cell is found. -/
def visitsOfCell (window : Window) : TableCell → List Visit
  | ⟨info, text, style, _, some ⟨_, _, blocks⟩⟩ =>
    visitsBehind (converter.find false text.lines window) fun found ↦
      if found.isSome ∧ style = some .asciidoc then
        visitsOf ((window.narrowed info.lineno none).withNarrowing true) none blocks
      else []
  | ⟨_, _, _, _, none⟩ => []

/-- The visits to the blocks of a document. -/
def visitsOfDocument (window : Window) : Document → List Visit
  | ⟨_, _, blocks⟩ => visitsOf window none blocks

end

end Visits

/-! ### Failing at the first one -/

section Meets

variable {α β : Type} {P : Element → Prop} {x : Conversion α} {f : α → Conversion β}
  {Q : α → Prop} {visits more : List Visit}

/-- A visit is one to an element of some kind, in the window of a sibling on its line. -/
structure Visit.Fits (P : Element → Prop) (visit : Visit) : Prop where
  holds : P visit.element
  window : ∃ following,
    visit.window = siblingWindow visit.around visit.element.lineno following visit.lastEnd

/-- A computation makes some visits to elements of some kind. It fails at the first one to an
admonition without content, and comes to a result if there is none. -/
structure Meets (P : Element → Prop) (x : Conversion α) (visits : List Visit) : Prop where
  steady : Steady x
  fits : ∀ visit ∈ visits, visit.Fits P
  fails : ∀ visit, firstEmptyAdmonition? visits = some visit →
    ∀ s, ∃ s', x s = .error (.emptyAdmonition visit.window.minLine) s'
  succeeds : firstEmptyAdmonition? visits = none → Succeeds x fun _ ↦ True

theorem firstEmptyAdmonition?_append :
    firstEmptyAdmonition? (visits ++ more) =
      (firstEmptyAdmonition? visits).or (firstEmptyAdmonition? more) :=
  List.find?_append

/-- What cannot fail makes no visits. -/
theorem meets_nil (hsteady : Steady x) (hfails : Fails x fun _ ↦ False) : Meets P x [] where
  steady := hsteady
  fits := List.forall_mem_nil _
  fails := nofun
  succeeds _ s := by
    cases hrun : x s with
    | ok result s' => exact ⟨result, s', rfl, trivial⟩
    | error problem s' => exact (hfails s problem s' hrun).elim

theorem meets_pure (value : α) : Meets P (pure value : Conversion α) [] :=
  meets_nil (steady_pure value) (fails_pure value)

/-- Behind a computation come the visits that depend on what it comes to. -/
theorem Meets.bind {further : α → List Visit} (hx : Meets P x visits) (hresult : Yields x Q)
    (hf : ∀ value, Q value → Meets P (f value) (further value)) :
    Meets P (x >>= f) (visits ++ visitsBehind x further) := by
  -- If nothing fails up to here, the visits behind are those of the one result there can be.
  have hvalue : firstEmptyAdmonition? visits = none →
      ∃ value, Q value ∧ visitsBehind x further = further value ∧ Succeeds x (· = value) := by
    intro hnone
    obtain ⟨value, s', hrun, -⟩ := hx.succeeds hnone []
    exact ⟨value, hresult _ _ _ hrun, by rw [visitsBehind, hrun], hx.steady _ _ _ hrun⟩
  refine ⟨hx.steady.bind hresult fun value hQ ↦ (hf value hQ).steady, ?_, ?_, ?_⟩
  · intro visit hvisit
    rcases List.mem_append.mp hvisit with hmem | hmem
    · exact hx.fits visit hmem
    · rw [visitsBehind] at hmem
      split at hmem
      · next value s' hrun => exact (hf value (hresult _ _ _ hrun)).fits visit hmem
      · cases hmem
  · intro visit hfirst s
    rw [firstEmptyAdmonition?_append] at hfirst
    cases hhere : firstEmptyAdmonition? visits with
    | some earlier =>
      rw [hhere, Option.some_or] at hfirst
      cases hfirst
      obtain ⟨s', hrun⟩ := hx.fails visit hhere s
      exact ⟨s', bind_of_eq_error hrun⟩
    | none =>
      obtain ⟨value, hQ, hvisits, hruns⟩ := hvalue hhere
      rw [hhere, Option.none_or, hvisits] at hfirst
      obtain ⟨same, middle, hrun, rfl⟩ := hruns s
      rw [bind_of_eq_ok hrun]
      exact (hf same hQ).fails visit hfirst middle
  · intro hnone
    rw [firstEmptyAdmonition?_append, Option.or_eq_none_iff] at hnone
    obtain ⟨value, hQ, hvisits, hruns⟩ := hvalue hnone.1
    refine hruns.bind fun same heq ↦ ?_
    subst heq
    exact (hf same hQ).succeeds (hvisits ▸ hnone.2)

theorem visitsBehind_nil : visitsBehind x (fun _ ↦ []) = [] := by
  rw [visitsBehind]
  split <;> rfl

/-- A computation that makes visits goes on with one that makes none. -/
theorem Meets.ending (hx : Meets P x visits) (hresult : Yields x Q)
    (hf : ∀ value, Q value → Meets P (f value) []) : Meets P (x >>= f) visits := by
  have h := hx.bind hresult hf
  rwa [visitsBehind_nil, List.append_nil] at h

/-- A computation that makes no visits comes before one that makes the same ones in any case. -/
theorem Meets.before (hx : Meets P x []) (hresult : Yields x Q)
    (hf : ∀ value, Q value → Meets P (f value) more) : Meets P (x >>= f) more := by
  have hmore : visitsBehind x (fun _ ↦ more) = more := by
    obtain ⟨value, s', hrun, -⟩ := hx.succeeds rfl []
    rw [visitsBehind, hrun]
  have h := hx.bind hresult hf
  rwa [hmore, List.nil_append] at h

/-- A visit to another element than an admonition without content goes on inside the element. -/
theorem Meets.visit {visit : Visit} (hnot : visit.element.isEmptyAdmonition = false)
    (hfits : visit.Fits P) (h : Meets P x visits) : Meets P x (visit :: visits) := by
  have hsame : firstEmptyAdmonition? (visit :: visits) = firstEmptyAdmonition? visits :=
    List.find?_cons_of_neg (by simp [hnot])
  exact ⟨h.steady, List.forall_mem_cons.mpr ⟨hfits, h.fits⟩, hsame ▸ h.fails, hsame ▸ h.succeeds⟩

/-- A visit to an admonition without content is the last one. -/
theorem meets_throw (visit : Visit) (hempty : visit.element.isEmptyAdmonition = true)
    (hfits : visit.Fits P) :
    Meets P (throw (.emptyAdmonition visit.window.minLine) : Conversion α) [visit] := by
  have hfirst : firstEmptyAdmonition? [visit] = some visit :=
    List.find?_cons_of_pos hempty
  refine ⟨steady_throw _, List.forall_mem_singleton.mpr hfits, ?_, ?_⟩
  · intro other hother s
    cases hfirst.symm.trans hother
    exact ⟨s, rfl⟩
  · intro hnone
    cases hfirst.symm.trans hnone

end Meets

section Course

variable {settings : Settings} {text : Text} {P : Element → Prop}

theorem meets_find (verbatim : Bool) (segments : List Text) (window : Window) :
    Meets P ((ofText settings.loosen text).find verbatim segments window) [] :=
  meets_nil (steady_find _ _ _ _) (fails_find _ _ _)

theorem meets_reportOmission (element : Element) (nodes : List Node) :
    Meets P (reportOmission element nodes) [] :=
  meets_nil (steady_reportOmission _ _) (fails_reportOmission _ _)

theorem meets_wrapped {kind : NodeKind} {children : List Node}
    (h : (ofText settings.loosen text).AllShown children) :
    Meets P ((ofText settings.loosen text).wrapped kind children) [] :=
  meets_nil (steady_wrapped _ _ _) (fails_wrapped h)

theorem meets_wrappedWithTitle {kind : NodeKind} {info : ElementInfo} {children : List Node}
    {window : Window} (h : (ofText settings.loosen text).AllShown children) :
    Meets P ((ofText settings.loosen text).wrappedWithTitle kind info children window) [] :=
  meets_nil (steady_wrappedWithTitle _ _ _ _ _) (fails_wrappedWithTitle h)

theorem meets_convertParagraphText (value : Text) (window : Window) :
    Meets P ((ofText settings.loosen text).convertParagraphText value window) [] :=
  meets_nil (steady_convertParagraphText _ _ _) (fails_convertParagraphText _ _)

/-- An element of some kind that stands on a line of the source. -/
def Standing (text : Text) (P : Element → Prop) (held : Element) : Prop :=
  HasLine text held.info ∧ P held

/-- Every one of some elements, and every element inside one, is of some kind and stands on a line
of the source. -/
def AllStanding (text : Text) (P : Element → Prop) (elements : List Element) : Prop :=
  Element.AllEverywhere (Standing text P) elements

mutual

/-- The conversion of an element meets the element itself, and then the blocks inside it. -/
theorem meets_convertElement (around : Window) (lastEnd : Option Position) (window : Window)
    (element : Element) (h : element.Everywhere (Standing text P))
    (hwindow : ∃ following, window = siblingWindow around element.lineno following lastEnd) :
    Meets P ((ofText settings.loosen text).convertElement window element)
      (⟨around, lastEnd, window, element⟩ ::
        (ofText settings.loosen text).visitsInside window element) := by
  have hfits : Visit.Fits P ⟨around, lastEnd, window, element⟩ := ⟨h.here.2, hwindow⟩
  match element with
  | .document document =>
    exact .visit rfl hfits (meets_convertDocument window document h.parts)
  | .titledSection info level blocks =>
    refine .visit rfl hfits ?_
    rw [convertElement, visitsInside]
    refine Meets.bind (meets_nil (steady_convertText? _ _ _ _) (fails_convertText? _ _ _))
      (yields_trivial _) fun title _ ↦ ?_
    cases title with
    | none => exact meets_pure []
    | some title =>
      exact (meets_nil (steady_convertId _ _ _) (fails_convertId _ _)).before (yields_trivial _)
        fun _ _ ↦ (meets_convertBlocks window none blocks h.parts).ending (yields_trivial _)
          fun _ _ ↦ meets_pure _
  | .container info .preamble blocks =>
    refine .visit rfl hfits ?_
    rw [convertElement]
    exact meets_convertBlocks window none blocks h.parts
  | .container info .exampleBlock blocks =>
    refine .visit rfl hfits ?_
    rw [convertElement]
    exact meets_convertBlocks _ none blocks h.parts
  | .container info .quote blocks =>
    refine .visit rfl hfits ?_
    rw [convertElement]
    exact (meets_convertBlocks _ none blocks h.parts).ending
      (yields_convertBlocks _ none blocks) fun _ hnodes ↦ meets_wrapped hnodes
  | .container info .sidebar blocks =>
    refine .visit rfl hfits ?_
    rw [convertElement]
    exact (meets_convertBlocks _ none blocks h.parts).ending
      (yields_convertBlocks _ none blocks) fun _ hnodes ↦ meets_wrappedWithTitle hnodes
  | .paragraph info isLiteral lines =>
    refine .visit rfl hfits (meets_nil ?_ (fails_convertParagraph info lines window))
    exact steady_convertParagraph _ info lines window
  | .list info kind marker items =>
    -- The parts of a list are the blocks attached to its items.
    have hitems : ∀ item ∈ items, AllStanding text P item.blocks := fun item hitem part hpart ↦
      h.parts part (List.mem_flatMap.mpr ⟨item, hitem, hpart⟩)
    refine .visit rfl hfits ?_
    rw [convertElement]
    exact (meets_convertItems _ _ none items hitems).ending (yields_convertItems _ _ none items)
      fun _ hresult ↦ meets_wrappedWithTitle hresult
  | .listItem item =>
    refine .visit rfl hfits ?_
    rw [convertElement]
    exact meets_convertItem window item h.parts
  | .descriptionList info delimiter entries =>
    have hentries : ∀ entry ∈ entries, ∀ item ∈ entry.terms ++ entry.description.toList,
        AllStanding text P item.blocks := fun entry hentry item hitem part hpart ↦
      h.parts part (List.mem_flatMap.mpr ⟨entry, hentry, List.mem_flatMap.mpr ⟨item, hitem, hpart⟩⟩)
    refine .visit rfl hfits ?_
    rw [convertElement]
    exact (meets_convertEntries _ none entries hentries).ending
      (yields_convertEntries _ none entries) fun _ hresult ↦ meets_wrappedWithTitle hresult
  | .listing info lines language =>
    refine .visit rfl hfits (meets_nil ?_ (fails_convertListing info lines language window))
    exact steady_convertListing _ info lines language window
  | .admonition info style lines blocks =>
    -- Only the last two cases are without content, and they make no further visit.
    match blocks, lines, h, hfits with
    | first :: rest, _, h, hfits =>
      exact .visit rfl hfits ((meets_convertBlocks window none (first :: rest)
        h.parts).ending (yields_convertBlocks window none (first :: rest)) fun _ hnodes ↦
          meets_wrappedWithTitle hnodes)
    | [], (c :: first) :: rest, _, hfits =>
      exact .visit rfl hfits ((meets_convertParagraphText _ window).ending
        (yields_convertParagraphText _ window) fun _ hnodes ↦ meets_wrappedWithTitle hnodes)
    | [], [], _, hfits =>
      exact (meets_throw ⟨around, lastEnd, window, _⟩ rfl hfits).ending
        (yields_throw _) fun _ hnodes ↦ meets_wrappedWithTitle hnodes
    | [], [] :: rest, _, hfits =>
      exact (meets_throw ⟨around, lastEnd, window, _⟩ rfl hfits).ending
        (yields_throw _) fun _ hnodes ↦ meets_wrappedWithTitle hnodes
  | .table info columnCount headRows bodyRows =>
    have hcells : ∀ row ∈ headRows ++ bodyRows, ∀ cell ∈ row,
        AllStanding text P ((cell.inner.map (·.blocks)).getD []) :=
      fun row hrow cell hcell part hpart ↦ h.parts part (List.mem_flatMap.mpr
        ⟨cell, List.mem_flatten.mpr ⟨row, hrow, hcell⟩, hpart⟩)
    refine .visit rfl hfits ?_
    rw [convertElement, visitsInside]
    refine (meets_nil (steady_convertBlockTitle _ info window)
      (fails_convertBlockTitle info window)).before (yields_convertBlockTitle info window)
        fun title htitle ↦ (meets_nil (steady_convertTableAttributes _ info.attributes window)
          (fails_convertTableAttributes info.attributes window)).before
            (yields_convertTableAttributes info.attributes window) fun attributes hattributes ↦ ?_
    have hheadRows := meets_convertRows window.maxLine none headRows fun row hrow ↦
      hcells row (List.mem_append_left _ hrow)
    have hbodyRows := fun lastEnd ↦ meets_convertRows window.maxLine lastEnd bodyRows
      fun row hrow ↦ hcells row (List.mem_append_right _ hrow)
    refine hheadRows.bind (yields_convertRows window.maxLine none headRows) fun head hhead ↦
      (hbodyRows head.2).ending (yields_convertRows window.maxLine head.2 bodyRows)
        fun body hbody ↦ ?_
    exact meets_wrapped (((htitle.toList.append hattributes.toList).append hhead).append hbody)
  | .image info target =>
    exact .visit rfl hfits (meets_nil (steady_convertImage _ info window)
      (fails_convertImage h.here.1 window))
  | .tableOfContents info =>
    exact .visit rfl hfits (meets_nil (steady_convertTableOfContents _ info window)
      (fails_convertTableOfContents h.here.1 window))
  | .header _ => exact .visit rfl hfits (meets_pure [])
  | .author _ => exact .visit rfl hfits (meets_pure [])
  | .tableCell _ => exact .visit rfl hfits (meets_pure [])
  | .unhandled _ _ => exact .visit rfl hfits (meets_pure [])

theorem meets_convertBlocks (window : Window) (lastEnd : Option Position) (blocks : List Element)
    (h : AllStanding text P blocks) :
    Meets P ((ofText settings.loosen text).convertBlocks window lastEnd blocks)
      ((ofText settings.loosen text).visitsOf window lastEnd blocks) := by
  match blocks with
  | [] => exact meets_pure []
  | element :: rest =>
    have hrest : AllStanding text P rest := fun other hother ↦
      h other (List.mem_cons_of_mem _ hother)
    rw [convertBlocks_cons, visitsOf]
    exact (meets_convertElement window lastEnd _ element (h element List.mem_cons_self)
      ⟨_, rfl⟩).bind (yields_trivial _) fun _ _ ↦
        (meets_reportOmission _ _).before (yields_trivial _) fun _ _ ↦
          (meets_convertBlocks window _ rest hrest).ending (yields_trivial _) fun _ _ ↦ meets_pure _

theorem meets_convertItems (window : Window) (behind : Int) (lastEnd : Option Position)
    (items : List ListItem) (h : ∀ item ∈ items, AllStanding text P item.blocks) :
    Meets P ((ofText settings.loosen text).convertItems window behind lastEnd items)
      ((ofText settings.loosen text).visitsOfItems window behind lastEnd items) := by
  match items with
  | [] => exact meets_pure _
  | item :: rest =>
    have hrest : ∀ other ∈ rest, AllStanding text P other.blocks := fun other hother ↦
      h other (List.mem_cons_of_mem _ hother)
    rw [convertItems_cons, visitsOfItems]
    exact (meets_convertItem _ item (h item List.mem_cons_self)).bind (yields_trivial _) fun _ _ ↦
      (meets_reportOmission _ _).before (yields_trivial _) fun _ _ ↦
        (meets_convertItems window behind _ rest hrest).ending (yields_trivial _) fun _ _ ↦
          meets_pure _

theorem meets_convertEntries (window : Window) (lastEnd : Option Position)
    (entries : List DescriptionEntry)
    (h : ∀ entry ∈ entries, ∀ item ∈ entry.terms ++ entry.description.toList,
      AllStanding text P item.blocks) :
    Meets P ((ofText settings.loosen text).convertEntries window lastEnd entries)
      ((ofText settings.loosen text).visitsOfEntries window lastEnd entries) := by
  match entries with
  | [] => exact meets_pure _
  | ⟨terms, none⟩ :: rest =>
    have hterms : ∀ term ∈ terms, AllStanding text P term.blocks := fun term hterm ↦
      h _ List.mem_cons_self term (List.mem_append_left _ hterm)
    rw [convertEntries, visitsOfEntries]
    exact (meets_convertItems window _ lastEnd terms hterms).bind (yields_trivial _) fun _ _ ↦
      (meets_convertEntries window _ rest fun other hother ↦
        h other (List.mem_cons_of_mem _ hother)).ending (yields_trivial _) fun _ _ ↦ meets_pure _
  | ⟨terms, some description⟩ :: rest =>
    have hterms : ∀ term ∈ terms, AllStanding text P term.blocks := fun term hterm ↦
      h _ List.mem_cons_self term (List.mem_append_left _ hterm)
    have hdescription : AllStanding text P description.blocks :=
      h _ List.mem_cons_self description (List.mem_append_right _ List.mem_cons_self)
    rw [convertEntries, visitsOfEntries]
    exact (meets_convertItems window _ lastEnd terms hterms).bind (yields_trivial _) fun _ _ ↦
      (meets_convertItem _ description hdescription).bind (yields_trivial _) fun _ _ ↦
        (meets_reportOmission _ _).before (yields_trivial _) fun _ _ ↦
          (meets_convertEntries window _ rest fun other hother ↦
            h other (List.mem_cons_of_mem _ hother)).ending (yields_trivial _) fun _ _ ↦
              meets_pure _

theorem meets_convertItem (window : Window) (item : ListItem)
    (h : AllStanding text P item.blocks) :
    Meets P ((ofText settings.loosen text).convertItem window item)
      ((ofText settings.loosen text).visitsOfItem window item) := by
  match item with
  | ⟨info, content, checkbox, blocks⟩ =>
    have hattach : ∀ own, (ofText settings.loosen text).AllShown own →
        Meets P (do
          let attached ← (ofText settings.loosen text).convertBlocks window none blocks
          (ofText settings.loosen text).wrapped .listItem (own ++ attached))
            ((ofText settings.loosen text).visitsOf window none blocks) :=
      fun own hown ↦ (meets_convertBlocks window none blocks h).ending
        (yields_convertBlocks window none blocks) fun attached hattached ↦
          meets_wrapped (hown.append hattached)
    match content with
    | some (c :: rest) =>
      rw [convertItem]
      exact (meets_convertParagraphText _ window).before (yields_convertParagraphText _ window)
        hattach
    | some [] => exact (meets_pure []).before (yields_pure allShown_nil) hattach
    | none => exact (meets_pure []).before (yields_pure allShown_nil) hattach

theorem meets_convertRows (maxLine : Int) (lastEnd : Option Position)
    (rows : List (List TableCell))
    (h : ∀ row ∈ rows, ∀ cell ∈ row, AllStanding text P ((cell.inner.map (·.blocks)).getD [])) :
    Meets P ((ofText settings.loosen text).convertRows maxLine lastEnd rows)
      ((ofText settings.loosen text).visitsOfRows maxLine lastEnd rows) := by
  match rows with
  | [] => exact meets_pure _
  | [] :: rest =>
    rw [convertRows]
    exact meets_convertRows maxLine lastEnd rest fun row hrow ↦
      h row (List.mem_cons_of_mem _ hrow)
  | (first :: others) :: rest =>
    rw [convertRows, visitsOfRows]
    exact (meets_convertCells maxLine _ (first :: others) (h _ List.mem_cons_self)).bind
      (yields_convertCells maxLine _ (first :: others)) fun cells hcells ↦
        (meets_wrapped hcells).bind (yields_trivial _) fun row _ ↦
          (meets_convertRows maxLine _ rest fun row hrow ↦
            h row (List.mem_cons_of_mem _ hrow)).ending (yields_trivial _) fun _ _ ↦ meets_pure _

theorem meets_convertCells (maxLine : Int) (lastEnd : Position) (cells : List TableCell)
    (h : ∀ cell ∈ cells, AllStanding text P ((cell.inner.map (·.blocks)).getD [])) :
    Meets P ((ofText settings.loosen text).convertCells maxLine lastEnd cells)
      ((ofText settings.loosen text).visitsOfCells maxLine lastEnd cells) := by
  match cells with
  | [] => exact meets_pure []
  | cell :: rest =>
    have hrest : ∀ other ∈ rest, AllStanding text P ((other.inner.map (·.blocks)).getD []) :=
      fun other hother ↦ h other (List.mem_cons_of_mem _ hother)
    rw [convertCells, visitsOfCells]
    refine (meets_convertCell _ cell (h cell List.mem_cons_self)).bind (yields_trivial _)
      fun result _ ↦ ?_
    cases result with
    | none => exact meets_convertCells maxLine lastEnd rest hrest
    | some node =>
      exact (meets_convertCells maxLine _ rest hrest).ending (yields_trivial _) fun _ _ ↦
        meets_pure _

theorem meets_convertCell (window : Window) (cell : TableCell)
    (h : AllStanding text P ((cell.inner.map (·.blocks)).getD [])) :
    Meets P ((ofText settings.loosen text).convertCell window cell)
      ((ofText settings.loosen text).visitsOfCell window cell) := by
  have hcell : ∀ {location : Location} (children : List Node),
      (Source.ofText text).HasSpan location → Meets P (do
        return some (← assembled
          (Node.located (Source.ofText text) .tableCell cell.text location children))) [] :=
    fun children hspan ↦ meets_nil (steady_some _) (fails_some (fails_located hspan))
  have hleaf : ∀ {location : Location}, (Source.ofText text).HasSpan location →
      Meets P (assembled (Node.str (Source.ofText text) cell.text location)) [] :=
    fun hspan ↦ meets_nil (steady_assembled _) (fails_located hspan)
  match cell with
  | ⟨info, content, style, colspan, none⟩ =>
    rw [convertCell, visitsOfCell]
    refine (meets_find false content.lines window).before
      (yields_find _ false content.lines window) fun found hfound ↦ ?_
    cases found with
    | none => exact meets_pure none
    | some location =>
      have hspan := Locator.hasSpan_of_find? hfound.symm
      dsimp only
      split
      · next hnone => cases hnone
      · exact (hleaf hspan).before (yields_trivial _) fun leaf _ ↦ hcell [leaf] hspan
  | ⟨info, content, style, colspan, some ⟨_, _, blocks⟩⟩ =>
    rw [convertCell, visitsOfCell]
    refine (meets_find false content.lines window).bind
      (yields_find _ false content.lines window) fun found hfound ↦ ?_
    cases found with
    | none => exact meets_pure none
    | some location =>
      have hspan := Locator.hasSpan_of_find? hfound.symm
      by_cases hstyle : style = some .asciidoc
      · subst hstyle
        exact (meets_convertBlocks _ none blocks h).ending (yields_trivial _) fun children _ ↦
          hcell children hspan
      · -- A document in a cell of another style is not gone into.
        rw [if_neg fun hboth ↦ hstyle hboth.2]
        dsimp only
        split
        · exact absurd rfl hstyle
        · exact (hleaf hspan).before (yields_trivial _) fun leaf _ ↦ hcell [leaf] hspan

theorem meets_convertDocument (window : Window) (document : Document)
    (h : AllStanding text P document.blocks) :
    Meets P ((ofText settings.loosen text).convertDocument window document)
      ((ofText settings.loosen text).visitsOfDocument window document) := by
  match document with
  | ⟨info, header, blocks⟩ =>
    rw [convertDocument, visitsOfDocument]
    refine (meets_convertBlocks window none blocks h).ending
      (yields_convertBlocks window none blocks) fun nodes hnodes ↦ ?_
    have hroot : ∀ head, (ofText settings.loosen text).AllShown head →
        Meets P (do
          if (head ++ nodes).isEmpty then return []
          else return [← assembled (Node.documentAround (Source.ofText text) (head ++ nodes))] :
          Conversion (List Node)) [] :=
      fun head hhead ↦ meets_nil (steady_root (ofText settings.loosen text) _)
        (fails_root (hhead.append hnodes))
    cases header with
    | none => exact (meets_pure []).before (yields_pure allShown_nil) hroot
    | some header =>
      exact (meets_nil (steady_convertHeader _ info.id header window)
        (fails_convertHeader info.id header window)).before
          (yields_convertHeader info.id header window) hroot

end

end Course

/-! ### Documents -/

section Documents

variable {settings : Settings} {marker text : Text} {document : Document}

/-- The elements of a document that was read from a text stand on lines of the text, and are met in
the document. -/
theorem allStanding_of_ofText (h : (Document.ofText marker text).1 = .ok document) :
    AllStanding text (· ∈ (Element.document document).preorder) document.blocks := by
  intro block hblock held hheld
  obtain ⟨hfirst, hlast⟩ := Blocks.lineno_of_ofText h block hblock held hheld
  have hindex : (held.info.lineno - 1).toNat < text.lines.length := by
    have hlineno : held.lineno = held.info.lineno := rfl
    omega
  exact ⟨⟨_, (Source.line?_eq_getElem? _ hfirst).trans (List.getElem?_eq_getElem hindex)⟩,
    (Element.Holds.inside hblock hheld).mem_preorder⟩

/-- The visits of a conversion to the blocks of a document that was read from a text. -/
def visitsOfText (settings : Settings) (text : Text) (document : Document) : List Visit :=
  (ofText settings.loosen text).visitsOf { minLine := 1, maxLine := text.lines.length } none
    document.blocks

/-- The conversion of a document that was read from a text meets its blocks, which are elements of
the document. -/
theorem meets_convertRoot (hread : (Document.ofText marker text).1 = .ok document) :
    Meets (· ∈ (Element.document document).preorder)
      ((ofText settings.loosen text).convertRoot document)
      (visitsOfText settings text document) := by
  have hblocks := allStanding_of_ofText hread
  obtain ⟨info, header, blocks⟩ := document
  rw [convertRoot]
  exact (meets_convertDocument _ _ hblocks).ending (yields_trivial _) fun nodes _ ↦
    (meets_nil (steady_report _ _) (fails_report _ _)).before (yields_trivial _) fun _ _ ↦
      meets_pure _

/-- The conversion of a document that was read from a text fails just if it visits an admonition
without content. -/
theorem locateDocument_eq_error_iff {problem : ConversionError}
    (hread : (Document.ofText marker text).1 = .ok document) :
    (locateDocument settings.loosen document text).1 = .error problem ↔
      ∃ visit, firstEmptyAdmonition? (visitsOfText settings text document) = some visit ∧
        problem = .emptyAdmonition visit.window.minLine := by
  have hmeets : Meets _ ((ofText settings.loosen text).convertRoot document) _ :=
    meets_convertRoot hread
  rw [locateDocument]
  cases hfirst : firstEmptyAdmonition? (visitsOfText settings text document) with
  | none =>
    obtain ⟨root, log, hrun, -⟩ := hmeets.succeeds hfirst []
    rw [hrun]
    exact iff_of_false (by simp) (by simp)
  | some visit =>
    obtain ⟨log, hrun⟩ := hmeets.fails visit hfirst []
    rw [hrun]
    simp [eq_comm]

end Documents

end Converter

end AsciidocSpans
