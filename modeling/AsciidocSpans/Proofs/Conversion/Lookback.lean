import AsciidocSpans.Proofs.Conversion.Asides
import AsciidocSpans.Proofs.Conversion.Preceding
import AsciidocSpans.Proofs.Conversion.Steady
import AsciidocSpans.Proofs.Conversion.Unfailing
import AsciidocSpans.Proofs.Span.Contained
import AsciidocSpans.Proofs.Span.Widening

/-!
Looking further back. Settings are raised to others that only differ by larger lookbacks for ids and
block titles. Then a conversion finds every id and every block title that it found, where it found
it (`FoundAgain`). What it only finds with a larger lookback is fresh: `freshId?` and `freshTitle?`
say where it stands.

So each step by which a single element is converted echoes itself: what it comes to is kept, and it
ends later, if at all, at what is fresh (`KeepsBut`). The element's own text and what it has inside
are looked for just as before; that what is inside is kept is an assumption here where it takes a
conversion of its own.
-/

set_option autoImplicit false
set_option relaxedAutoImplicit false

namespace AsciidocSpans

/-- Other settings look back as far for ids and block titles, or further, and say the same of
everything else. -/
structure Settings.RaisedTo (settings wider : Settings) : Prop where
  others : wider = { settings with
    idLookback := wider.idLookback
    titleLookback := wider.titleLookback }
  id : settings.idLookback ≤ wider.idLookback
  title : settings.titleLookback ≤ wider.titleLookback

/-- What does not depend on the lookbacks for ids and block titles is the same. -/
theorem Settings.RaisedTo.same {settings wider : Settings} (h : settings.RaisedTo wider) {α : Type}
    (f : Settings → α)
    (hf : ∀ idLookback titleLookback, f { settings with idLookback, titleLookback } = f settings) :
    f settings = f wider := by
  rw [h.others]
  exact (hf _ _).symm

namespace Converter

/-! ### What is found again -/

/-- What was found is found again by another search, and what only that one finds is fresh. -/
structure FoundAgain {α : Type} (fresh : α → Prop) (found other : Option α) : Prop where
  same : ∀ result ∈ found, other = some result
  fresh : found = none → ∀ result ∈ other, fresh result

theorem foundAgain_refl {α : Type} {fresh : α → Prop} (found : Option α) :
    FoundAgain fresh found found where
  same := fun _ hfound ↦ hfound
  fresh := by
    rintro rfl
    exact nofun

/-- A position is where a span ends, if there is one. -/
def IsStop (fresh : Option Location) (position : Position) : Prop :=
  ∃ location ∈ fresh, location.stop = position

section Fresh

variable {fresh : Option Location} {found other : Option Node}

/-- A node that is found again is kept. -/
theorem FoundAgain.keeps (h : FoundAgain (fun node ↦ fresh = some node.location) found other) :
    Keeps (IsStop fresh) found.toList other.toList := by
  cases found with
  | none =>
    refine ⟨List.nil_sublist _, nofun, fun node hnode ↦ Or.inl ⟨node.location, ?_, rfl⟩⟩
    exact h.fresh rfl node (Option.mem_toList.mp hnode)
  | some node =>
    rw [h.same node rfl]
    exact keeps_refl _

/-- A span that is extended to what is found again ends later at what is fresh only. -/
theorem FoundAgain.stop_unionAll
    (h : FoundAgain (fun node ↦ fresh = some node.location) found other) (location : Location) :
    let stop := fun node : Option Node ↦ (location.unionAll (node.toList.map (·.location))).stop
    stop found ≤ stop other ∧ (IsStop fresh (stop other) ∨ stop other = stop found) := by
  cases found with
  | some node =>
    rw [h.same node rfl]
    exact ⟨Position.le_refl _, Or.inr rfl⟩
  | none =>
    cases other with
    | none => exact ⟨Position.le_refl _, Or.inr rfl⟩
    | some node =>
      refine ⟨Position.left_le_later _ _, ?_⟩
      rcases Position.later_eq_or location.stop node.location.stop with hold | hnew
      · exact Or.inr hold
      · exact Or.inl ⟨node.location, h.fresh rfl node rfl, hnew.symm⟩

end Fresh

/-- What is kept ends later at what is fresh only, if there is anything; and where there was nothing
there is nothing still, but for what can stand alone. -/
structure KeepsBut (fresh : Option Location) (alone : Bool) (nodes others : List Node) :
    Prop where
  keeps : Keeps (IsStop fresh) nodes others
  empty : alone = false → nodes = [] → others = []

/-- What is kept and ends where it did is kept whatever is fresh. -/
theorem Keeps.keepsBut {fresh : Option Location} {alone : Bool} {nodes others : List Node}
    (h : Keeps never nodes others) : KeepsBut fresh alone nodes others :=
  ⟨h.of_never, fun _ ↦ h.eq_nil_iff.mpr⟩

variable {settings wider : Settings} {text : Text}

section Searches

variable {window : Window} {kind : NodeKind} {raw : Text} {lookback further : Int}

/-- With raised settings, a search in a window is the same. -/
theorem echoes_find (h : settings.RaisedTo wider) (verbatim : Bool) (segments : List Text)
    (window : Window) :
    Echoes
      (fun found other ↦ found = other ∧
        other = (ofText wider.loosen text).locator.find? verbatim segments window)
      ((ofText settings.loosen text).find verbatim segments window)
      ((ofText wider.loosen text).find verbatim segments window) := by
  rw [h.same (fun given ↦ (ofText given.loosen text).find) fun _ _ ↦ rfl]
  exact (steady_find _ _ _ _).echoes (yields_find _ _ _ _)

/-- A search before a window in the course of a conversion results in what the locator finds. -/
theorem yields_findBefore? (converter : Converter) (segments : List Text) (window : Window)
    (lookback : Int) :
    Yields (converter.locateBefore segments window (.integer lookback))
      (· = converter.locator.findBefore? false segments window lookback) := by
  have hhighest : (Value.integer lookback).highestLine? window =
      some (window.highestLine lookback) := rfl
  rw [locateBefore, hhighest, usable, pure_bind]
  refine (yields_trivial _).bind fun _ _ ↦ ?_
  split
  · next location hlocation => exact yields_pure hlocation.symm
  · next hnone => exact (yields_trivial _).bind fun _ _ ↦ yields_pure hnone.symm

/-- A larger lookback finds text again before a window. -/
theorem foundAgain_findBefore? (locator : Locator) (hle : lookback ≤ further) :
    FoundAgain (fun location ↦
        locator.findFurther? raw window lookback further = some location)
      (locator.findBefore? false [raw] window lookback)
      (locator.findBefore? false [raw] window further) where
  same := fun _ hfound ↦ Locator.findBefore?_of_lookback_le hle hfound
  fresh := fun hnone _ hother ↦ Locator.findFurther?_eq_some_iff.mpr ⟨hnone, hother⟩

/-- A larger lookback finds text again in the course of a conversion. -/
theorem echoes_locateBefore (h : settings.RaisedTo wider) (hle : lookback ≤ further) :
    Echoes
      (FoundAgain fun location ↦ (ofText settings.loosen text).locator.findFurther? raw window
        lookback further = some location)
      ((ofText settings.loosen text).locateBefore [raw] window (.integer lookback))
      ((ofText wider.loosen text).locateBefore [raw] window (.integer further)) := by
  refine (steady_locateBefore _ _ _ _).echoes_of_yields (yields_findBefore? _ _ _ _)
    (fails_locateBefore _ _ _) (yields_findBefore? _ _ _ _) fun found other hfound hother ↦ ?_
  rw [hfound, hother, ← h.same (fun given ↦ (ofText given.loosen text).locator) fun _ _ ↦ rfl]
  exact foundAgain_findBefore? _ hle

/-- A node around its text has the span that was asked for. -/
theorem yields_location_aroundText {source : Source} {location : Location} :
    Yields (do return some (← assembled (Node.aroundText source kind raw location)) :
      Conversion (Option Node)) fun result ↦ ∀ node ∈ result, node.location = location := by
  refine (yields_assembled (P := fun node : Node ↦ node.location = location)
    fun node hnode ↦ ?_).bind fun node hnode ↦ yields_pure fun other hother ↦ ?_
  · obtain ⟨range, leaf, -, -, rfl⟩ := aroundText_eq_ok hnode
    rfl
  · cases hother
    exact hnode

/-- A larger lookback finds the node of some text again before a window. -/
theorem echoes_aside (h : settings.RaisedTo wider) (hle : lookback ≤ further) :
    Echoes
      (FoundAgain fun node ↦ (ofText settings.loosen text).locator.findFurther? raw window
        lookback further = some node.location)
      (do
        match ← (ofText settings.loosen text).locateBefore [raw] window (.integer lookback) with
        | some location =>
          return some (← assembled (Node.aroundText (Source.ofText text) kind raw location))
        | none => return none)
      (do
        match ← (ofText wider.loosen text).locateBefore [raw] window (.integer further) with
        | some location =>
          return some (← assembled (Node.aroundText (Source.ofText text) kind raw location))
        | none => return none) := by
  refine ((echoes_locateBefore h hle).and (yields_locateBefore _ _ _)).bind
    fun found other _ hresult ↦ ?_
  obtain ⟨hagain, hspan⟩ := hresult
  cases found with
  | some location =>
    rw [hagain.same location rfl]
    refine ((steady_some _).echoes (yields_trivial _)).mono fun node same heq ↦ ?_
    rw [heq.1]
    exact foundAgain_refl same
  | none =>
    cases other with
    | none => exact echoes_pure (foundAgain_refl none)
    | some location =>
      obtain ⟨line, hline⟩ := hspan location rfl
      refine (steady_pure none).echoes_of_yields (yields_pure rfl)
        (fails_some (fails_aroundText (Locator.hasSpan_of_find? hline)))
        yields_location_aroundText fun node same hnone hsame ↦ ⟨?_, fun _ result hresult ↦ ?_⟩
      · rw [← hnone]
        exact nofun
      · rw [hsame result hresult]
        exact hagain.fresh rfl location rfl

end Searches

/-! ### Ids and block titles -/

/-- Where raised settings find an id before a window that is not found without them. -/
def freshId? (settings wider : Settings) (text : Text) (id : Option Text) (window : Window) :
    Option Location :=
  match id with
  | some (c :: rest) => (ofText settings.loosen text).locator.findFurther? (c :: rest) window
      settings.idLookback wider.idLookback
  | _ => none

/-- Where raised settings find a block title before a window that is not found without them. -/
def freshTitle? (settings wider : Settings) (text : Text) (info : ElementInfo)
    (window : Window) : Option Location :=
  match info.title with
  | some (c :: rest) => (ofText settings.loosen text).locator.findFurther? ('.' :: c :: rest) window
      settings.titleLookback wider.titleLookback
  | _ => none

section Asides

/-- With raised settings, the node of an id that was found is found again. -/
theorem echoes_convertId (h : settings.RaisedTo wider) (id : Option Text) (window : Window) :
    Echoes (FoundAgain fun node ↦ freshId? settings wider text id window = some node.location)
      ((ofText settings.loosen text).convertId id window)
      ((ofText wider.loosen text).convertId id window) := by
  cases id with
  | none => exact echoes_pure (foundAgain_refl none)
  | some shown =>
    cases shown with
    | nil => exact echoes_pure (foundAgain_refl none)
    | cons c rest => exact echoes_aside h h.id

/-- With raised settings, the node of a block title that was found is found again. -/
theorem echoes_convertBlockTitle (h : settings.RaisedTo wider) (info : ElementInfo)
    (window : Window) :
    Echoes (FoundAgain fun node ↦ freshTitle? settings wider text info window = some node.location)
      ((ofText settings.loosen text).convertBlockTitle info window)
      ((ofText wider.loosen text).convertBlockTitle info window) := by
  rw [convertBlockTitle, convertBlockTitle, freshTitle?]
  cases info.title with
  | none => exact echoes_pure (foundAgain_refl none)
  | some shown =>
    cases shown with
    | nil => exact echoes_pure (foundAgain_refl none)
    | cons c rest => exact echoes_aside h h.title

/-- Where the lookback for block titles is the same, no block title is fresh. -/
theorem freshTitle?_of_eq (h : wider.titleLookback = settings.titleLookback) (info : ElementInfo)
    (window : Window) : freshTitle? settings wider text info window = none := by
  rw [freshTitle?, h]
  split
  · exact Locator.findFurther?_self
  · rfl

/-- A fresh id ends above the window, if the line directly above was tried before. -/
theorem stop_line_lt_of_freshId? (htried : 1 ≤ settings.idLookback) {id : Option Text}
    {window : Window} {location : Location}
    (h : freshId? settings wider text id window = some location) :
    location.stop.line < window.minLine := by
  match id with
  | none | some [] => cases h
  | some (c :: rest) => exact Locator.stop_line_lt_of_findFurther? htried h

end Asides

/-! ### Building nodes -/

section Building

variable {kind : NodeKind} {raw : Text} {excepted : Position → Prop} {fresh : Option Location}
  {alone : Bool} {children others : List Node}

/-- A node with a span of its own keeps what another one holds, if it ends no earlier. -/
theorem echoes_located {location place : Location} (hkind : kind.isAside = false)
    (hplace : (Source.ofText text).HasSpan place) (hle : location.stop ≤ place.stop)
    (hlater : excepted place.stop ∨ place.stop = location.stop)
    (hasides : (Node.asidesOf children).Sublist (Node.asidesOf others)) :
    Echoes (fun node other ↦ Keeps excepted [node] [other])
      (assembled (Node.located (Source.ofText text) kind raw location children))
      (assembled (Node.located (Source.ofText text) kind raw place others)) := by
  refine (steady_assembled _).echoes_of_yields (yields_assembled fun _ hnode ↦ located_eq_ok hnode)
    (fails_located hplace) (yields_assembled fun _ hnode ↦ located_eq_ok hnode)
    fun node other hnode hother ↦ ?_
  obtain ⟨range, -, rfl⟩ := hnode
  obtain ⟨offsets, -, rfl⟩ := hother
  exact keeps_single hkind hle hlater hasides

/-- A node around some nodes keeps what they keep. -/
theorem echoes_around (hkind : kind.isAside = false)
    (hkeeps : Keeps (IsStop fresh) children others) (hsome : children ≠ [])
    (hbuilt : ∀ other ∈ others, (ofText wider.loosen text).Built other) :
    Echoes (KeepsBut fresh alone)
      (do return [← assembled (Node.around (Source.ofText text) kind raw children)])
      (do return [← assembled (Node.around (Source.ofText text) kind raw others)]) := by
  have hothers : others ≠ [] := by
    obtain ⟨child, hchild⟩ := List.exists_mem_of_ne_nil children hsome
    obtain ⟨other, hother, -⟩ := hkeeps.reaches child hchild
    exact List.ne_nil_of_mem hother
  exact (steady_single _).echoes_of_yields (yields_gathered_around hkind raw)
    (fails_single (fails_around hothers hbuilt)) (yields_gathered_around hkind raw)
    fun nodes further hnodes hfurther ↦
      ⟨hkeeps.gathered hnodes hfurther, fun _ hnil ↦ absurd (hnodes.eq_nil_iff.mp hnil) hsome⟩

theorem echoes_wrapped (hkind : kind.isAside = false) (hkeeps : Keeps excepted children others)
    (hshown : (ofText wider.loosen text).AllShown others) :
    Echoes (Keeps excepted) ((ofText settings.loosen text).wrapped kind children)
      ((ofText wider.loosen text).wrapped kind others) :=
  (steady_wrapped _ _ _).echoes_of_yields (yields_gathered_wrapped hkind) (fails_wrapped hshown)
    (yields_gathered_wrapped hkind) fun _ _ ↦ hkeeps.gathered

/-- The node around a title and other nodes ends later at a fresh title only. -/
theorem echoes_wrappedWithTitle (h : settings.RaisedTo wider) (hkind : kind.isAside = false)
    (hkeeps : Keeps never children others) (hshown : (ofText wider.loosen text).AllShown others)
    (info : ElementInfo) (window : Window) :
    Echoes (KeepsBut (freshTitle? settings wider text info window) alone)
      ((ofText settings.loosen text).wrappedWithTitle kind info children window)
      ((ofText wider.loosen text).wrappedWithTitle kind info others window) := by
  rw [wrappedWithTitle, wrappedWithTitle]
  by_cases hnil : children = []
  · rw [hkeeps.eq_nil_iff.mpr hnil, hnil]
    exact echoes_pure (keeps_refl []).keepsBut
  · rw [if_neg (mt List.isEmpty_iff.mp hnil),
      if_neg (mt List.isEmpty_iff.mp (mt hkeeps.eq_nil_iff.mp hnil))]
    refine ((echoes_convertBlockTitle h info window).and
      (yields_convertBlockTitle info window)).bind fun title other _ htitle ↦ ?_
    obtain ⟨hagain, hother⟩ := htitle
    have hbuilt := hother.toList.append hshown
    exact echoes_around hkind (hagain.keeps.append hkeeps.of_never)
      (List.append_ne_nil_of_right_ne_nil _ hnil) fun node hnode ↦ (hbuilt node hnode).1

end Building

/-! ### Elements that are found in their windows -/

section Leaves

/-- A step that does not look back keeps what it comes to. -/
theorem echoes_keeps {x : Conversion (List Node)} (hx : Steady x) : Echoes (Keeps never) x x := by
  refine (hx.echoes (yields_trivial _)).mono fun nodes others heq ↦ ?_
  rw [heq.1]
  exact keeps_refl others

theorem echoes_convertParagraphText (h : settings.RaisedTo wider) (value : Text)
    (window : Window) :
    Echoes (Keeps never) ((ofText settings.loosen text).convertParagraphText value window)
      ((ofText wider.loosen text).convertParagraphText value window) := by
  rw [h.same (fun given ↦ (ofText given.loosen text).convertParagraphText) fun _ _ ↦ rfl]
  exact echoes_keeps (steady_convertParagraphText _ _ _)

/-- The leaf at a span that a search found is built. -/
theorem yields_leaf {converter : Converter} {segments : List Text} {window : Window}
    {location : Location}
    (hfound : converter.locator.find? false segments window = some location) :
    Yields (assembled (Node.str converter.source (Text.unlines segments) location))
      converter.Built :=
  yields_assembled fun _ hleaf ↦ (built_str hfound hleaf).1

theorem echoes_convertParagraph (h : settings.RaisedTo wider) (info : ElementInfo)
    (lines : List Text) (window : Window) :
    Echoes (KeepsBut (freshTitle? settings wider text info window) false)
      ((ofText settings.loosen text).convertParagraph info lines window)
      ((ofText wider.loosen text).convertParagraph info lines window) := by
  rw [convertParagraph, convertParagraph]
  refine (echoes_find h false lines window).bind fun found _ _ hresult ↦ ?_
  obtain ⟨rfl, hfound⟩ := hresult
  cases found with
  | none => exact echoes_pure (keeps_refl []).keepsBut
  | some location =>
    refine ((echoes_convertBlockTitle h info window).and
      (yields_convertBlockTitle info window)).bind fun title other _ htitle ↦ ?_
    refine ((steady_assembled _).echoes (yields_leaf hfound.symm)).bind fun leaf _ _ hresult ↦ ?_
    obtain ⟨rfl, hbuilt⟩ := hresult
    have hshown := built_titled htitle.2.toList allShown_nil hbuilt
    rw [List.append_nil] at hshown
    exact echoes_around rfl (htitle.1.keeps.append (keeps_refl [leaf])) (by simp) hshown

theorem echoes_convertListing (h : settings.RaisedTo wider) (info : ElementInfo)
    (lines : List Text) (language : Option Text) (window : Window) :
    Echoes (KeepsBut (freshTitle? settings wider text info window) false)
      ((ofText settings.loosen text).convertListing info lines language window)
      ((ofText wider.loosen text).convertListing info lines language window) := by
  rw [convertListing, convertListing]
  refine (echoes_find h true lines window).bind fun found _ _ hresult ↦ ?_
  obtain ⟨rfl, hfound⟩ := hresult
  cases found with
  | none => exact echoes_pure (keeps_refl []).keepsBut
  | some location =>
    refine ((echoes_convertBlockTitle h info window).and
      (yields_convertBlockTitle info window)).bind fun title other _ htitle ↦ ?_
    have hspan := hasSpan_extended (Locator.hasSpan_of_find? hfound.symm) htitle.2.toList
    obtain ⟨hle, hlater⟩ := htitle.1.stop_unionAll location
    exact (echoes_located rfl hspan hle hlater htitle.1.keeps.asides).bind fun _ _ _ hkeeps ↦
      echoes_pure ⟨hkeeps, fun _ hnil ↦ absurd hnil (List.cons_ne_nil _ _)⟩

theorem convertNamedAttributes_same (idLookback titleLookback : Int) (info : ElementInfo)
    (names : List Value) :
    (ofText { settings with idLookback, titleLookback }.loosen text).convertNamedAttributes info
      names = (ofText settings.loosen text).convertNamedAttributes info names := by
  induction names with
  | nil => simp only [convertNamedAttributes]
  | cons name rest ih =>
    cases name with
    | text name =>
      rw [convertNamedAttributes, convertNamedAttributes, ih]
      rfl
    | _ => simp only [convertNamedAttributes, ih]

theorem convertImageAttributes_same (idLookback titleLookback : Int) (info : ElementInfo) :
    (ofText { settings with idLookback, titleLookback }.loosen text).convertImageAttributes info =
      (ofText settings.loosen text).convertImageAttributes info := by
  rw [convertImageAttributes, convertImageAttributes]
  simp only [convertNamedAttributes_same]
  rfl

theorem echoes_convertImage (h : settings.RaisedTo wider) (info : ElementInfo)
    (window : Window) :
    Echoes (KeepsBut (freshTitle? settings wider text info window) false)
      ((ofText settings.loosen text).convertImage info window)
      ((ofText wider.loosen text).convertImage info window) := by
  rw [convertImage, convertImage, h.same (fun given ↦ (ofText given.loosen text).ownLine)
    fun _ _ ↦ rfl]
  refine ((steady_ownLine _ info).echoes (yields_trivial _)).bind fun raw _ _ hraw ↦ ?_
  obtain ⟨rfl, -⟩ := hraw
  refine (echoes_find h false [raw] window).bind fun found _ _ hresult ↦ ?_
  obtain ⟨rfl, hfound⟩ := hresult
  cases found with
  | none => exact echoes_pure (keeps_refl []).keepsBut
  | some location =>
    refine ((echoes_convertBlockTitle h info window).and
      (yields_convertBlockTitle info window)).bind fun title other _ htitle ↦ ?_
    rw [h.same (fun given ↦ (ofText given.loosen text).convertImageAttributes)
      fun _ _ ↦ funext fun _ ↦ convertImageAttributes_same _ _ _]
    refine ((steady_convertImageAttributes _ info).echoes
      (yields_convertImageAttributes info)).bind fun attributes _ _ hresult ↦ ?_
    obtain ⟨rfl, hattributes⟩ := hresult
    refine ((steady_assembled _).echoes (yields_leaf hfound.symm)).bind fun leaf _ _ hresult ↦ ?_
    obtain ⟨rfl, hbuilt⟩ := hresult
    exact echoes_around rfl
      ((htitle.1.keeps.append (keeps_refl attributes)).append (keeps_refl [leaf])) (by simp)
      (built_titled htitle.2.toList hattributes hbuilt)

theorem echoes_convertTableOfContents (h : settings.RaisedTo wider) (info : ElementInfo)
    (window : Window) :
    Echoes (Keeps never) ((ofText settings.loosen text).convertTableOfContents info window)
      ((ofText wider.loosen text).convertTableOfContents info window) := by
  rw [h.same (fun given ↦ (ofText given.loosen text).convertTableOfContents) fun _ _ ↦ rfl]
  exact echoes_keeps (steady_convertTableOfContents _ _ _)

end Leaves

/-! ### Titles and headers -/

section Titles

/-- With raised settings, a title is the same. -/
theorem echoes_convertTitle (h : settings.RaisedTo wider) (title : Text) (level : Int)
    (window : Window) :
    Echoes (fun found other ↦ found = other)
      ((ofText settings.loosen text).convertTitle title level window)
      ((ofText wider.loosen text).convertTitle title level window) := by
  rw [h.same (fun given ↦ (ofText given.loosen text).convertTitle) fun _ _ ↦ rfl]
  exact ((steady_convertText? _ _ _ _).echoes (yields_trivial _)).mono fun _ _ ↦ And.left

theorem convertAuthors_same (idLookback titleLookback : Int) (column : Int)
    (authors : List Author) :
    (ofText { settings with idLookback, titleLookback }.loosen text).convertAuthors column
      authors = (ofText settings.loosen text).convertAuthors column authors := by
  induction authors generalizing column with
  | nil => simp only [convertAuthors]
  | cons author rest ih =>
    rw [convertAuthors, convertAuthors]
    simp only [ih]
    rfl

/-- A header ends later at a fresh id only. -/
theorem echoes_convertHeader (h : settings.RaisedTo wider) (id : Option Text) (header : Header)
    (window : Window) :
    Echoes
      (Keeps (IsStop (freshId? settings wider text id (window.narrowed header.info.lineno none))))
      ((ofText settings.loosen text).convertHeader id header window)
      ((ofText wider.loosen text).convertHeader id header window) := by
  rw [convertHeader, convertHeader]
  refine (echoes_convertId h id _).bind fun found other _ hagain ↦
    (echoes_convertTitle h _ _ _).bind fun title _ _ htitle ↦ ?_
  cases htitle
  have hkeeps := fun authors : List Node ↦
    (hagain.keeps.append (keeps_refl title.toList)).append (keeps_refl authors)
  rw [h.same (fun given ↦ (ofText given.loosen text).settings.includeAuthors) fun _ _ ↦ rfl]
  by_cases hasked : (ofText wider.loosen text).settings.includeAuthors.isTrue = true
  · rw [if_pos hasked, if_pos hasked,
      h.same (fun given ↦ (ofText given.loosen text).convertAuthors 0 header.authors)
        fun _ _ ↦ convertAuthors_same _ _ _ _]
    refine ((steady_convertAuthors _ 0 header.authors).echoes (yields_trivial _)).bind
      fun authors _ _ hsame ↦ ?_
    obtain ⟨rfl, -⟩ := hsame
    exact echoes_pure (hkeeps authors)
  · rw [if_neg hasked, if_neg hasked]
    exact echoes_pure (hkeeps [])

end Titles

end Converter

end AsciidocSpans
