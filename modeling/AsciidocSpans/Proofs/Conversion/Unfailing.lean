import AsciidocSpans.Proofs.Conversion.Located

/-!
The steps of a conversion that cannot fail. With settings of the right types, every span has
offsets, because a search found it; what covers other nodes has some to cover; every setting is good
for what it is used for; and an image or a table of contents finds its line, if it stands on a line
of the source. So the steps by which a single element is converted fail with nothing: `Fails` says
so of each of them, for any problems `E` at all.
-/

set_option autoImplicit false
set_option relaxedAutoImplicit false

namespace AsciidocSpans.Converter

variable {settings : Settings} {text : Text} {E : ConversionError → Prop}

section Steps

variable {kind : NodeKind} {raw : Text} {location : Location} {children : List Node}

theorem fails_assembled {α : Type} {built : Except AssemblyError α}
    (h : ∃ result, built = .ok result) : Fails (assembled built) E := by
  obtain ⟨result, rfl⟩ := h
  exact fails_pure result

theorem fails_find (verbatim : Bool) (segments : List Text) (window : Window) :
    Fails ((ofText settings.loosen text).find verbatim segments window) E :=
  (succeeds_find verbatim segments window).fails

theorem fails_report (channel : LogChannel) (message : String) : Fails (report channel message) E :=
  (succeeds_report channel message).fails

theorem fails_located (h : (Source.ofText text).HasSpan location) :
    Fails (assembled (Node.located (Source.ofText text) kind raw location children)) E := by
  obtain ⟨range, hnode⟩ := exists_located h kind raw children
  exact fails_assembled ⟨_, hnode⟩

theorem fails_aroundText (h : (Source.ofText text).HasSpan location) :
    Fails (assembled (Node.aroundText (Source.ofText text) kind raw location)) E := by
  obtain ⟨range, hnode⟩ := exists_aroundText h kind raw
  exact fails_assembled ⟨_, hnode⟩

/-- Some built nodes can be covered by one around them. -/
theorem fails_around (hsome : children ≠ [])
    (h : ∀ child ∈ children, (ofText settings.loosen text).Built child) :
    Fails (assembled (Node.around (Source.ofText text) kind raw children)) E := by
  obtain ⟨location, range, hnode, -⟩ :=
    exists_around hsome (fun child hchild ↦ hasSpan_of_built (h child hchild)) kind raw
  exact fails_assembled ⟨_, hnode⟩

/-- A node that comes about without failing is passed on as the only one there is. -/
theorem fails_some {built : Except AssemblyError Node} (h : Fails (assembled built) E) :
    Fails (do return some (← assembled built)) E :=
  h.bind (yields_trivial _) fun _ _ ↦ fails_pure _

theorem fails_single {built : Except AssemblyError Node} (h : Fails (assembled built) E) :
    Fails (do return [← assembled built]) E :=
  h.bind (yields_trivial _) fun _ _ ↦ fails_pure _

end Steps

section Metadata

theorem fails_locateBefore (segments : List Text) (window : Window) (lookback : Int) :
    Fails ((ofText settings.loosen text).locateBefore segments window (.integer lookback)) E := by
  rw [locateBefore]
  refine Fails.bind (fails_pure _) (yields_trivial _) fun highest _ ↦
    (succeeds_needMarker _).fails.bind (yields_trivial _) fun _ _ ↦ ?_
  split
  · exact fails_pure _
  · exact (fails_report _ _).bind (yields_trivial _) fun _ _ ↦ fails_pure _

/-- What is found before a window becomes a node. -/
theorem fails_aside (kind : NodeKind) (raw : Text) (window : Window) (lookback : Int) :
    Fails (do
      match ← (ofText settings.loosen text).locateBefore [raw] window (.integer lookback) with
      | some location =>
        return some (← assembled (Node.aroundText (Source.ofText text) kind raw location))
      | none => return none) E := by
  refine (fails_locateBefore _ _ _).bind (yields_locateBefore _ _ _) fun found hfound ↦ ?_
  cases found with
  | none => exact fails_pure none
  | some location =>
    obtain ⟨line, hline⟩ := hfound location rfl
    exact fails_some (fails_aroundText (Locator.hasSpan_of_find? hline))

theorem fails_convertId (id : Option Text) (window : Window) :
    Fails ((ofText settings.loosen text).convertId id window) E := by
  match id with
  | none => exact fails_pure none
  | some [] => exact fails_pure none
  | some (c :: rest) => exact fails_aside .identifier (c :: rest) window settings.idLookback

theorem fails_convertBlockTitle (info : ElementInfo) (window : Window) :
    Fails ((ofText settings.loosen text).convertBlockTitle info window) E := by
  rw [convertBlockTitle]
  cases info.title with
  | none => exact fails_pure none
  | some title =>
    cases title with
    | nil => exact fails_pure none
    | cons c rest =>
      exact fails_aside .blockTitle ('.' :: c :: rest) window settings.titleLookback

theorem fails_convertTableAttributes (attributes : Attributes) (window : Window) :
    Fails ((ofText settings.loosen text).convertTableAttributes attributes window) E := by
  have hshown : ∃ shown, shownAttributes? settings.loosen.tableAttributeDenylist attributes =
      some shown := by
    rw [shownAttributes?]
    split
    · exact ⟨attributes, rfl⟩
    · exact ⟨_, rfl⟩
  obtain ⟨shown, hshown⟩ := hshown
  rw [convertTableAttributes]
  change Fails (usable (shownAttributes? settings.loosen.tableAttributeDenylist attributes) >>= _) E
  rw [hshown]
  refine Fails.bind (fails_pure shown) (yields_trivial _) fun shown _ ↦ ?_
  split
  · exact fails_pure none
  · refine Fails.bind (fails_pure _) (yields_trivial _) fun first _ ↦
      (fails_find false [['[']] _).bind (yields_find _ false [['[']] _) fun found hfound ↦ ?_
    cases found with
    | none => exact fails_pure none
    | some bracket =>
      have hstart := (Locator.hasPosition_of_find? hfound.symm).1
      exact fails_some (fails_aroundText (hasSpan_attributeListSpan hstart _))

theorem fails_convertNamedAttribute (info : ElementInfo) (name : Text) :
    Fails ((ofText settings.loosen text).convertNamedAttribute info name) E := by
  rw [convertNamedAttribute]
  cases info.attributes.get? name with
  | none => exact fails_pure none
  | some shown =>
    cases shown with
    | nil => exact fails_pure none
    | cons c value =>
      refine (fails_find false [c :: value] _).bind (yields_find _ false [c :: value] _)
        fun found hfound ↦ ?_
      cases found with
      | none => exact (fails_report _ _).bind (yields_trivial _) fun _ _ ↦ fails_pure none
      | some location =>
        exact fails_some (fails_aroundText (Locator.hasSpan_of_find? hfound.symm))

theorem fails_convertNamedAttributes (info : ElementInfo) (names : List Text) :
    Fails ((ofText settings.loosen text).convertNamedAttributes info (names.map .text)) E := by
  induction names with
  | nil => exact fails_pure []
  | cons name rest ih =>
    rw [List.map_cons, convertNamedAttributes]
    exact (fails_convertNamedAttribute info name).bind (yields_trivial _) fun _ _ ↦
      ih.bind (yields_trivial _) fun _ _ ↦ fails_pure _

theorem fails_convertImageAttributes (info : ElementInfo) :
    Fails ((ofText settings.loosen text).convertImageAttributes info) E := by
  rw [convertImageAttributes]
  change Fails (pure (settings.imageAttributeNames.map Value.text) >>= _) E
  exact Fails.bind (Q := fun names ↦ names = settings.imageAttributeNames.map .text) (fails_pure _)
    (yields_pure rfl) fun names hnames ↦ by
      rw [hnames]
      exact (fails_convertNamedAttributes info _).bind (yields_trivial _) fun _ _ ↦ fails_pure _

theorem fails_convertText? (kind : NodeKind) (value : Text) (window : Window) :
    Fails ((ofText settings.loosen text).convertText? kind value window) E := by
  rw [convertText?]
  refine (fails_find false [value] window).bind (yields_find _ false [value] window)
    fun found hfound ↦ ?_
  cases found with
  | none => exact fails_pure none
  | some location => exact fails_some (fails_aroundText (Locator.hasSpan_of_find? hfound.symm))

theorem fails_convertAuthorParts (author : Author) (column : Int) :
    Fails ((ofText settings.loosen text).convertAuthorParts author column) E := by
  obtain ⟨info, name, email⟩ := author
  rw [convertAuthorParts]
  refine (fails_convertText? _ _ _).bind (yields_trivial _) fun found _ ↦ ?_
  cases email with
  | none => exact fails_pure _
  | some address =>
    cases address with
    | nil => exact fails_pure _
    | cons c rest =>
      exact (fails_convertText? _ _ _).bind (yields_trivial _) fun _ _ ↦ fails_pure _

theorem fails_convertAuthors (column : Int) (authors : List Author) :
    Fails ((ofText settings.loosen text).convertAuthors column authors) E := by
  induction authors generalizing column with
  | nil => exact fails_pure []
  | cons author rest ih =>
    rw [convertAuthors]
    refine (fails_convertAuthorParts author column).bind (yields_convertAuthorParts author column)
      fun parts hparts ↦ ?_
    cases hlast : parts.getLast? with
    | none => exact (fails_report _ _).bind (yields_trivial _) fun _ _ ↦ ih column
    | some last =>
      have hsome : parts ≠ [] := by
        rintro rfl
        cases hlast
      exact (fails_around hsome fun child hchild ↦ (hparts child hchild).1).bind
        (yields_trivial _) fun _ _ ↦ (ih _).bind (yields_trivial _) fun _ _ ↦ fails_pure _

end Metadata

section Simple

theorem fails_convertParagraphText (value : Text) (window : Window) :
    Fails ((ofText settings.loosen text).convertParagraphText value window) E := by
  rw [convertParagraphText]
  refine (fails_find false value.lines window).bind (yields_find _ false value.lines window)
    fun found hfound ↦ ?_
  cases found with
  | none => exact fails_pure []
  | some location => exact fails_single (fails_aroundText (Locator.hasSpan_of_find? hfound.symm))

theorem fails_convertParagraph (info : ElementInfo) (lines : List Text) (window : Window) :
    Fails ((ofText settings.loosen text).convertParagraph info lines window) E := by
  rw [convertParagraph]
  refine (fails_find false lines window).bind (yields_find _ false lines window)
    fun found hfound ↦ ?_
  cases found with
  | none => exact fails_pure []
  | some location =>
    refine (fails_convertBlockTitle info window).bind (yields_convertBlockTitle info window)
      fun title htitle ↦ ?_
    refine Fails.bind (Q := (ofText settings.loosen text).Built)
      (fails_located (Locator.hasSpan_of_find? hfound.symm))
      (yields_assembled fun leaf hleaf ↦ (built_str hfound.symm hleaf).1) fun leaf hleaf ↦ ?_
    have hchildren := built_titled htitle.toList allShown_nil hleaf
    rw [List.append_nil] at hchildren
    exact fails_single (fails_around (by simp) hchildren)

/-- A span extended over nodes that are shown exists. -/
theorem hasSpan_extended {location : Location} {nodes : List Node}
    (hspan : (Source.ofText text).HasSpan location)
    (h : (ofText settings.loosen text).AllShown nodes) :
    (Source.ofText text).HasSpan (location.unionAll (nodes.map (·.location))) := by
  refine Source.hasSpan_unionAll fun span hmem ↦ ?_
  rcases List.mem_cons.mp hmem with rfl | hother
  · exact hspan
  · obtain ⟨node, hnode, rfl⟩ := List.mem_map.mp hother
    exact hasSpan_of_built (h node hnode).1

theorem fails_convertListing (info : ElementInfo) (lines : List Text) (language : Option Text)
    (window : Window) :
    Fails ((ofText settings.loosen text).convertListing info lines language window) E := by
  rw [convertListing]
  refine (fails_find true lines window).bind (yields_find _ true lines window)
    fun found hfound ↦ ?_
  cases found with
  | none => exact fails_pure []
  | some location =>
    exact (fails_convertBlockTitle info window).bind (yields_convertBlockTitle info window)
      fun title htitle ↦ fails_single (fails_located
        (hasSpan_extended (Locator.hasSpan_of_find? hfound.symm) htitle.toList))

/-- An element stands on a line of the source. -/
def HasLine (text : Text) (info : ElementInfo) : Prop :=
  ∃ line, (Source.ofText text).line? info.lineno = some line

theorem fails_ownLine {info : ElementInfo} (h : HasLine text info) :
    Fails ((ofText settings.loosen text).ownLine info) E := by
  obtain ⟨line, hline⟩ := h
  change (ofText settings.loosen text).source.line? info.lineno = some line at hline
  rw [ownLine, hline]
  exact fails_pure line

theorem fails_convertImage {info : ElementInfo} (h : HasLine text info) (window : Window) :
    Fails ((ofText settings.loosen text).convertImage info window) E := by
  rw [convertImage]
  refine (fails_ownLine h).bind (yields_trivial _) fun raw _ ↦
    (fails_find false [raw] window).bind (yields_find _ false [raw] window) fun found hfound ↦ ?_
  cases found with
  | none => exact fails_pure []
  | some location =>
    refine (fails_convertBlockTitle info window).bind (yields_convertBlockTitle info window)
      fun title htitle ↦ (fails_convertImageAttributes info).bind
        (yields_convertImageAttributes info) fun attributes hattributes ↦ ?_
    refine Fails.bind (Q := (ofText settings.loosen text).Built)
      (fails_located (Locator.hasSpan_of_find? hfound.symm))
      (yields_assembled fun leaf hleaf ↦ (built_str hfound.symm hleaf).1) fun leaf hleaf ↦ ?_
    have hchildren := built_titled htitle.toList hattributes hleaf
    exact fails_single (fails_around (by simp) hchildren)

theorem fails_convertTableOfContents {info : ElementInfo} (h : HasLine text info)
    (window : Window) :
    Fails ((ofText settings.loosen text).convertTableOfContents info window) E := by
  rw [convertTableOfContents]
  exact (fails_ownLine h).bind (yields_trivial _) fun raw _ ↦
    (fails_convertText? _ raw window).bind (yields_trivial _) fun _ _ ↦ fails_pure _

theorem fails_convertHeader (id : Option Text) (header : Header) (window : Window) :
    Fails ((ofText settings.loosen text).convertHeader id header window) E := by
  rw [convertHeader]
  refine (fails_convertId id _).bind (yields_trivial _) fun _ _ ↦
    (fails_convertText? _ _ _).bind (yields_trivial _) fun _ _ ↦ ?_
  split
  · exact (fails_convertAuthors 0 header.authors).bind (yields_trivial _) fun _ _ ↦ fails_pure _
  · exact (fails_pure _).bind (yields_trivial _) fun _ _ ↦ fails_pure _

theorem fails_wrapped {kind : NodeKind} {children : List Node}
    (h : (ofText settings.loosen text).AllShown children) :
    Fails ((ofText settings.loosen text).wrapped kind children) E := by
  rw [wrapped]
  split
  · exact fails_pure []
  · next hsome =>
    exact fails_single (fails_around (fun hnil ↦ hsome (List.isEmpty_iff.mpr hnil))
      fun child hchild ↦ (h child hchild).1)

theorem fails_wrappedWithTitle {kind : NodeKind} {info : ElementInfo} {children : List Node}
    {window : Window} (h : (ofText settings.loosen text).AllShown children) :
    Fails ((ofText settings.loosen text).wrappedWithTitle kind info children window) E := by
  rw [wrappedWithTitle]
  split
  · exact fails_pure []
  · next hsome =>
    refine (fails_convertBlockTitle info window).bind (yields_convertBlockTitle info window)
      fun title htitle ↦ fails_single (fails_around ?_ fun child hchild ↦
        (htitle.toList.append h child hchild).1)
    exact List.append_ne_nil_of_right_ne_nil _ fun hnil ↦ hsome (List.isEmpty_iff.mpr hnil)

theorem fails_reportOmission (element : Element) (nodes : List Node) :
    Fails (reportOmission element nodes) E := by
  rw [reportOmission]
  split
  · exact fails_report _ _
  · exact fails_pure ()

/-- The node of a document covers what there is in it. -/
theorem fails_root {children : List Node}
    (h : (ofText settings.loosen text).AllShown children) :
    Fails (do
      if children.isEmpty then return []
      else return [← assembled (Node.documentAround (Source.ofText text) children)]) E := by
  split
  · exact fails_pure []
  · next hsome =>
    obtain ⟨location, hcovers, hspan, -⟩ :=
      exists_coveringSpan (fun hnil ↦ hsome (List.isEmpty_iff.mpr hnil))
        fun child hchild ↦ hasSpan_of_built (h child hchild).1
    obtain ⟨range, hrange⟩ := exists_range_of_hasSpan hspan
    refine fails_single (fails_assembled ⟨.mk .document
      (text.slice range.1 range.2) location range children, ?_⟩)
    simp only [Node.documentAround, hcovers, bind, Except.bind, hrange]
    rfl

end Simple

end AsciidocSpans.Converter
