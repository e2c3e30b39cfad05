import AsciidocSpans.Conversion.Document
import AsciidocSpans.Proofs.Node.Subtree
import AsciidocSpans.Proofs.Outcome
import AsciidocSpans.Proofs.Span.Search

/-!
Where the nodes of a located tree come from. Every node that a conversion builds is `Built`: a leaf
at a span that a search found, the leaf of an attribute list at the opening bracket that a search
found, a node that covers its children, a code block that covers its text and its title, or a table
cell whose text was found and whose children are the blocks of its own document. The root of a
conversion in which nothing was located is the empty document.

`yields_convertElement` and the theorems beside it say so of every conversion, by one induction over
the element tree; what holds of all located trees is then proved by induction on `Built`. Nothing is
assumed about the elements: their lines, titles and texts may be any.
-/

set_option autoImplicit false
set_option relaxedAutoImplicit false

namespace AsciidocSpans.Converter

/-- How a node of a located tree came about. -/
inductive Built (converter : Converter) : Node → Prop
  /-- Literal text at the span where a search found it. -/
  | leaf {segments : List Text} {window : Window} {location : Location} {range : Int × Int}
      (found : converter.locator.find? false segments window = some location)
      (offsets : converter.source.range? location = some range) :
      Built converter (.mk .str (Text.unlines segments) location range [])
  /-- A node that covers its children. -/
  | cover {kind : NodeKind} {raw : Text} {location : Location} {range : Int × Int}
      {children : List Node} (known : kind.isKnown) (inner : kind ≠ .str)
      (built : ∀ child ∈ children, Built converter child)
      (covers : Node.coveringSpan (children.map (·.location)) = .ok location)
      (offsets : converter.source.range? location = some range) :
      Built converter (.mk kind raw location range children)
  /-- The attributes of a table, at the first opening bracket before it. -/
  | attributes {window : Window} {found : Location} {raw : Text} {range : Int × Int}
      (bracket : converter.locator.find? false [['[']] window = some found)
      (offsets : converter.source.range? (attributeListSpan converter.source found raw.length) =
        some range) :
      Built converter (.mk .attributeList raw
        (attributeListSpan converter.source found raw.length) range
        [.mk .str raw (attributeListSpan converter.source found raw.length) range []])
  /-- Verbatim text at the span where a search found it, extended over its title. -/
  | code {language : Option Text} {segments : List Text} {window : Window} {location : Location}
      {range : Int × Int} {children : List Node}
      (found : converter.locator.find? true segments window = some location)
      (built : ∀ child ∈ children, Built converter child)
      (offsets : converter.source.range?
        (location.unionAll (children.map (·.location))) = some range) :
      Built converter (.mk (.codeBlock language) (Text.unlines segments)
        (location.unionAll (children.map (·.location))) range children)
  /-- A table cell at the span where a search found its text, around the blocks of its document. -/
  | cell {text : Text} {window : Window} {location : Location} {range : Int × Int}
      {children : List Node}
      (found : converter.locator.find? false text.lines window = some location)
      (built : ∀ child ∈ children, Built converter child)
      (blocks : ∀ child ∈ children, child.kind ≠ .str)
      (offsets : converter.source.range? location = some range) :
      Built converter (.mk .tableCell text location range children)
  /-- The document in which nothing was located. -/
  | empty : Built converter Node.emptyDocument

/-- A node that stands for an element: it is built, and it is no bare leaf. -/
def Shown (converter : Converter) (node : Node) : Prop :=
  converter.Built node ∧ node.kind ≠ .str

section Builders

variable {converter : Converter} {kind : NodeKind} {raw value : Text} {location : Location}
  {children : List Node} {node : Node}

theorem yields_assembled {α : Type} {P : α → Prop} {built : Except AssemblyError α}
    (h : ∀ result, built = .ok result → P result) : Yields (assembled built) P := by
  cases built with
  | ok result => exact yields_pure (h result rfl)
  | error cause => exact yields_throw _

/-- The comment lines of a text are those that the settings say. -/
theorem commentMarker_ofText {settings : LooseSettings} {marker text : Text}
    (hmarker : settings.marker? = some marker) :
    (ofText settings text).locator.commentMarker = marker := by
  rw [ofText, hmarker, Option.getD_some]

/-- A search does not pass over a line that does not start like a comment. -/
theorem skips_of_not_isPrefix {settings : LooseSettings} {marker text line : Text}
    (hmarker : settings.marker? = some marker) (h : ¬ marker <+: line) (verbatim : Bool) :
    (ofText settings text).locator.skips verbatim line = false := by
  rw [Locator.skips, commentMarker_ofText hmarker,
    Bool.eq_false_iff.mpr (mt List.isPrefixOf_iff_prefix.mp h), Bool.and_false]

/-- A search by a conversion results in what the locator finds. -/
theorem yields_find (converter : Converter) (verbatim : Bool) (segments : List Text)
    (window : Window) :
    Yields (converter.find verbatim segments window)
      fun found ↦ found = converter.locator.find? verbatim segments window := by
  rw [find]
  exact (yields_trivial _).bind fun _ _ ↦ yields_pure rfl

/-- A node with a given span has that span and the offsets of its ends. -/
theorem located_eq_ok {source : Source}
    (h : Node.located source kind raw location children = .ok node) :
    ∃ range, source.range? location = some range ∧ node = .mk kind raw location range children := by
  rw [Node.located] at h
  split at h
  · next range hrange =>
    cases h
    exact ⟨range, hrange, rfl⟩
  · cases h

/-- A leaf at a span that a search found is built. -/
theorem built_str {segments : List Text} {window : Window}
    (hfound : converter.locator.find? false segments window = some location)
    (h : Node.str converter.source (Text.unlines segments) location = .ok node) :
    converter.Built node ∧ node.location = location := by
  obtain ⟨range, hrange, rfl⟩ := located_eq_ok h
  exact ⟨.leaf hfound hrange, rfl⟩

/-- A node around children has the span that covers them. -/
theorem around_eq_ok {source : Source} (h : Node.around source kind raw children = .ok node) :
    ∃ location range, Node.coveringSpan (children.map (·.location)) = .ok location ∧
      source.range? location = some range ∧ node = .mk kind raw location range children := by
  rw [Node.around] at h
  cases hspan : Node.coveringSpan (children.map (·.location)) with
  | error cause =>
    rw [hspan] at h
    cases h
  | ok location =>
    rw [hspan] at h
    obtain ⟨range, hrange, rfl⟩ := located_eq_ok h
    exact ⟨location, range, rfl, hrange, rfl⟩

/-- A node around built children is built. -/
theorem shown_around (hkind : kind.isKnown) (hstr : kind ≠ .str)
    (hchildren : ∀ child ∈ children, converter.Built child)
    (h : Node.around converter.source kind raw children = .ok node) : converter.Shown node := by
  obtain ⟨location, range, hspan, hrange, rfl⟩ := around_eq_ok h
  exact ⟨.cover hkind hstr hchildren hspan hrange, hstr⟩

/-- A document has the span that covers its children, and the text at that span. -/
theorem documentAround_eq_ok {source : Source}
    (h : Node.documentAround source children = .ok node) :
    ∃ location range, Node.coveringSpan (children.map (·.location)) = .ok location ∧
      source.range? location = some range ∧
      node = .mk .document (source.text.slice range.1 range.2) location range children := by
  rw [Node.documentAround] at h
  cases hspan : Node.coveringSpan (children.map (·.location)) with
  | error cause =>
    rw [hspan] at h
    cases h
  | ok location =>
    rw [hspan] at h
    cases hrange : source.range? location with
    | none => simp only [bind, Except.bind, hrange, reduceCtorEq] at h
    | some range =>
      simp only [bind, Except.bind, hrange, Except.ok.injEq] at h
      exact ⟨location, range, rfl, hrange, h.symm⟩

/-- A document around built children is built. -/
theorem shown_documentAround (hchildren : ∀ child ∈ children, converter.Built child)
    (h : Node.documentAround converter.source children = .ok node) : converter.Shown node := by
  obtain ⟨location, range, hspan, hrange, rfl⟩ := documentAround_eq_ok h
  exact ⟨.cover rfl (by nofun) hchildren hspan hrange, nofun⟩

/-- A node around the leaf that holds its text has the span of the leaf. -/
theorem aroundText_eq_ok {source : Source}
    (h : Node.aroundText source kind value location = .ok node) :
    ∃ range leaf, source.range? location = some range ∧
      Node.str source value location = .ok leaf ∧ node = .mk kind value location range [leaf] := by
  rw [Node.aroundText] at h
  cases hleaf : Node.str source value location with
  | error cause =>
    rw [hleaf] at h
    cases h
  | ok leaf =>
    rw [hleaf] at h
    obtain ⟨range, hrange, rfl⟩ := located_eq_ok h
    exact ⟨range, leaf, hrange, rfl, rfl⟩

/-- A node around the leaf that holds its text is built. -/
theorem shown_aroundText {segments : List Text} {window : Window}
    (hkind : kind.isKnown) (hstr : kind ≠ .str)
    (hfound : converter.locator.find? false segments window = some location)
    (h : Node.aroundText converter.source kind (Text.unlines segments) location = .ok node) :
    converter.Shown node := by
  obtain ⟨range, leaf, hrange, hleaf, rfl⟩ := aroundText_eq_ok h
  obtain ⟨hbuilt, hlocation⟩ := built_str hfound hleaf
  refine ⟨.cover hkind hstr (fun child hchild ↦ ?_) ?_ hrange, hstr⟩
  · rw [List.mem_singleton.mp hchild]
    exact hbuilt
  · rw [List.map_singleton, hlocation]
    rfl

/-- The node of a table's attributes at the bracket that a search found is built. -/
theorem shown_attributes {window : Window} {found : Location}
    (hbracket : converter.locator.find? false [['[']] window = some found)
    (h : Node.aroundText converter.source .attributeList raw
      (attributeListSpan converter.source found raw.length) = .ok node) : converter.Shown node := by
  obtain ⟨outer, leaf, houter, hleaf, rfl⟩ := aroundText_eq_ok h
  obtain ⟨range, hrange, rfl⟩ := located_eq_ok hleaf
  cases hrange.symm.trans houter
  exact ⟨.attributes hbracket hrange, nofun⟩

end Builders

section Metadata

variable {converter : Converter}

/-- Each of some nodes stands for an element. -/
def AllShown (converter : Converter) (nodes : List Node) : Prop :=
  ∀ node ∈ nodes, converter.Shown node

/-- The node, if there is one, stands for an element. -/
def MaybeShown (converter : Converter) (result : Option Node) : Prop :=
  ∀ node ∈ result, converter.Shown node

theorem maybeShown_none : converter.MaybeShown none := by
  intro node h
  cases h

theorem maybeShown_some {node : Node} (h : converter.Shown node) :
    converter.MaybeShown (some node) := by
  intro other hother
  cases hother
  exact h

theorem allShown_nil : converter.AllShown [] := by
  intro node h
  cases h

theorem AllShown.cons {node : Node} {nodes : List Node} (h : converter.Shown node)
    (hrest : converter.AllShown nodes) : converter.AllShown (node :: nodes) := by
  intro other hother
  rcases List.mem_cons.mp hother with rfl | hmem
  · exact h
  · exact hrest other hmem

theorem AllShown.append {nodes others : List Node} (h : converter.AllShown nodes)
    (hothers : converter.AllShown others) : converter.AllShown (nodes ++ others) := by
  intro node hnode
  rcases List.mem_append.mp hnode with hmem | hmem
  · exact h node hmem
  · exact hothers node hmem

theorem MaybeShown.toList {result : Option Node} (h : converter.MaybeShown result) :
    converter.AllShown result.toList := by
  intro node hnode
  exact h node (Option.mem_toList.mp hnode)

/-- The node around text that a search found stands for an element. -/
theorem yields_some_aroundText {kind : NodeKind} {segments : List Text} {window : Window}
    {location : Location} (hkind : kind.isKnown) (hstr : kind ≠ .str)
    (hfound : converter.locator.find? false segments window = some location) :
    Yields (do return some (← assembled
      (Node.aroundText converter.source kind (Text.unlines segments) location)))
      converter.MaybeShown :=
  (yields_assembled fun _ h ↦ shown_aroundText hkind hstr hfound h).bind fun _ hnode ↦
    yields_pure (maybeShown_some hnode)

/-- A search before a window results in what some search finds. -/
theorem yields_locateBefore (segments : List Text) (window : Window) (lookback : Value) :
    Yields (converter.locateBefore segments window lookback) fun found ↦
      ∀ location ∈ found, ∃ line, converter.locator.find? false segments
        (Locator.windowFrom line window) = some location := by
  rw [locateBefore]
  refine (yields_trivial _).bind fun highest _ ↦ (yields_trivial _).bind fun _ _ ↦ ?_
  split
  · next location hlocation =>
    refine yields_pure fun found hfound ↦ ?_
    cases hfound
    obtain ⟨line, -, -, hline⟩ := Locator.exists_find?_of_findBackTo? hlocation
    exact ⟨line, hline⟩
  · exact (yields_trivial _).bind fun _ _ ↦ yields_pure fun _ hfound ↦ by cases hfound

theorem yields_convertText? {kind : NodeKind} (hkind : kind.isKnown) (hstr : kind ≠ .str)
    (value : Text) (window : Window) :
    Yields (converter.convertText? kind value window) converter.MaybeShown := by
  rw [convertText?]
  refine (yields_find converter false [value] window).bind fun found hfound ↦ ?_
  cases found with
  | none => exact yields_pure maybeShown_none
  | some location =>
    exact yields_some_aroundText hkind hstr hfound.symm

theorem yields_convertId (id : Option Text) (window : Window) :
    Yields (converter.convertId id window) converter.MaybeShown := by
  match id with
  | none => exact yields_pure maybeShown_none
  | some [] => exact yields_pure maybeShown_none
  | some (c :: rest) =>
    rw [convertId]
    refine (yields_locateBefore _ _ _).bind fun found hfound ↦ ?_
    cases found with
    | none => exact yields_pure maybeShown_none
    | some location =>
      obtain ⟨line, hline⟩ := hfound location rfl
      exact yields_some_aroundText rfl (by nofun) hline

theorem yields_convertBlockTitle (info : ElementInfo) (window : Window) :
    Yields (converter.convertBlockTitle info window) converter.MaybeShown := by
  rw [convertBlockTitle]
  match info.title with
  | none => exact yields_pure maybeShown_none
  | some [] => exact yields_pure maybeShown_none
  | some (c :: rest) =>
    refine (yields_locateBefore _ _ _).bind fun found hfound ↦ ?_
    cases found with
    | none => exact yields_pure maybeShown_none
    | some location =>
      obtain ⟨line, hline⟩ := hfound location rfl
      exact yields_some_aroundText rfl (by nofun) hline

theorem yields_convertTableAttributes (attributes : Attributes) (window : Window) :
    Yields (converter.convertTableAttributes attributes window) converter.MaybeShown := by
  rw [convertTableAttributes]
  refine (yields_trivial _).bind fun shown _ ↦ ?_
  split
  · exact yields_pure maybeShown_none
  · refine (yields_trivial _).bind fun first _ ↦
      (yields_find converter false [['[']] _).bind fun found hfound ↦ ?_
    cases found with
    | none => exact yields_pure maybeShown_none
    | some bracket =>
      refine Yields.bind (Q := converter.Shown) (yields_assembled fun node hnode ↦ ?_)
        fun _ h ↦ yields_pure (maybeShown_some h)
      exact shown_attributes hfound.symm hnode

/-- A node around its text is of the kind that was asked for. -/
theorem yields_kind_aroundText {kind : NodeKind} {value : Text} {location : Location} :
    Yields (do return some (← assembled
      (Node.aroundText converter.source kind value location)) : Conversion (Option Node))
      fun result ↦ ∀ node ∈ result, node.kind = kind := by
  refine Yields.bind (Q := fun node : Node ↦ node.kind = kind)
    (yields_assembled fun node hnode ↦ ?_) fun node hnode ↦ yields_pure fun other hother ↦ ?_
  · obtain ⟨range, leaf, -, -, rfl⟩ := aroundText_eq_ok hnode
    rfl
  · cases hother
    exact hnode

theorem yields_kind_convertBlockTitle (info : ElementInfo) (window : Window) :
    Yields (converter.convertBlockTitle info window) fun title ↦
      ∀ node ∈ title, node.kind = .blockTitle := by
  rw [convertBlockTitle]
  match info.title with
  | none => exact yields_pure nofun
  | some [] => exact yields_pure nofun
  | some (c :: rest) =>
    refine (yields_trivial _).bind fun found _ ↦ ?_
    cases found with
    | none => exact yields_pure nofun
    | some location => exact yields_kind_aroundText

theorem yields_kind_convertTableAttributes (attributes : Attributes) (window : Window) :
    Yields (converter.convertTableAttributes attributes window) fun list ↦
      ∀ node ∈ list, node.kind = .attributeList := by
  rw [convertTableAttributes]
  refine (yields_trivial _).bind fun shown _ ↦ ?_
  split
  · exact yields_pure nofun
  · refine (yields_trivial _).bind fun first _ ↦ (yields_trivial _).bind fun found _ ↦ ?_
    cases found with
    | none => exact yields_pure nofun
    | some bracket => exact yields_kind_aroundText

theorem yields_convertNamedAttribute (info : ElementInfo) (name : Text) :
    Yields (converter.convertNamedAttribute info name) converter.MaybeShown := by
  rw [convertNamedAttribute]
  match info.attributes.get? name with
  | none => exact yields_pure maybeShown_none
  | some [] => exact yields_pure maybeShown_none
  | some (c :: value) =>
    refine (yields_find converter false [c :: value] _).bind fun found hfound ↦ ?_
    cases found with
    | none => exact (yields_trivial _).bind fun _ _ ↦ yields_pure maybeShown_none
    | some location =>
      exact yields_some_aroundText rfl (by nofun) hfound.symm

theorem yields_convertNamedAttributes (info : ElementInfo) (names : List Value) :
    Yields (converter.convertNamedAttributes info names) converter.AllShown := by
  induction names with
  | nil => exact yields_pure allShown_nil
  | cons name rest ih =>
    by_cases htext : ∃ text, name = .text text
    · obtain ⟨text, rfl⟩ := htext
      rw [convertNamedAttributes]
      exact (yields_convertNamedAttribute info text).bind fun _ hnode ↦
        ih.bind fun _ hothers ↦ yields_pure (hnode.toList.append hothers)
    · rw [convertNamedAttributes]
      · split
        · exact yields_throw _
        · exact ih
      · intro text heq
        exact htext ⟨text, heq⟩

/-- Image attributes are put in order, and they are nodes that were located. -/
theorem yields_convertImageAttributes (info : ElementInfo) :
    Yields (converter.convertImageAttributes info) converter.AllShown := by
  rw [convertImageAttributes]
  refine (yields_trivial _).bind fun names _ ↦
    (yields_convertNamedAttributes info names).bind fun nodes hnodes ↦ yields_pure ?_
  intro node hnode
  exact hnodes node (List.mem_mergeSort.mp hnode)

theorem yields_convertAuthorParts (author : Author) (column : Int) :
    Yields (converter.convertAuthorParts author column) converter.AllShown := by
  rw [convertAuthorParts]
  refine (yields_convertText? rfl (by nofun) _ _).bind fun name hname ↦ ?_
  match author.email with
  | none => exact yields_pure hname.toList
  | some [] => exact yields_pure hname.toList
  | some (c :: rest) =>
    exact (yields_convertText? rfl (by nofun) _ _).bind fun email hemail ↦
      yields_pure (hname.toList.append hemail.toList)

theorem yields_convertAuthors (column : Int) (authors : List Author) :
    Yields (converter.convertAuthors column authors) converter.AllShown := by
  induction authors generalizing column with
  | nil => exact yields_pure allShown_nil
  | cons author rest ih =>
    rw [convertAuthors]
    refine (yields_convertAuthorParts author column).bind fun parts hparts ↦ ?_
    split
    · next last _ =>
      refine Yields.bind (Q := converter.Shown) (yields_assembled fun node hnode ↦ ?_)
        fun node hnode ↦ (ih _).bind fun others hothers ↦ yields_pure (hothers.cons hnode)
      exact shown_around rfl (by nofun) (fun child hchild ↦ (hparts child hchild).1) hnode
    · exact (yields_trivial _).bind fun _ _ ↦ ih column

end Metadata

end AsciidocSpans.Converter
