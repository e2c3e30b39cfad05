import AsciidocSpans.Proofs.Blocks.Returnless
import AsciidocSpans.Proofs.Conversion.RunningText
import AsciidocSpans.Proofs.Element.Preorder
import AsciidocSpans.Proofs.Element.Returnless
import AsciidocSpans.Proofs.Span.LineEndings

/-!
Locating the elements of a text with other line endings. With a carriage return before every
newline, a text without carriage returns makes the same document, and the document has the same
tree: every node has its kind, its location and its raw text, and each end of its range lies as many
characters further as lines stand before it (`locateText_withReturns`). Listings, tables, images and
tables of contents are left out, since their raw texts or their cells are taken from the source.

The two conversions are followed side by side (`Converter.Shifts`). Their searches find the same
spans as long as no empty text is looked for behind the end of a line. So an element is looked for
from the start of a line, or from where the sibling before it ends, and what was found never ends on
a line that searches pass over (`sound_siblingWindow`). The names and addresses of authors are
looked for elsewhere too, but they are not empty.
-/

set_option autoImplicit false
set_option relaxedAutoImplicit false

namespace AsciidocSpans

namespace Node

mutual

/-- A node whose offsets are larger by one for every line before them. -/
def withReturns : Node → Node
  | .mk kind raw location range children =>
    .mk kind raw location (location.withReturns range) (withReturnsAll children)

/-- Nodes whose offsets are larger by one for every line before them. -/
def withReturnsAll : List Node → List Node
  | [] => []
  | node :: rest => withReturns node :: withReturnsAll rest

end

theorem withReturnsAll_eq_map (nodes : List Node) :
    withReturnsAll nodes = nodes.map withReturns := by
  induction nodes with
  | nil => rfl
  | cons node rest ih => rw [withReturnsAll, ih, List.map_cons]

@[simp] theorem location_withReturns (node : Node) : node.withReturns.location = node.location := by
  cases node
  rfl

theorem map_location_withReturns (nodes : List Node) :
    (nodes.map withReturns).map (·.location) = nodes.map (·.location) := by
  rw [List.map_map]
  exact List.map_congr_left fun node _ ↦ location_withReturns node

/-- A document whose offsets are larger by one for every line before them, with what stands between
them in a text with carriage returns before its newlines. -/
def documentWithReturns (text : Text) (root : Node) : Node :=
  let range := root.location.withReturns root.range
  .mk root.kind (text.withReturns.slice range.1 range.2) root.location range
    (root.children.map withReturns)

theorem documentWithReturns_emptyDocument (text : Text) :
    documentWithReturns text emptyDocument = emptyDocument := by
  have hslice : text.withReturns.slice 0 0 = [] := by
    rw [Text.slice, Text.startIndex, if_pos (Int.le_refl 0), Int.toNat_zero, List.take_zero,
      List.drop_nil]
  rw [documentWithReturns]
  change NodeOf.mk .document (text.withReturns.slice 0 0) _ _ _ = _
  rw [hslice]
  rfl

end Node

namespace Converter

open Text Element

/-- A converter of a text with carriage returns before its newlines, beside the converter of the
text: it finds the same spans, whose offsets are larger by one for every line before them. -/
structure Padded (converter padded : Converter) : Prop where
  locator : converter.locator.Padded padded.locator
  settings : padded.settings = converter.settings
  range : ∀ location, converter.source.HasSpan location → ∃ range,
    converter.source.range? location = some range ∧
      padded.source.range? location = some (location.withReturns range)

theorem padded_ofText {settings : LooseSettings} (h : '\r' ∉ settings.marker?.getD [])
    (text : Text) : (ofText settings text).Padded (ofText settings text.withReturns) where
  locator := Locator.padded_ofText h text
  settings := rfl
  range := by
    intro location hspan
    obtain ⟨range, hrange⟩ := exists_range_of_hasSpan hspan
    exact ⟨range, hrange, Source.range?_withReturns hspan hrange⟩

/-- All nodes end on lines that are not passed over. -/
def AllGrounded (converter : Converter) (nodes : List Node) : Prop :=
  ∀ node ∈ nodes, converter.locator.Grounded node.location

/-- A node, if there is one, ends on a line that is not passed over. -/
def MaybeGrounded (converter : Converter) (found : Option Node) : Prop :=
  ∀ node ∈ found, converter.locator.Grounded node.location

/-- Nodes are found at the same places, and their offsets are larger by one for every line before
them. -/
abbrev Shifts (converter : Converter) (x y : Conversion (List Node)) : Prop :=
  Mirrors (List.map Node.withReturns) converter.AllGrounded x y

section Grounded

variable {converter : Converter} {nodes others : List Node} {found : Option Node}

theorem allGrounded_nil : converter.AllGrounded [] := nofun

theorem AllGrounded.append (h : converter.AllGrounded nodes)
    (hothers : converter.AllGrounded others) : converter.AllGrounded (nodes ++ others) :=
  List.forall_mem_append.mpr ⟨h, hothers⟩

theorem MaybeGrounded.toList (h : converter.MaybeGrounded found) :
    converter.AllGrounded found.toList :=
  fun node hnode ↦ h node (Option.mem_toList.mp hnode)

theorem toList_map_withReturns (found : Option Node) :
    (found.map Node.withReturns).toList = found.toList.map Node.withReturns := by
  cases found <;> rfl

theorem endOf_withReturns (lastEnd : Option Position) (nodes : List Node) :
    endOf lastEnd (nodes.map Node.withReturns) = endOf lastEnd nodes := by
  cases nodes with
  | nil => rfl
  | cons first rest =>
    rw [List.map_cons, endOf, endOf, List.foldl_map]
    simp only [Node.location_withReturns]

/-- The sibling located last ends on a line that is not passed over. -/
def Rests (converter : Converter) (lastEnd : Option Position) : Prop :=
  ∀ stop ∈ lastEnd, converter.locator.Landed stop

theorem Rests.endOf {lastEnd : Option Position} (h : converter.Rests lastEnd)
    (hnodes : converter.AllGrounded nodes) : converter.Rests (endOf lastEnd nodes) := by
  rcases endOf_eq_or lastEnd nodes with heq | ⟨node, hnode, heq⟩
  · rw [heq]
    exact h
  · rw [heq]
    intro stop hstop
    cases hstop
    exact (hnodes node hnode).stop

/-- A sibling is looked for from the start of a line or from where the one before it ends. -/
theorem sound_siblingWindow {lastEnd : Option Position} (h : converter.Rests lastEnd)
    (window : Window) (lineno following : Int) :
    converter.locator.Sound (siblingWindow window lineno following lastEnd) := by
  have hstart : (if window.narrows then window.narrowed lineno (some following)
      else window.fromColumn 0).startColumn = 0 := by
    split <;> rfl
  rw [siblingWindow]
  generalize (if window.narrows then window.narrowed lineno (some following)
    else window.fromColumn 0) = base at hstart ⊢
  cases lastEnd with
  | none => exact .inl hstart
  | some stop =>
    rw [afterSibling]
    split
    · exact .inr (h stop rfl)
    · exact .inl hstart

end Grounded

section Nodes

variable {converter padded : Converter} {nodes : List Node} {location : Location}

/-- A node with a given span has larger offsets in the other text. -/
theorem mirrors_located (h : converter.Padded padded)
    (hlocation : converter.locator.Grounded location) (kind : NodeKind) (raw : Text)
    (children : List Node) :
    Mirrors Node.withReturns (fun node ↦ converter.locator.Grounded node.location)
      (assembled (Node.located converter.source kind raw location children))
      (assembled (Node.located padded.source kind raw location
        (children.map Node.withReturns))) := by
  obtain ⟨range, hshort, hlong⟩ := h.range location hlocation.span
  rw [Node.located, Node.located, hshort, hlong, ← Node.withReturnsAll_eq_map]
  exact @mirrors_pure _ _ _ _ Node.withReturns _ (.mk kind raw location range children) hlocation

theorem mirrors_str (h : converter.Padded padded)
    (hlocation : converter.locator.Grounded location) (value : Text) :
    Mirrors Node.withReturns (fun node ↦ converter.locator.Grounded node.location)
      (assembled (Node.str converter.source value location))
      (assembled (Node.str padded.source value location)) :=
  mirrors_located h hlocation .str value []

theorem mirrors_aroundText (h : converter.Padded padded)
    (hlocation : converter.locator.Grounded location) (kind : NodeKind) (value : Text) :
    Mirrors Node.withReturns (fun node ↦ converter.locator.Grounded node.location)
      (assembled (Node.aroundText converter.source kind value location))
      (assembled (Node.aroundText padded.source kind value location)) := by
  obtain ⟨range, hshort, hlong⟩ := h.range location hlocation.span
  have hstr : Node.str converter.source value location =
      .ok (.mk .str value location range []) := by
    rw [Node.str, Node.located, hshort]
  have hother : Node.str padded.source value location =
      .ok (Node.withReturns (.mk .str value location range [])) := by
    rw [Node.str, Node.located, hlong]
    rfl
  rw [Node.aroundText, Node.aroundText, hstr, hother]
  exact mirrors_located h hlocation kind value [.mk .str value location range []]

/-- The span that covers some nodes is the same in the other text. -/
theorem coveringSpan_withReturns (nodes : List Node) :
    Node.coveringSpan ((nodes.map Node.withReturns).map (·.location)) =
      Node.coveringSpan (nodes.map (·.location)) := by
  rw [Node.map_location_withReturns]

theorem grounded_of_coveringSpan (hnodes : converter.AllGrounded nodes)
    (hcovers : Node.coveringSpan (nodes.map (·.location)) = .ok location) :
    converter.locator.Grounded location := by
  cases nodes with
  | nil => cases hcovers
  | cons first rest =>
    cases hcovers
    refine Locator.grounded_unionAll fun span hspan ↦ ?_
    obtain ⟨node, hnode, rfl⟩ :=
      List.mem_map.mp (show span ∈ (first :: rest).map (·.location) from hspan)
    exact hnodes node hnode

theorem mirrors_around (h : converter.Padded padded) (hnodes : converter.AllGrounded nodes)
    (kind : NodeKind) (raw : Text) :
    Mirrors Node.withReturns (fun node ↦ converter.locator.Grounded node.location)
      (assembled (Node.around converter.source kind raw nodes))
      (assembled (Node.around padded.source kind raw (nodes.map Node.withReturns))) := by
  rw [Node.around, Node.around, coveringSpan_withReturns]
  cases hcovers : Node.coveringSpan (nodes.map (·.location)) with
  | error cause => exact mirrors_throw _
  | ok location => exact mirrors_located h (grounded_of_coveringSpan hnodes hcovers) kind raw nodes

end Nodes

section Steps

variable {converter padded : Converter} {window : Window} {segments : List Text} {value : Text}
  {nodes : List Node}

theorem needMarker_of_padded (h : converter.Padded padded) (asked : Bool) :
    padded.needMarker asked = converter.needMarker asked := by
  rw [needMarker, needMarker, h.settings]

/-- A search finds the same span in both texts. -/
theorem mirrors_find (h : converter.Padded padded)
    (hsegments : ∀ segment ∈ segments, '\r' ∉ segment)
    (hopen : converter.locator.Sound window ∨
      0 ≤ window.startColumn ∧ segments.headD [] ≠ []) :
    Mirrors id (fun found ↦ ∀ location ∈ found, converter.locator.Grounded location)
      (converter.find false segments window) (padded.find false segments window) := by
  have heq : padded.find false segments window = converter.find false segments window := by
    rw [find, find, Locator.looks_of_padded h.locator, needMarker_of_padded h,
      Locator.find?_of_padded h.locator hsegments hopen]
  rw [heq]
  refine Yields.mirrors fun s found s' hfound location hlocation ↦ ?_
  have hsame := yields_find converter false segments window s found s' hfound
  exact Locator.grounded_of_find? (hsame ▸ hlocation)

/-- A search before a window finds the same span in both texts. -/
theorem mirrors_locateBefore (h : converter.Padded padded) (hsome : value ≠ [])
    (hvalue : '\r' ∉ value) (hcolumn : 0 ≤ window.startColumn) (lookback : Value) :
    Mirrors id (fun found ↦ ∀ location ∈ found, converter.locator.Grounded location)
      (converter.locateBefore [value] window lookback)
      (padded.locateBefore [value] window lookback) := by
  have heq : padded.locateBefore [value] window lookback =
      converter.locateBefore [value] window lookback := by
    simp only [locateBefore, Locator.looksBackTo, Locator.looks_of_padded h.locator,
      needMarker_of_padded h, Locator.findBackTo?_of_padded h.locator hsome hvalue hcolumn]
  rw [heq]
  refine Yields.mirrors fun s found s' hfound location hlocation ↦ ?_
  obtain ⟨line, hline⟩ := yields_locateBefore _ _ _ s found s' hfound location hlocation
  exact Locator.grounded_of_find? hline

/-- The node around text, if the text was found. -/
theorem mirrors_some_aroundText (h : converter.Padded padded) {location : Location}
    (hlocation : converter.locator.Grounded location) (kind : NodeKind) (value : Text) :
    Mirrors (Option.map Node.withReturns) converter.MaybeGrounded
      (do return some (← assembled (Node.aroundText converter.source kind value location)))
      (do return some (← assembled (Node.aroundText padded.source kind value location))) :=
  (mirrors_aroundText h hlocation kind value).bind fun node hnode ↦
    @mirrors_pure _ _ _ _ (Option.map Node.withReturns) _ (some node) fun other hother ↦ by
      cases hother
      exact hnode

theorem mirrors_none :
    Mirrors (Option.map Node.withReturns) converter.MaybeGrounded
      (pure none : Conversion (Option Node)) (pure none) :=
  @mirrors_pure _ _ _ _ (Option.map Node.withReturns) _ none nofun

theorem shifts_pure (hnodes : converter.AllGrounded nodes) :
    converter.Shifts (pure nodes) (pure (nodes.map Node.withReturns)) :=
  @mirrors_pure _ _ _ _ (List.map Node.withReturns) _ nodes hnodes

theorem shifts_nil : converter.Shifts (pure []) (pure []) :=
  shifts_pure allGrounded_nil

theorem shifts_throw (problem : ConversionError) :
    converter.Shifts (throw problem) (throw problem) :=
  mirrors_throw problem

theorem shifts_singleton {node : Node} (hnode : converter.locator.Grounded node.location) :
    converter.Shifts (pure [node]) (pure [node.withReturns]) :=
  shifts_pure fun _ hother ↦ List.mem_singleton.mp hother ▸ hnode

theorem mirrors_convertText? (h : converter.Padded padded) (hvalue : '\r' ∉ value)
    (hopen : converter.locator.Sound window ∨ 0 ≤ window.startColumn ∧ value ≠ [])
    (kind : NodeKind) :
    Mirrors (Option.map Node.withReturns) converter.MaybeGrounded
      (converter.convertText? kind value window) (padded.convertText? kind value window) := by
  rw [convertText?, convertText?]
  refine (mirrors_find h (fun segment hsegment ↦ List.mem_singleton.mp hsegment ▸ hvalue)
    hopen).bind fun found hfound ↦ ?_
  cases found with
  | none => exact mirrors_none
  | some location => exact mirrors_some_aroundText h (hfound location rfl) kind value

theorem mirrors_convertTitle (h : converter.Padded padded) {title : Option Text}
    (htitle : ∀ shown ∈ title, '\r' ∉ shown) (hsound : converter.locator.Sound window)
    (level : Int) :
    Mirrors (Option.map Node.withReturns) converter.MaybeGrounded
      (converter.convertTitle (title.getD []) level window)
      (padded.convertTitle (title.getD []) level window) := by
  refine mirrors_convertText? h ?_ (.inl hsound) _
  cases title with
  | none => exact List.not_mem_nil
  | some shown => exact htitle shown rfl

theorem mirrors_convertId (h : converter.Padded padded) {id : Option Text}
    (hid : ∀ shown ∈ id, '\r' ∉ shown) (hsound : converter.locator.Sound window) :
    Mirrors (Option.map Node.withReturns) converter.MaybeGrounded
      (converter.convertId id window) (padded.convertId id window) := by
  match id with
  | none => exact mirrors_none
  | some [] => exact mirrors_none
  | some (c :: rest) =>
    rw [convertId, convertId, h.settings]
    refine (mirrors_locateBefore h (List.cons_ne_nil c rest) (hid _ rfl) hsound.startColumn_nonneg
      _).bind fun found hfound ↦ ?_
    cases found with
    | none => exact mirrors_none
    | some location => exact mirrors_some_aroundText h (hfound location rfl) _ _

theorem mirrors_convertBlockTitle (h : converter.Padded padded) {info : ElementInfo}
    (hinfo : info.Returnless) (hsound : converter.locator.Sound window) :
    Mirrors (Option.map Node.withReturns) converter.MaybeGrounded
      (converter.convertBlockTitle info window) (padded.convertBlockTitle info window) := by
  rw [convertBlockTitle, convertBlockTitle]
  have htitle := hinfo.title
  generalize info.title = title at htitle ⊢
  obtain _ | _ | ⟨c, rest⟩ := title
  · exact mirrors_none
  · exact mirrors_none
  · have hraw : '\r' ∉ '.' :: c :: rest :=
      List.not_mem_cons_of_ne_of_not_mem (by decide) (htitle _ rfl)
    rw [h.settings]
    refine (mirrors_locateBefore h (List.cons_ne_nil _ _) hraw hsound.startColumn_nonneg
      _).bind fun found hfound ↦ ?_
    cases found with
    | none => exact mirrors_none
    | some location => exact mirrors_some_aroundText h (hfound location rfl) _ _

/-- The paragraph of a text is found at the same place. -/
theorem shifts_convertParagraphText (h : converter.Padded padded) (hvalue : '\r' ∉ value)
    (hsound : converter.locator.Sound window) :
    converter.Shifts (converter.convertParagraphText value window)
      (padded.convertParagraphText value window) := by
  rw [convertParagraphText, convertParagraphText]
  refine (mirrors_find h (fun line hline ↦ not_mem_cutAt hvalue hline) (.inl hsound)).bind
    fun found hfound ↦ ?_
  cases found with
  | none => exact shifts_nil
  | some location =>
    exact (mirrors_aroundText h (hfound location rfl) .paragraph value).bind fun node hnode ↦
      shifts_singleton hnode

/-- A paragraph is found at the same place, and so is its title. -/
theorem shifts_convertParagraph (h : converter.Padded padded) {info : ElementInfo}
    (hinfo : info.Returnless) (hlines : ∀ line ∈ segments, '\r' ∉ line)
    (hsound : converter.locator.Sound window) :
    converter.Shifts (converter.convertParagraph info segments window)
      (padded.convertParagraph info segments window) := by
  rw [convertParagraph, convertParagraph]
  refine (mirrors_find h hlines (.inl hsound)).bind fun found hfound ↦ ?_
  cases found with
  | none => exact shifts_nil
  | some location =>
    refine (mirrors_convertBlockTitle h hinfo hsound).bind fun title htitle ↦
      (mirrors_str h (hfound location rfl) _).bind fun text htext ↦ ?_
    have hchildren : converter.AllGrounded (title.toList ++ [text]) :=
      htitle.toList.append fun _ hnode ↦ List.mem_singleton.mp hnode ▸ htext
    have hsame : (title.map Node.withReturns).toList ++ [text.withReturns] =
        (title.toList ++ [text]).map Node.withReturns := by
      rw [toList_map_withReturns, List.map_append, List.map_singleton]
    rw [hsame]
    exact (mirrors_around h hchildren .paragraph _).bind fun node hnode ↦ shifts_singleton hnode

theorem shifts_wrapped (h : converter.Padded padded) (hnodes : converter.AllGrounded nodes)
    (kind : NodeKind) :
    converter.Shifts (converter.wrapped kind nodes)
      (padded.wrapped kind (nodes.map Node.withReturns)) := by
  rw [wrapped, wrapped, List.isEmpty_map]
  split
  · exact shifts_nil
  · exact (mirrors_around h hnodes kind []).bind fun node hnode ↦ shifts_singleton hnode

theorem shifts_wrappedWithTitle (h : converter.Padded padded)
    (hnodes : converter.AllGrounded nodes) (kind : NodeKind) {info : ElementInfo}
    (hinfo : info.Returnless) (hsound : converter.locator.Sound window) :
    converter.Shifts (converter.wrappedWithTitle kind info nodes window)
      (padded.wrappedWithTitle kind info (nodes.map Node.withReturns) window) := by
  rw [wrappedWithTitle, wrappedWithTitle, List.isEmpty_map]
  split
  · exact shifts_nil
  · refine (mirrors_convertBlockTitle h hinfo hsound).bind fun title htitle ↦ ?_
    rw [toList_map_withReturns, ← List.map_append]
    exact (mirrors_around h (htitle.toList.append hnodes) kind []).bind
      fun node hnode ↦ shifts_singleton hnode

/-- What an element becomes is reported in the same way. -/
theorem mirrors_reportOmission (element : Element) (nodes : List Node) :
    Mirrors id (fun _ ↦ True) (reportOmission element nodes)
      (reportOmission element (nodes.map Node.withReturns)) := by
  have heq : reportOmission element (nodes.map Node.withReturns) =
      reportOmission element nodes := by
    rw [reportOmission, reportOmission, List.isEmpty_map]
  rw [heq]
  exact (yields_trivial _).mirrors

theorem shifts_convertAuthorParts (h : converter.Padded padded) {author : Author}
    (hauthor : author.Returnless) {column : Int} (hcolumn : 0 ≤ column) :
    converter.Shifts (converter.convertAuthorParts author column)
      (padded.convertAuthorParts author column) := by
  rw [convertAuthorParts, convertAuthorParts]
  refine (mirrors_convertText? h hauthor.name (.inr ⟨hcolumn, hauthor.named⟩) _).bind
    fun name hname ↦ ?_
  rw [toList_map_withReturns]
  have hemail := hauthor.email
  generalize author.email = email at hemail ⊢
  obtain _ | _ | ⟨c, rest⟩ := email
  · exact shifts_pure hname.toList
  · exact shifts_pure hname.toList
  · have hboth : ∀ behind : Window, 0 ≤ behind.startColumn →
        converter.Shifts
          (do
            let email ← converter.convertText? .authorEmail (c :: rest) behind
            return name.toList ++ email.toList)
          (do
            let email ← padded.convertText? .authorEmail (c :: rest) behind
            return name.toList.map Node.withReturns ++ email.toList) := by
      intro behind hbehind
      refine (mirrors_convertText? h (hemail _ rfl) (.inr ⟨hbehind, List.cons_ne_nil _ _⟩) _).bind
        fun email hemail ↦ ?_
      rw [toList_map_withReturns, ← List.map_append]
      exact shifts_pure (hname.toList.append hemail.toList)
    cases name with
    | none => exact hboth _ hcolumn
    | some node =>
      dsimp only [Option.map_some]
      rw [Node.location_withReturns]
      exact hboth _ (hname node rfl).span.stop.2.1

theorem shifts_convertAuthors (h : converter.Padded padded) {column : Int} (hcolumn : 0 ≤ column)
    (authors : List Author) (hauthors : ∀ author ∈ authors, author.Returnless) :
    converter.Shifts (converter.convertAuthors column authors)
      (padded.convertAuthors column authors) := by
  induction authors generalizing column with
  | nil => exact shifts_nil
  | cons author rest ih =>
    obtain ⟨hauthor, hrest⟩ := List.forall_mem_cons.mp hauthors
    rw [convertAuthors, convertAuthors]
    refine (shifts_convertAuthorParts h hauthor hcolumn).bind fun parts hparts ↦ ?_
    rw [List.getLast?_map]
    cases hlast : parts.getLast? with
    | none =>
      exact (yields_trivial _).mirrors.bind fun _ _ ↦ ih hcolumn hrest
    | some last =>
      have hstop := (hparts last (List.mem_of_getLast? hlast)).span.stop.2.1
      refine (mirrors_around h hparts .author []).bind fun node hnode ↦ ?_
      rw [Node.location_withReturns]
      refine (ih hstop hrest).bind fun nodes hnodes ↦ ?_
      exact shifts_pure (List.forall_mem_cons.mpr ⟨hnode, hnodes⟩)

/-- What is shown of a header is found at the same places. -/
theorem shifts_convertHeader (h : converter.Padded padded) {header : Header}
    (hheader : header.Returnless) {id : Option Text} (hid : ∀ shown ∈ id, '\r' ∉ shown)
    (window : Window) :
    converter.Shifts (converter.convertHeader id header window)
      (padded.convertHeader id header window) := by
  have hsound : converter.locator.Sound (window.narrowed header.info.lineno none) := .inl rfl
  rw [convertHeader, convertHeader, h.settings]
  refine (mirrors_convertId h hid hsound).bind fun idNode hidNode ↦
    (mirrors_convertTitle h hheader.title hsound _).bind fun title htitle ↦ ?_
  rw [toList_map_withReturns, toList_map_withReturns]
  have hall : ∀ authors, converter.AllGrounded authors →
      converter.Shifts (pure (idNode.toList ++ title.toList ++ authors))
        (pure (idNode.toList.map Node.withReturns ++ title.toList.map Node.withReturns ++
          authors.map Node.withReturns)) := by
    intro authors hauthors
    rw [← List.map_append, ← List.map_append]
    exact shifts_pure ((hidNode.toList.append htitle.toList).append hauthors)
  split
  · exact (shifts_convertAuthors h (Int.le_refl 0) header.authors hheader.authors).bind hall
  · exact shifts_nil.bind hall

end Steps

section Elements

variable {converter padded : Converter} {nodes : List Node} {lastEnd : Option Position}

/-- Nodes of siblings are found at the same places, and the last one ends on a line that is not
passed over. -/
abbrev ShiftsOn (converter : Converter)
    (x y : Conversion (List Node × Option Position)) : Prop :=
  Mirrors (Prod.map (List.map Node.withReturns) id)
    (fun result ↦ converter.AllGrounded result.1 ∧ converter.Rests result.2) x y

theorem shiftsOn_pure (hnodes : converter.AllGrounded nodes) (hrests : converter.Rests lastEnd) :
    converter.ShiftsOn (pure (nodes, lastEnd)) (pure (nodes.map Node.withReturns, lastEnd)) :=
  @mirrors_pure _ _ _ _ (Prod.map (List.map Node.withReturns) id) _ (nodes, lastEnd)
    ⟨hnodes, hrests⟩

/-- The text of an item is found at the same place. -/
theorem shifts_convertItemText (h : converter.Padded padded) {window : Window}
    {shown : Option Text} (hshown : ∀ text ∈ shown, '\r' ∉ text)
    (hsound : converter.locator.Sound window) :
    converter.Shifts (converter.convertItemText window shown)
      (padded.convertItemText window shown) := by
  match shown with
  | none => exact shifts_nil
  | some [] => exact shifts_nil
  | some (c :: rest) => exact shifts_convertParagraphText h (hshown _ rfl) hsound

mutual

/-- The nodes of an element are found at the same places. -/
theorem shifts_convertElement (h : converter.Padded padded) (window : Window)
    (hsound : converter.locator.Sound window) (element : Element) (helement : element.Returnless)
    (hkinds : ∀ inner ∈ element.preorder, inner.isSetApart = false) :
    converter.Shifts (converter.convertElement window element)
      (padded.convertElement window element) := by
  match element with
  | .document _ => exact helement.elim
  | .listItem _ => exact helement.elim
  | .titledSection info level blocks =>
    rw [preorder, List.forall_mem_cons] at hkinds
    rw [convertElement, convertElement]
    refine (mirrors_convertTitle h helement.1.title hsound level).bind fun title htitle ↦ ?_
    cases title with
    | none => exact shifts_nil
    | some title =>
      refine (mirrors_convertId h helement.1.id hsound).bind fun id hid ↦
        (shifts_convertBlocks h window none nofun blocks helement.2 hkinds.2).bind
          fun nodes hnodes ↦ ?_
      rw [toList_map_withReturns, ← List.map_cons, ← List.map_append]
      exact shifts_pure (hid.toList.append (List.forall_mem_cons.mpr ⟨htitle title rfl, hnodes⟩))
  | .container info .preamble blocks =>
    rw [preorder, List.forall_mem_cons] at hkinds
    rw [convertElement, convertElement]
    exact shifts_convertBlocks h window none nofun blocks helement.2 hkinds.2
  | .container info .exampleBlock blocks =>
    rw [preorder, List.forall_mem_cons] at hkinds
    rw [convertElement, convertElement]
    exact shifts_convertBlocks h _ none nofun blocks helement.2 hkinds.2
  | .container info .quote blocks =>
    rw [preorder, List.forall_mem_cons] at hkinds
    rw [convertElement, convertElement]
    exact (shifts_convertBlocks h _ none nofun blocks helement.2 hkinds.2).bind
      fun nodes hnodes ↦ shifts_wrapped h hnodes _
  | .container info .sidebar blocks =>
    rw [preorder, List.forall_mem_cons] at hkinds
    rw [convertElement, convertElement]
    exact (shifts_convertBlocks h _ none nofun blocks helement.2 hkinds.2).bind
      fun nodes hnodes ↦ shifts_wrappedWithTitle h hnodes _ helement.1 hsound
  | .paragraph info isLiteral lines =>
    rw [convertElement, convertElement]
    exact shifts_convertParagraph h helement.1 helement.2 hsound
  | .list info kind marker items =>
    rw [preorder, List.forall_mem_cons] at hkinds
    rw [convertElement, convertElement]
    exact (shiftsOn_convertItems h _ _ none nofun items helement.2 hkinds.2).bind
      fun result hresult ↦ shifts_wrappedWithTitle h hresult.1 _ helement.1 hsound
  | .descriptionList info delimiter entries =>
    rw [preorder, List.forall_mem_cons] at hkinds
    rw [convertElement, convertElement]
    exact (shiftsOn_convertEntries h _ none nofun entries helement.2 hkinds.2).bind
      fun result hresult ↦ shifts_wrappedWithTitle h hresult.1 _ helement.1 hsound
  | .admonition info style lines blocks =>
    rw [preorder, List.forall_mem_cons] at hkinds
    have hwrap : ∀ children, converter.AllGrounded children →
        converter.Shifts (converter.wrappedWithTitle (.admonition style) info children window)
          (padded.wrappedWithTitle (.admonition style) info (children.map Node.withReturns)
            window) :=
      fun children hchildren ↦ shifts_wrappedWithTitle h hchildren _ helement.1 hsound
    match blocks, lines with
    | first :: rest, _ =>
      exact (shifts_convertBlocks h window none nofun (first :: rest) helement.2.2 hkinds.2).bind
        hwrap
    | [], (c :: first) :: rest =>
      have hreturn : '\r' ∉ Text.unlines ((c :: first) :: rest) := not_mem_unlines helement.2.1
      exact (shifts_convertParagraphText h hreturn hsound).bind hwrap
    | [], [] => exact (shifts_throw _).bind hwrap
    | [], [] :: rest => exact (shifts_throw _).bind hwrap
  | .listing .. | .table .. | .image .. | .tableOfContents _ =>
    cases hkinds _ (mem_preorder _)
  | .header _ => exact shifts_nil
  | .author _ => exact shifts_nil
  | .tableCell _ => exact shifts_nil
  | .unhandled _ _ => exact shifts_nil

theorem shifts_convertBlocks (h : converter.Padded padded) (window : Window)
    (lastEnd : Option Position) (hrests : converter.Rests lastEnd) (blocks : List Element)
    (hblocks : ReturnlessAll blocks)
    (hkinds : ∀ inner ∈ preorderOf blocks, inner.isSetApart = false) :
    converter.Shifts (converter.convertBlocks window lastEnd blocks)
      (padded.convertBlocks window lastEnd blocks) := by
  match blocks with
  | [] => exact shifts_nil
  | element :: rest =>
    rw [preorderOf, List.forall_mem_append] at hkinds
    rw [convertBlocks_cons, convertBlocks_cons]
    refine (shifts_convertElement h _ (sound_siblingWindow hrests _ _ _) element hblocks.1
      hkinds.1).bind fun nodes hnodes ↦ (mirrors_reportOmission element nodes).bind fun _ _ ↦ ?_
    rw [endOf_withReturns]
    refine (shifts_convertBlocks h window _ (hrests.endOf hnodes) rest hblocks.2 hkinds.2).bind
      fun others hothers ↦ ?_
    rw [← List.map_append]
    exact shifts_pure (hnodes.append hothers)

theorem shiftsOn_convertItems (h : converter.Padded padded) (window : Window) (behind : Int)
    (lastEnd : Option Position) (hrests : converter.Rests lastEnd) (items : List ListItem)
    (hitems : ReturnlessItems items)
    (hkinds : ∀ inner ∈ preorderOfItems items, inner.isSetApart = false) :
    converter.ShiftsOn (converter.convertItems window behind lastEnd items)
      (padded.convertItems window behind lastEnd items) := by
  match items with
  | [] => exact shiftsOn_pure allGrounded_nil hrests
  | item :: rest =>
    rw [preorderOfItems, List.forall_mem_append] at hkinds
    rw [convertItems_cons, convertItems_cons]
    refine (shifts_convertItem h _ (sound_siblingWindow hrests _ _ _) item hitems.1
      hkinds.1).bind fun nodes hnodes ↦ (mirrors_reportOmission _ nodes).bind fun _ _ ↦ ?_
    rw [endOf_withReturns]
    refine (shiftsOn_convertItems h window behind _ (hrests.endOf hnodes) rest hitems.2
      hkinds.2).bind fun (others, final) hothers ↦ ?_
    dsimp only [Prod.map_apply]
    rw [← List.map_append]
    exact shiftsOn_pure (hnodes.append hothers.1) hothers.2

theorem shiftsOn_convertEntries (h : converter.Padded padded) (window : Window)
    (lastEnd : Option Position) (hrests : converter.Rests lastEnd) (entries : List DescriptionEntry)
    (hentries : ReturnlessEntries entries)
    (hkinds : ∀ inner ∈ preorderOfEntries entries, inner.isSetApart = false) :
    converter.ShiftsOn (converter.convertEntries window lastEnd entries)
      (padded.convertEntries window lastEnd entries) := by
  match entries with
  | [] => exact shiftsOn_pure allGrounded_nil hrests
  | ⟨terms, none⟩ :: rest =>
    rw [preorderOfEntries, preorderOfEntry, List.forall_mem_append] at hkinds
    rw [convertEntries, convertEntries]
    refine (shiftsOn_convertItems h window _ lastEnd hrests terms hentries.1 hkinds.1).bind
      fun (nodes, afterTerms) hnodes ↦ (shiftsOn_convertEntries h window afterTerms hnodes.2 rest
        hentries.2 hkinds.2).bind fun (others, final) hothers ↦ ?_
    dsimp only [Prod.map_apply, id]
    rw [← List.map_append]
    exact shiftsOn_pure (hnodes.1.append hothers.1) hothers.2
  | ⟨terms, some description⟩ :: rest =>
    rw [preorderOfEntries, preorderOfEntry, List.forall_mem_append, List.forall_mem_append]
      at hkinds
    rw [convertEntries, convertEntries]
    refine (shiftsOn_convertItems h window _ lastEnd hrests terms hentries.1 hkinds.1.1).bind
      fun (nodes, afterTerms) hnodes ↦ (shifts_convertItem h _
        (sound_siblingWindow hnodes.2 _ _ _) description hentries.2.1 hkinds.1.2).bind
          fun described hdescribed ↦ (mirrors_reportOmission _ described).bind fun _ _ ↦ ?_
    dsimp only [Prod.map_apply, id]
    rw [endOf_withReturns]
    refine (shiftsOn_convertEntries h window _ (hnodes.2.endOf hdescribed) rest hentries.2.2
      hkinds.2).bind fun (others, final) hothers ↦ ?_
    dsimp only [Prod.map_apply, id]
    rw [← List.map_append, ← List.map_append]
    exact shiftsOn_pure ((hnodes.1.append hdescribed).append hothers.1) hothers.2

theorem shifts_convertItem (h : converter.Padded padded) (window : Window)
    (hsound : converter.locator.Sound window) (item : ListItem) (hitem : ReturnlessItem item)
    (hkinds : ∀ inner ∈ preorderOfItem item, inner.isSetApart = false) :
    converter.Shifts (converter.convertItem window item) (padded.convertItem window item) := by
  match item with
  | ⟨info, shown, checkbox, blocks⟩ =>
    rw [preorderOfItem, List.forall_mem_cons] at hkinds
    rw [convertItem_eq, convertItem_eq]
    refine (shifts_convertItemText h hitem.1 hsound).bind fun own hown ↦
      (shifts_convertBlocks h window none nofun blocks hitem.2 hkinds.2).bind
        fun attached hattached ↦ ?_
    rw [← List.map_append]
    exact shifts_wrapped h (hown.append hattached) _

end

end Elements

section Documents

variable {settings : LooseSettings} {text : Text} {document : Document} {nodes : List Node}

/-- The document around some nodes covers the same lines in the other text. -/
theorem mirrors_documentAround (h : '\r' ∉ settings.marker?.getD [])
    (hnodes : (ofText settings text).AllGrounded nodes) :
    Mirrors (Node.documentWithReturns text) (fun _ ↦ True)
      (assembled (Node.documentAround (Source.ofText text) nodes))
      (assembled (Node.documentAround (Source.ofText text.withReturns)
        (nodes.map Node.withReturns))) := by
  have hsame := coveringSpan_withReturns nodes
  cases hcovers : Node.coveringSpan (nodes.map (·.location)) with
  | error cause =>
    rw [hcovers] at hsame
    simp only [Node.documentAround, hcovers, hsame, bind, Except.bind]
    exact mirrors_throw _
  | ok location =>
    rw [hcovers] at hsame
    obtain ⟨range, hshort, hlong⟩ :=
      (padded_ofText h text).range location (grounded_of_coveringSpan hnodes hcovers).span
    change (Source.ofText text).range? location = _ at hshort
    change (Source.ofText text.withReturns).range? location = _ at hlong
    simp only [Node.documentAround, hcovers, hsame, bind, Except.bind, hshort, hlong]
    exact @mirrors_pure _ _ _ _ (Node.documentWithReturns text) (fun _ ↦ True)
      (.mk .document (text.slice range.1 range.2) location range nodes) trivial

/-- A document is found at the same place in the other text. -/
theorem mirrors_convertDocument (h : '\r' ∉ settings.marker?.getD [])
    (hdocument : document.Returnless)
    (hkinds : ∀ element ∈ preorderOfDocument document, element.isSetApart = false)
    (window : Window) :
    Mirrors (List.map (Node.documentWithReturns text)) (fun _ ↦ True)
      ((ofText settings text).convertDocument window document)
      ((ofText settings text.withReturns).convertDocument window document) := by
  obtain ⟨info, header, blocks⟩ := document
  rw [preorderOfDocument, List.forall_mem_append] at hkinds
  have hpadded := padded_ofText h text
  have hroot : ∀ head nodes, (ofText settings text).AllGrounded head →
      (ofText settings text).AllGrounded nodes →
      Mirrors (List.map (Node.documentWithReturns text)) (fun _ ↦ True)
        (do
          let children := head ++ nodes
          if children.isEmpty then return []
          else return [← assembled (Node.documentAround (Source.ofText text) children)])
        (do
          let children := head.map Node.withReturns ++ nodes.map Node.withReturns
          if children.isEmpty then return []
          else return [← assembled (Node.documentAround (Source.ofText text.withReturns)
            children)]) := by
    intro head nodes hhead hnodes
    dsimp only
    rw [← List.map_append, List.isEmpty_map]
    split
    · exact @mirrors_pure _ _ _ _ (List.map (Node.documentWithReturns text)) _ [] trivial
    · exact (mirrors_documentAround h (hhead.append hnodes)).bind fun root _ ↦
        @mirrors_pure _ _ _ _ (List.map (Node.documentWithReturns text)) _ [root] trivial
  rw [convertDocument, convertDocument]
  refine (shifts_convertBlocks hpadded window none nofun blocks hdocument.blocks hkinds.2).bind
    fun nodes hnodes ↦ ?_
  cases header with
  | none => exact shifts_nil.bind fun head hhead ↦ hroot head nodes hhead hnodes
  | some header =>
    exact (shifts_convertHeader hpadded (hdocument.header header rfl) hdocument.info.id window).bind
      fun head hhead ↦ hroot head nodes hhead hnodes

/-- The located tree of a document is the first node that the document becomes. -/
theorem locateDocument_eq (settings : LooseSettings) (document : Document) (text : Text) :
    (locateDocument settings document text).1 =
      match (ofText settings text).convertDocument
        { minLine := 1, maxLine := (ofText settings text).source.lineCount } document [] with
      | .ok nodes _ => .ok (nodes.headD Node.emptyDocument)
      | .error cause _ => .error cause := by
  rw [locateDocument, convertRoot]
  dsimp only
  cases hrun : (ofText settings text).convertDocument
      { minLine := 1, maxLine := (ofText settings text).source.lineCount } document [] with
  | ok nodes log =>
    rw [bind_of_eq_ok hrun]
    rfl
  | error cause log => rw [bind_of_eq_error hrun]

/-- What is located of a document in the other text is what is located in the text, with larger
offsets. -/
theorem locateDocument_withReturns (h : '\r' ∉ settings.marker?.getD [])
    (hdocument : document.Returnless)
    (hkinds : ∀ element ∈ preorderOfDocument document, element.isSetApart = false) :
    (locateDocument settings document text.withReturns).1 =
      (locateDocument settings document text).1.map (Node.documentWithReturns text) := by
  have hlines : (ofText settings text.withReturns).source.lineCount =
      (ofText settings text).source.lineCount := (padded_ofText h text).locator.lineCount_eq
  have hmirrors : _ := @mirrors_convertDocument settings text document h hdocument hkinds
    { minLine := 1, maxLine := (ofText settings text).source.lineCount } []
  rw [locateDocument_eq, locateDocument_eq, hlines]
  generalize (ofText settings text).convertDocument _ document [] = outcome at hmirrors ⊢
  cases outcome with
  | ok nodes log =>
    rw [hmirrors.1]
    cases nodes with
    | nil => exact congrArg Except.ok (Node.documentWithReturns_emptyDocument text).symm
    | cons root rest => rfl
  | error cause log =>
    dsimp only at hmirrors
    rw [hmirrors]
    rfl

/-- The line endings of a text do not matter: with a carriage return before every newline it makes
the same document, whose tree has the same kinds, locations and raw texts. Only offsets are larger,
by one for every line before them, and the raw text of the root is what stands between its. -/
theorem locateText_withReturns (text : Text) (hreturn : '\r' ∉ text)
    (hkinds : ∀ document, (Document.ofText "//".toList text).1 = .ok document →
      ∀ element ∈ preorderOfDocument document, element.isSetApart = false) :
    Document.ofText "//".toList text.withReturns = Document.ofText "//".toList text ∧
      (locateText Settings.default.loosen text.withReturns).1 =
        (locateText Settings.default.loosen text).1.map (Node.documentWithReturns text) := by
  have hsame : Document.ofText "//".toList text.withReturns = Document.ofText "//".toList text :=
    Blocks.ofText_withReturns _ text
  refine ⟨hsame, ?_⟩
  have hmarker : Settings.default.commentMarker = "//".toList := rfl
  rw [locateText, locateText, Settings.marker?_loosen, hmarker]
  dsimp only
  rw [hsame]
  cases hread : Document.ofText "//".toList text with
  | mk result log =>
    cases result with
    | error cause => rfl
    | ok document =>
      have hdocument : (Document.ofText "//".toList text).1 = .ok document := by rw [hread]
      have hlocated := @locateDocument_withReturns Settings.default.loosen text document (by decide)
        (Blocks.returnless_of_ofText hreturn hdocument) (hkinds document hdocument)
      dsimp only
      rw [hlocated]
      cases (locateDocument Settings.default.loosen document text).1 <;> rfl

/-- A header with an author, a comment, a section, a list item with a paragraph attached to it, and
a paragraph with a trailing blank. -/
def mixedText : Text :=
  "= T\nA <a@b>\n\n// c\n== S\n\n* i\n+\nj\n\nt:: d\n\np \nq\n".toList

theorem locateText_mixedText :
    ('\r' ∉ mixedText ∧
      ∀ document, (Document.ofText "//".toList mixedText).1 = .ok document →
        ∀ element ∈ preorderOfDocument document, element.isSetApart = false) ∧
    Document.ofText "//".toList mixedText.withReturns = Document.ofText "//".toList mixedText ∧
      (locateText Settings.default.loosen mixedText.withReturns).1 =
        (locateText Settings.default.loosen mixedText).1.map
          (Node.documentWithReturns mixedText) := by
  have hreturn : '\r' ∉ mixedText := by decide +kernel
  have hchecked : ((Document.ofText "//".toList mixedText).1.map fun document ↦
      (preorderOfDocument document).all fun element ↦ !element.isSetApart) = .ok true := by
    decide +kernel
  have hkinds : ∀ document, (Document.ofText "//".toList mixedText).1 = .ok document →
      ∀ element ∈ preorderOfDocument document, element.isSetApart = false := by
    intro document hdocument element helement
    rw [hdocument] at hchecked
    have hall := List.all_eq_true.mp (Except.ok.inj hchecked) element helement
    exact (Bool.not_eq_true' _).mp hall
  exact ⟨⟨hreturn, hkinds⟩, locateText_withReturns mixedText hreturn hkinds⟩

end Documents

end Converter

end AsciidocSpans
