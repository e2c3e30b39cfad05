import AsciidocSpans.Proofs.Blocks.Captures
import AsciidocSpans.Proofs.Conversion.InTurn
import AsciidocSpans.Proofs.Span.Started

/-!
Where texts are located that follow their markup. The title of a section, the text of an item, the
text behind the label of an admonition and the text of a cell are captured behind the markup that
introduces them. Only the texts are kept, and they are searched from the start of their windows on.
So each of them is located where the search for it starts, whatever that belongs to: at the place
where its first line is captured just if no line before may hold the text and the first line occurs
nowhere before on its own (`MeetsCapture`).

`TextsLocated` says so of the texts of one element, and `textsPlaced_of_locateText` of all of them
in the tree of every text. In `located_in_markup` texts occur in the markup before them and are
located there.
-/

set_option autoImplicit false
set_option relaxedAutoImplicit false

namespace AsciidocSpans.Converter

open Blocks (BeginIn CapturedOn CellCaptured Formed ItemFormed StandsFrom Unlabelled
  entries_of_formed exists_captured_item exists_captured_label exists_captured_title
  exists_cellCaptured items_of_formed)
open Node (childrenOf)
open Text

/-! ### Places where texts are captured -/

/-- The first of some lines occurs on a line nowhere before a column, from another column on. -/
def FirstBehind (text : Text) (segments : List Text) (start : Int) (index column : Nat) : Prop :=
  ∀ first ∈ segments.head?, ∀ raw ∈ text.lines[index]?, ∀ c < column, start ≤ c →
    ¬ OccursAt first raw c

/-- How the place at which the lines of a text are located relates to one at which the first of them
is captured: it is the same just if the search starts there. If the window starts with that line,
and the lines may start there, this is so just if the first of them occurs nowhere before on it. A
text of one line may start on any line that is no comment. -/
structure MeetsCapture (settings : Settings) (text : Text) (segments : List Text) (window : Window)
    (index column : Nat) (location : Location) : Prop where
  start : location.start = ⟨index + 1, column⟩ ↔
    (ofText settings.loosen text).locator.StartsAt false segments window index column
  onFirstLine : window.minLine = index + 1 → window.startColumn ≤ column →
    (ofText settings.loosen text).locator.Admissible false segments window (index + 1) →
      (location.start = ⟨index + 1, column⟩ ↔
        FirstBehind text segments window.startColumn index column)
  ofOneLine : segments.length = 1 → (∀ raw ∈ text.lines[index]?, ¬ settings.commentMarker <+: raw) →
    window.minLine = index + 1 → (index : Int) + 1 ≤ window.maxLine →
      window.startColumn ≤ column →
        (location.start = ⟨index + 1, column⟩ ↔
          FirstBehind text segments window.startColumn index column)

/-- Some nodes show a text: a node around a leaf at the place where a search finds the text, or none
if it finds nothing. -/
inductive ShowsFound (converter : Converter) (kind : NodeKind) (segments : List Text)
    (window : Window) : List Node → Prop
  | missed (missed : converter.locator.find? false segments window = none) :
      ShowsFound converter kind segments window []
  | found {node leaf : Node} (ofKind : node.kind = kind) (children : node.children = [leaf])
      (str : leaf.kind = .str)
      (found : converter.locator.find? false segments window = some leaf.location) :
      ShowsFound converter kind segments window [node]

/-- Some nodes show a text, and the leaf is located as it follows for every place at which the first
line of the text is captured. -/
structure TextLocated (settings : Settings) (text : Text) (kind : NodeKind) (segments : List Text)
    (window : Window) (captured : Nat → Nat → Prop) (nodes : List Node) : Prop where
  shown : ShowsFound (ofText settings.loosen text) kind segments window nodes
  placed : ∀ node ∈ nodes, ∀ leaf ∈ node.children, ∀ index column, captured index column →
    MeetsCapture settings text segments window index column leaf.location

section Searches

variable {settings : Settings} {text : Text} {segments : List Text} {window : Window}
  {location : Location} {index column : Nat}

/-- What is found relates in this way to every place at which the first line stands. -/
theorem meetsCapture_of_find? (hstart : 0 ≤ window.startColumn)
    (hfound : (ofText settings.loosen text).locator.find? false segments window = some location)
    {first : Text} (hfirst : segments.head? = some first)
    (hstands : StandsFrom text.lines index column first) :
    MeetsCapture settings text segments window index column location := by
  obtain ⟨raw, hraw, hoccurs⟩ := hstands.occursAt
  have hbehind : FirstBehind text segments window.startColumn index column ↔
      ∀ c < column, window.startColumn ≤ c → ¬ OccursAt first raw c := by
    simp [FirstBehind, hfirst, hraw]
  have honFirst : window.minLine = index + 1 → window.startColumn ≤ column →
      (ofText settings.loosen text).locator.Admissible false segments window (index + 1) →
        (location.start = ⟨index + 1, column⟩ ↔
          FirstBehind text segments window.startColumn index column) := by
    intro hminLine hcolumn hadmissible
    rw [hbehind]
    exact Locator.start_eq_iff_of_minLine hstart hfound hraw hfirst hoccurs hminLine hcolumn
      hadmissible
  refine ⟨Locator.start_eq_iff hstart hfound, honFirst,
    fun hlength hkept hminLine hmaxLine hcolumn ↦ honFirst hminLine hcolumn ?_⟩
  obtain ⟨only, rfl⟩ := List.length_eq_one_iff.mp hlength
  cases hfirst
  have hfrom := Locator.startColumnOn_of_minLine hminLine
  have hskips : (ofText settings.loosen text).locator.skips false raw = false :=
    skips_of_not_isPrefix (Settings.marker?_loosen settings) (hkept raw hraw) false
  exact Locator.admissible_singleton hraw hskips hoccurs (by omega) hmaxLine
    (hfrom.trans_le hcolumn)

/-- What is shown of a text is located in this way, if the first line of the text stands wherever it
is captured. -/
theorem textLocated_of_showsFound {kind : NodeKind} {captured : Nat → Nat → Prop}
    {nodes : List Node} (hstart : 0 ≤ window.startColumn)
    (hshown : ShowsFound (ofText settings.loosen text) kind segments window nodes)
    (hcaptured : ∀ index column, captured index column →
      ∃ first, segments.head? = some first ∧ StandsFrom text.lines index column first) :
    TextLocated settings text kind segments window captured nodes := by
  refine ⟨hshown, fun node hnode leaf hleaf index column hplace ↦ ?_⟩
  obtain ⟨first, hfirst, hstands⟩ := hcaptured index column hplace
  cases hshown with
  | missed => cases hnode
  | found _ children _ found =>
    rw [List.mem_singleton.mp hnode, children, List.mem_singleton] at hleaf
    rw [hleaf]
    exact meetsCapture_of_find? hstart found hfirst hstands

end Searches

/-! ### What is found for texts -/

section Found

variable {converter : Converter} {window : Window}

theorem showsFound_of_aroundText {kind : NodeKind} {segments : List Text} {value : Text}
    {location : Location} {node : Node}
    (hfound : converter.locator.find? false segments window = some location)
    (hnode : Node.aroundText converter.source kind value location = .ok node) :
    ShowsFound converter kind segments window [node] := by
  obtain ⟨range, leaf, -, hleaf, rfl⟩ := aroundText_eq_ok hnode
  obtain ⟨inner, -, rfl⟩ := located_eq_ok hleaf
  exact .found rfl rfl rfl hfound

theorem showsFound_convertText? (kind : NodeKind) (value : Text) :
    Yields (converter.convertText? kind value window) fun result ↦
      ShowsFound converter kind [value] window result.toList := by
  rw [convertText?]
  refine (yields_find converter false [value] window).bind fun found hfound ↦ ?_
  cases found with
  | none => exact yields_pure (.missed hfound.symm)
  | some location =>
    exact (yields_assembled fun node hnode ↦ hnode).bind fun node hnode ↦
      yields_pure (showsFound_of_aroundText hfound.symm hnode)

theorem showsFound_convertParagraphText (shown : Text) :
    Yields (converter.convertParagraphText shown window)
      (ShowsFound converter .paragraph shown.lines window) := by
  rw [convertParagraphText]
  refine (yields_find converter false shown.lines window).bind fun found hfound ↦ ?_
  cases found with
  | none => exact yields_pure (.missed hfound.symm)
  | some location =>
    exact (yields_assembled fun node hnode ↦ hnode).bind fun node hnode ↦
      yields_pure (showsFound_of_aroundText hfound.symm hnode)

end Found

/-! ### Items and cells -/

/-- The own text of an item is captured on the line of the item and shown before what is attached,
if the item has one. -/
def ItemLocated (settings : Settings) (text : Text) (window : Window) (item : ListItem)
    (nodes : List Node) : Prop :=
  ∃ own attached, childrenOf nodes = own ++ attached ∧
    ∀ shown first, item.text = some shown → shown ≠ [] → shown.lines.head? = some first →
      (∃ index column, CapturedOn settings.commentMarker text.lines item.info first index column) ∧
      TextLocated settings text .paragraph shown.lines window
        (CapturedOn settings.commentMarker text.lines item.info first) own

/-- The text of a cell is captured on a line and located as it follows for every place at which it
is, unless its first line is empty. A cell that holds no blocks shows it in a leaf. -/
structure CellLocated (settings : Settings) (text : Text) (window : Window) (cell : TableCell)
    (result : Option Node) : Prop where
  found : result.map (·.location) =
    (ofText settings.loosen text).locator.find? false cell.text.lines window
  captured : ∃ index column, CellCaptured settings.commentMarker text.lines cell index column
  placed : ∀ node ∈ result, cell.text.lines.head? ≠ some [] → ∀ index column,
    CellCaptured settings.commentMarker text.lines cell index column →
      MeetsCapture settings text cell.text.lines window index column node.location
  leaf : ∀ node ∈ result, cell.style ≠ some .asciidoc →
    ∃ leaf, node.children = [leaf] ∧ leaf.kind = .str ∧ leaf.location = node.location

section Parts

variable {settings : Settings} {text : Text} {window : Window}

theorem not_mem_newline : ∀ line ∈ text.lines, '\n' ∉ line :=
  fun _ ↦ not_mem_of_mem_lines

theorem itemLocated_convertItem (hstart : 0 ≤ window.startColumn) (item : ListItem) :
    Yields ((ofText settings.loosen text).convertItem window item) fun nodes ↦
      ItemFormed (BeginIn settings.commentMarker text.lines) item →
        ItemLocated settings text window item nodes := by
  obtain ⟨info, written, checkbox, blocks⟩ := item
  rw [convertItem.eq_def]
  dsimp only
  have hattached : ∀ own, (∀ shown, written = some shown → shown ≠ [] →
      ShowsFound (ofText settings.loosen text) .paragraph shown.lines window own) →
      Yields ((ofText settings.loosen text).convertBlocks window none blocks >>= fun attached ↦
        (ofText settings.loosen text).wrapped .listItem (own ++ attached)) fun nodes ↦
          ItemFormed (BeginIn settings.commentMarker text.lines) ⟨info, written, checkbox, blocks⟩ →
            ItemLocated settings text window ⟨info, written, checkbox, blocks⟩ nodes := by
    intro own hown
    refine (yields_trivial _).bind fun attached _ s nodes s' hnodes hformed ↦
      ⟨own, attached, yields_childrenOf_wrapped s nodes s' hnodes,
        fun shown first htext hsome hfirst ↦ ?_⟩
    refine ⟨exists_captured_item not_mem_newline hformed htext hfirst,
      textLocated_of_showsFound hstart (hown shown htext hsome) fun index column hcaptured ↦
        ⟨first, hfirst, hcaptured.captured.standsFrom⟩⟩
  split
  · next c rest =>
    refine (showsFound_convertParagraphText (c :: rest)).bind fun own hown ↦
      hattached own fun shown hshown _ ↦ ?_
    cases hshown
    exact hown
  · next hnone =>
    refine Yields.bind (yields_pure (P := fun own ↦ own = []) rfl) fun own _ ↦
      hattached own fun shown hshown hsome ↦ ?_
    obtain ⟨c, rest, rfl⟩ := List.exists_cons_of_ne_nil hsome
    exact (hnone c rest hshown).elim

theorem cellLocated_convertCell (hstart : 0 ≤ window.startColumn) (cell : TableCell) :
    Yields ((ofText settings.loosen text).convertCell window cell) fun result ↦
      (∃ index column, CellCaptured settings.commentMarker text.lines cell index column) →
        CellLocated settings text window cell result := by
  obtain ⟨info, shown, style, colspan, inner⟩ := cell
  have hplaced : ∀ location,
      (ofText settings.loosen text).locator.find? false shown.lines window = some location →
        shown.lines.head? ≠ some [] → ∀ index column, CellCaptured settings.commentMarker text.lines
          ⟨info, shown, style, colspan, inner⟩ index column →
            MeetsCapture settings text shown.lines window index column location := by
    intro location hfound hsome index column hcaptured
    obtain ⟨first, hfirst⟩ : ∃ first, shown.lines.head? = some first :=
      ⟨_, List.head?_eq_some_head (cutAt_ne_nil '\n' shown)⟩
    refine meetsCapture_of_find? hstart hfound hfirst
      (hcaptured.standsFrom not_mem_newline hfirst fun hnil ↦ hsome ?_)
    rw [hfirst, hnil]
  rw [convertCell.eq_def]
  dsimp only
  refine (yields_find _ false shown.lines window).bind fun found hfound ↦ ?_
  cases found with
  | none =>
    exact yields_pure fun hcaptured ↦ ⟨hfound, hcaptured, nofun, nofun⟩
  | some location =>
    have hnode : ∀ children, (style ≠ some .asciidoc →
        ∃ leaf, children = [leaf] ∧ leaf.kind = .str ∧ leaf.location = location) →
        Yields (assembled (Node.located (ofText settings.loosen text).source .tableCell shown
          location children) >>= fun node ↦ pure (some node)) fun result ↦
            (∃ index column, CellCaptured settings.commentMarker text.lines
              ⟨info, shown, style, colspan, inner⟩ index column) →
                CellLocated settings text window ⟨info, shown, style, colspan, inner⟩ result := by
      intro children hchildren
      refine (yields_assembled fun node hnode ↦ hnode).bind fun node hnode ↦
        yields_pure fun hcaptured ↦ ?_
      obtain ⟨range, -, rfl⟩ := located_eq_ok hnode
      refine ⟨hfound, hcaptured, ?_, ?_⟩
      · rintro _ ⟨⟩
        exact hplaced location hfound.symm
      · rintro _ ⟨⟩ hstyle
        exact hchildren hstyle
    dsimp only
    split
    · exact (yields_trivial _).bind fun children _ ↦ hnode children fun hstyle ↦ (hstyle rfl).elim
    · refine (yields_assembled fun leaf hleaf ↦ hleaf).bind fun leaf hleaf ↦
        hnode [leaf] fun _ ↦ ?_
      obtain ⟨range, -, rfl⟩ := located_eq_ok hleaf
      exact ⟨_, rfl, rfl, rfl⟩

end Parts

/-! ### Elements -/

/-- The texts of an element by itself are located, given the window of the element. The title of a
section comes with its blocks or not at all. An admonition without blocks has a label on its line,
unless that is no admonition by itself. The items of a list, the terms and descriptions of a
description list and the cells of a table are located in turn. -/
def TextsLocated (settings : Settings) (text : Text) (window : Window) :
    Element → List Node → Prop
  | .titledSection info level _, nodes => ∃ title, info.title = some title ∧
      (∃ index column, CapturedOn settings.commentMarker text.lines info title index column) ∧
      ∃ before shown behind, nodes = before ++ shown ++ behind ∧ (shown = [] → nodes = []) ∧
        TextLocated settings text (.header (level + 1)) [title] window
          (CapturedOn settings.commentMarker text.lines info title) shown
  | .admonition info _ lines [], nodes => ∃ first more, lines = first :: more ∧
      ((∃ index column, CapturedOn settings.commentMarker text.lines info first index column) ∨
        Unlabelled settings.commentMarker text.lines info) ∧
      ∃ title shown, childrenOf nodes = title ++ shown ∧
        TextLocated settings text .paragraph (unlines lines).lines window
          (CapturedOn settings.commentMarker text.lines info first) shown
  | .list _ _ _ items, nodes => ∃ title inner final, childrenOf nodes = title ++ inner ∧
      ItemsInTurn (ItemLocated settings text) (window.withNarrowing true) window.maxLine none items
        inner final
  | .descriptionList _ _ entries, nodes => ∃ title inner, childrenOf nodes = title ++ inner ∧
      EntriesInTurn (ItemLocated settings text) (window.withNarrowing true) none entries inner
  | .table _ _ headRows bodyRows, nodes => ∃ front head body middle final,
      childrenOf nodes = front ++ head ++ body ∧
      RowsInTurn (CellLocated settings text) window.maxLine none headRows head middle ∧
      RowsInTurn (CellLocated settings text) window.maxLine middle bodyRows body final
  | _, _ => True

section Elements

variable {settings : Settings} {text : Text} {window : Window} {info : ElementInfo}

theorem textsLocated_convertSection {level : Int} {blocks : List Element}
    (hstart : 0 ≤ window.startColumn)
    (hformed : Formed settings.commentMarker (BeginIn settings.commentMarker text.lines)
      (.titledSection info level blocks)) :
    Yields ((ofText settings.loosen text).convertElement window (.titledSection info level blocks))
      (TextsLocated settings text window (.titledSection info level blocks)) := by
  obtain ⟨title, index, column, htitle, hcaptured⟩ := exists_captured_title hformed
  have hlocated : ∀ {shown}, ShowsFound (ofText settings.loosen text) (.header (level + 1)) [title]
      window shown → TextLocated settings text (.header (level + 1)) [title] window
        (CapturedOn settings.commentMarker text.lines info title) shown := fun hshown ↦
    textLocated_of_showsFound hstart hshown fun _ _ hplace ↦
      ⟨title, rfl, hplace.captured.standsFrom⟩
  rw [convertElement, htitle]
  refine (showsFound_convertText? _ title).bind fun found hfound ↦ ?_
  cases found with
  | none =>
    exact yields_pure ⟨title, htitle, ⟨index, column, hcaptured⟩, [], [], [], rfl, fun _ ↦ rfl,
      hlocated hfound⟩
  | some header =>
    refine (yields_trivial _).bind fun id _ ↦ (yields_trivial _).bind fun nodes _ ↦
      yields_pure ⟨title, htitle, ⟨index, column, hcaptured⟩, id.toList, [header], nodes, ?_, nofun,
        hlocated hfound⟩
    rw [List.append_assoc]
    rfl

theorem textsLocated_convertAdmonition {style : Text} {lines : List Text}
    (hstart : 0 ≤ window.startColumn)
    (hformed : Formed settings.commentMarker (BeginIn settings.commentMarker text.lines)
      (.admonition info style lines [])) :
    Yields ((ofText settings.loosen text).convertElement window (.admonition info style lines []))
      (TextsLocated settings text window (.admonition info style lines [])) := by
  match lines with
  | [] => exact Yields.bind (yields_throw _) fun _ (hnever : False) ↦ hnever.elim
  | [] :: rest => exact Yields.bind (yields_throw _) fun _ (hnever : False) ↦ hnever.elim
  | (c :: start) :: rest =>
    rw [convertElement]
    refine (showsFound_convertParagraphText _).bind fun shown hshown s nodes s' hnodes ↦ ?_
    obtain ⟨title, htitle⟩ := yields_childrenOf_wrappedWithTitle info window s nodes s' hnodes
    refine ⟨c :: start, rest, rfl, ?_, title, shown, htitle,
      textLocated_of_showsFound hstart hshown fun index column hplace ↦ ?_⟩
    · refine (exists_captured_label (List.cons_ne_nil _ _) hformed).imp_left ?_
      rintro ⟨first, more, index, column, heq, hcaptured⟩
      cases heq
      exact ⟨index, column, hcaptured⟩
    · have hstands := hplace.captured.standsFrom
      exact ⟨c :: start, head?_lines_unlines (hstands.not_mem not_mem_newline) rest, hstands⟩

theorem textsLocated_convertList {kind : ListKind} {marker : Text} {items : List ListItem}
    (hformed : ∀ item ∈ items, ItemFormed (BeginIn settings.commentMarker text.lines) item) :
    Yields ((ofText settings.loosen text).convertElement window (.list info kind marker items))
      (TextsLocated settings text window (.list info kind marker items)) := by
  rw [convertElement]
  refine (itemsInTurn_convertItems (fun _ item hstart ↦ itemLocated_convertItem hstart item) _ _
    endsAtColumn_none items).bind fun inner hinner s nodes s' hnodes ↦ ?_
  obtain ⟨title, htitle⟩ := yields_childrenOf_wrappedWithTitle info window s nodes s' hnodes
  exact ⟨title, inner.1, inner.2, htitle,
    hinner.1.imp fun item hitem _ _ hlocated ↦ hlocated (hformed item hitem)⟩

theorem textsLocated_convertDescriptionList {delimiter : Text} {entries : List DescriptionEntry}
    (hformed : ∀ entry ∈ entries, ∀ item ∈ entry.terms ++ entry.description.toList,
      ItemFormed (BeginIn settings.commentMarker text.lines) item) :
    Yields ((ofText settings.loosen text).convertElement window
        (.descriptionList info delimiter entries))
      (TextsLocated settings text window (.descriptionList info delimiter entries)) := by
  rw [convertElement]
  refine (entriesInTurn_convertEntries (fun _ item hstart ↦ itemLocated_convertItem hstart item) _
    endsAtColumn_none entries).bind fun inner hinner s nodes s' hnodes ↦ ?_
  obtain ⟨title, htitle⟩ := yields_childrenOf_wrappedWithTitle info window s nodes s' hnodes
  exact ⟨title, inner.1, htitle,
    hinner.imp fun entry hentry item hitem _ _ hlocated ↦
      hlocated (hformed entry hentry item hitem)⟩

theorem textsLocated_convertTable {columns : Nat} {headRows bodyRows : List (List TableCell)}
    (hformed : Formed settings.commentMarker (BeginIn settings.commentMarker text.lines)
      (.table info columns headRows bodyRows)) :
    Yields ((ofText settings.loosen text).convertElement window
        (.table info columns headRows bodyRows))
      (TextsLocated settings text window (.table info columns headRows bodyRows)) := by
  have hcaptured : ∀ row ∈ headRows ++ bodyRows, ∀ cell ∈ row,
      ∃ index column, CellCaptured settings.commentMarker text.lines cell index column :=
    fun row hrow cell hcell ↦
      exists_cellCaptured hformed (List.mem_flatten.mpr ⟨row, hrow, hcell⟩)
  rw [convertElement]
  refine (yields_trivial _).bind fun title _ ↦ (yields_trivial _).bind fun attributes _ ↦
    (rowsInTurn_convertRows (fun _ cell hstart ↦ cellLocated_convertCell hstart cell) window.maxLine
      endsAtColumn_none headRows).bind fun head hhead ↦
        (rowsInTurn_convertRows (fun _ cell hstart ↦ cellLocated_convertCell hstart cell)
          window.maxLine hhead.2 bodyRows).bind fun body hbody s nodes s' hnodes ↦ ?_
  exact ⟨title.toList ++ attributes.toList, head.1, body.1, head.2, body.2,
    yields_childrenOf_wrapped s nodes s' hnodes,
    hhead.1.imp fun row hrow cell hcell _ _ hlocated ↦
      hlocated (hcaptured row (List.mem_append_left _ hrow) cell hcell),
    hbody.1.imp fun row hrow cell hcell _ _ hlocated ↦
      hlocated (hcaptured row (List.mem_append_right _ hrow) cell hcell)⟩

/-- The texts of every element that is made of lines of a text are located in this way. -/
theorem textsLocated_convertElement {element : Element} (hstart : 0 ≤ window.startColumn)
    (hformed : Formed settings.commentMarker (BeginIn settings.commentMarker text.lines) element) :
    Yields ((ofText settings.loosen text).convertElement window element)
      (TextsLocated settings text window element) := by
  match element with
  | .titledSection .. => exact textsLocated_convertSection hstart hformed
  | .admonition _ _ _ [] => exact textsLocated_convertAdmonition hstart hformed
  | .list .. => exact textsLocated_convertList (items_of_formed hformed)
  | .descriptionList .. => exact textsLocated_convertDescriptionList (entries_of_formed hformed)
  | .table .. => exact textsLocated_convertTable hformed
  | .admonition _ _ _ (_ :: _) | .document _ | .header _ | .author _ | .container .. | .paragraph ..
  | .listItem _ | .listing .. | .tableCell _ | .image .. | .tableOfContents _ | .unhandled .. =>
    exact fun _ _ _ _ ↦ trivial

end Elements

/-! ### Elements of a text -/

section Trees

variable {settings : Settings} {text : Text}

/-- The texts of an element by itself are located in every window of its own in which it may have
come to its nodes. -/
def TextsPlaced (settings : Settings) (text : Text) (window : Window) (lastEnd : Option Position)
    (element : Element) (nodes : List Node) : Prop :=
  ∀ following, CameTo ((ofText settings.loosen text).convertElement
      (siblingWindow window element.lineno following lastEnd) element) nodes →
    TextsLocated settings text (siblingWindow window element.lineno following lastEnd) element nodes

theorem textsPlaced_of_formed :
    Gives (Formed settings.commentMarker (BeginIn settings.commentMarker text.lines))
      (fun _ _ _ _ ↦ True) (TextsPlaced settings text) := by
  rintro window lastEnd element nodes hend hformed - following ⟨s, s', hrun⟩
  have hstart := startColumn_siblingWindow_nonneg hend window element.lineno following
  exact textsLocated_convertElement hstart hformed s nodes s' hrun

/-- Throughout the located tree of every text, titles, items, labelled admonitions and cells have
their texts where a search from the start of their windows finds them. -/
theorem textsPlaced_of_locateText {root : Node}
    (h : (locateText settings.loosen text).1 = .ok root) :
    ∃ document head nodes, (Document.ofText settings.commentMarker text).1 = .ok document ∧
      root.children = head ++ nodes ∧
      TracedAll (ofText settings.loosen text) (TextsPlaced settings text)
        { minLine := 1, maxLine := text.lines.length } none document.blocks nodes :=
  traced_formed_of_locateText (fun _ _ _ _ ↦ yields_trivial _) textsPlaced_of_formed h

/-- Where the leaves in the located tree of a text start. -/
def leafStarts (text : Text) : Option (List Position) :=
  (locateText Settings.default.loosen text).1.toOption.map fun root ↦
    (root.nodes.filter (·.kind = .str)).map (·.location.start)

/-- A section with an item, an item with a box, an admonition and a cell with a specifier. -/
def introducedTexts : Text :=
  "== T\n\n1. a\n\n* [x] b\n\nNOTE: c\n\n|===\n2+|d\n|===".toList

theorem textsPlaced_introducedTexts :
    leafStarts introducedTexts = some [⟨1, 3⟩, ⟨3, 3⟩, ⟨5, 6⟩, ⟨7, 6⟩, ⟨10, 3⟩] ∧
    ∃ root, (locateText Settings.default.loosen introducedTexts).1 = .ok root ∧
      ∃ document head nodes,
        (Document.ofText Settings.default.commentMarker introducedTexts).1 = .ok document ∧
        root.children = head ++ nodes ∧
        TracedAll (ofText Settings.default.loosen introducedTexts)
          (TextsPlaced Settings.default introducedTexts)
          { minLine := 1, maxLine := introducedTexts.lines.length } none document.blocks nodes := by
  obtain ⟨root, hroot, -⟩ := exists_of_okAnd (show okAnd (locateText Settings.default.loosen
    introducedTexts).1 (fun _ ↦ true) = true by decide +kernel)
  exact ⟨by decide +kernel, root, hroot, textsPlaced_of_locateText hroot⟩

/-- Texts that are located in the markup before them: a title that is an equals sign, an item that
is its own number, one that is what its box holds, an admonition that starts its label, a cell that
is its own span, and an admonition in the delimiter of the block around it. -/
theorem located_in_markup :
    ((Line.classify Settings.default.commentMarker "== =".toList 1).shape =
        .sectionTitle "==".toList "=".toList ∧
      leafStarts "== =".toList = some [⟨1, 0⟩]) ∧
    ((Line.classify Settings.default.commentMarker "1. 1".toList 1).shape =
        .listItem .ordered "1.".toList "1".toList none ∧
      leafStarts "1. 1".toList = some [⟨1, 0⟩]) ∧
    ((Line.classify Settings.default.commentMarker "* [x] x".toList 1).shape =
        .listItem .unordered "*".toList "x".toList (some .checked) ∧
      leafStarts "* [x] x".toList = some [⟨1, 3⟩]) ∧
    ((Line.classify Settings.default.commentMarker "NOTE: N".toList 1).shape =
        .admonition "NOTE".toList "N".toList ∧
      leafStarts "NOTE: N".toList = some [⟨1, 0⟩]) ∧
    (Blocks.splitCellLine '|' "2+|2".toList =
        ([], [{ column := 3, spec := "2+".toList, content := "2".toList }]) ∧
      leafStarts "|===\n2+|2\n|===".toList = some [⟨2, 0⟩]) ∧
    (Line.classify Settings.default.commentMarker "NOTE: =".toList 2).shape =
        .admonition "NOTE".toList "=".toList ∧
      leafStarts "====\nNOTE: =\n====".toList = some [⟨1, 0⟩] := by
  decide +kernel

end Trees

end AsciidocSpans.Converter
