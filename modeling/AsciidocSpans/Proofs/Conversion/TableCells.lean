import AsciidocSpans.Proofs.Blocks.CellLayout
import AsciidocSpans.Proofs.Conversion.Leaves
import AsciidocSpans.Proofs.Conversion.WellPlaced

/-!
The cells of a table are located in reading order. Cells that are laid in the text are looked for
one after the other, each on its own line and from where the one before it was found to end; the
first match of a cell is never behind the place where the cell stands, so it ends before the place
of the next one (`placed_convertCell`). Rows hand on where they end, so what holds of the cells of
one row (`placed_convertCells`) holds of those of all rows (`placed_convertRows`), and the tree of
every table of a text without comments has all rows and all cells, in order
(`rowsLocated_of_convertElement`).
-/

set_option autoImplicit false
set_option relaxedAutoImplicit false

namespace AsciidocSpans

open Blocks (cellPassage)

/-- The line on which the text of a cell ends. -/
def TableCell.lastLine (cell : TableCell) : Int :=
  cell.info.lineno + cell.text.lines.length - 1

/-- What a cell says, on its line. -/
def TableCell.ownText (cell : TableCell) : OwnText :=
  ⟨cell.info.lineno, cell.text⟩

/-- A node stands for a cell: it holds the text of the cell and starts on its line. -/
structure IsCellNode (cell : TableCell) (node : Node) : Prop where
  kind : node.kind = .tableCell
  raw : node.raw = cell.text
  line : node.location.start.line = cell.info.lineno

/-- A node stands for a row: its children stand for the cells of the row, in order. -/
structure IsRowNode (row : List TableCell) (node : Node) : Prop where
  kind : node.kind = .tableRow
  cells : List.Forall₂ IsCellNode row node.children

/-- The rows among the children of some nodes. -/
def rowNodes (nodes : List Node) : List Node :=
  (nodes.flatMap (·.children)).filter fun node ↦ node.kind = .tableRow

/-- The nodes of a table have all its rows with all their cells, and no cell starts before the end
of a cell that comes earlier. -/
structure RowsLocated (rows : List (List TableCell)) (nodes : List Node) : Prop where
  tables : ∀ node ∈ nodes, node.kind = .table
  rows : List.Forall₂ IsRowNode rows (rowNodes nodes)
  order : ((rowNodes nodes).flatMap (·.children)).Pairwise fun first second ↦
    first.location.stop ≤ second.location.start

namespace Converter

variable {settings : LooseSettings} {marker text : Text}

section Cells

variable {lastEnd : Position} {others : List Passage} {maxLine : Int}

/-- Passages that are laid from a position on are laid from the column where a search on the line
of the first one starts. -/
theorem laid_from_columnAfter {lines : List Text} {passage : Passage}
    (h : LaidOut lines lastEnd (passage :: others)) (hzero : 0 ≤ lastEnd.column) :
    0 ≤ columnAfter (some lastEnd) passage.lineno ∧
      lastEnd ≤ ⟨passage.lineno, columnAfter (some lastEnd) passage.lineno⟩ ∧
      LaidOut lines ⟨passage.lineno, columnAfter (some lastEnd) passage.lineno⟩
        (passage :: others) := by
  obtain _ | ⟨⟨start, stop, hstart, hstop, hline, hoccupies⟩, hbehind⟩ := h
  obtain ⟨-, -, -, hcolumn⟩ := hoccupies.exists_index
  rw [columnAfter]
  split
  · next hsame =>
    have heq : (⟨passage.lineno, lastEnd.column⟩ : Position) = lastEnd := by
      rw [← hsame]
    rw [heq]
    exact ⟨hzero, Position.le_refl _,
      .cons ⟨start, stop, hstart, hstop, hline, hoccupies⟩ hbehind⟩
  · next hother =>
    have hbefore := Position.line_le_of_le hstart
    refine ⟨Int.le_refl 0, Position.le_of_line_lt (by dsimp only; omega),
      .cons ⟨start, stop, Or.inr ⟨hline.symm, hcolumn⟩, hstop, hline, hoccupies⟩ hbehind⟩

/-- The text of a cell that is laid out behind a position is found there, on its own line, and what
is laid out behind the cell is laid out behind what was found. -/
theorem exists_find?_of_laidOut (hmarker : settings.marker? = some marker)
    (hplain : ∀ line ∈ text.lines, ¬ marker <+: line) {cell : TableCell}
    (hlaid : LaidOut text.lines lastEnd (cellPassage cell :: others)) (hzero : 0 ≤ lastEnd.column)
    (hmax : cell.lastLine ≤ maxLine) :
    ∃ location, (ofText settings text).locator.find? false cell.text.lines
        (cellWindow maxLine lastEnd cell) = some location ∧
      location.start.line = cell.info.lineno ∧ lastEnd ≤ location.start ∧
      LaidOut text.lines location.stop others := by
  obtain ⟨hcolumn, hbehindLast, hlaidHere⟩ := laid_from_columnAfter hlaid hzero
  obtain _ | ⟨⟨start, stop, hstart, hstop, hline, hoccupies⟩, hbehind⟩ := hlaidHere
  have hkept : ∀ line ∈ (ofText settings text).locator.source.lines,
      ¬ (ofText settings text).locator.commentMarker <+: line := by
    rw [commentMarker_ofText hmarker]
    exact hplain
  have hfirst : (cellWindow maxLine lastEnd cell).minLine = start.line := hline.symm
  have hreach : stop.line ≤ (cellWindow maxLine lastEnd cell).maxLine := by
    have hlines := hoccupies.stop_line
    rw [TableCell.lastLine] at hmax
    dsimp only [cellPassage, cellWindow] at hline hlines ⊢
    omega
  have hfrom : (cellWindow maxLine lastEnd cell).startColumn ≤ start.column := by
    rw [Position.le_iff] at hstart
    dsimp only [cellPassage, cellWindow] at hline hstart ⊢
    omega
  obtain ⟨location, hfound, hfoundLine, hfoundColumn, hfoundStop⟩ :=
    Locator.exists_find?_of_occupies hkept hoccupies hfirst hreach hcolumn hfrom
  have hbegin : (⟨cell.info.lineno, columnAfter (some lastEnd) cell.info.lineno⟩ : Position) ≤
      location.start := Or.inr ⟨(hfoundLine.trans hline).symm, hfoundColumn⟩
  exact ⟨location, hfound, hfoundLine.trans hline, Position.le_trans hbehindLast hbegin,
    hbehind.mono (Position.le_trans hfoundStop hstop)⟩

/-- A cell whose text is found becomes a node at the span of its text. -/
theorem yields_convertCell_of_find? {cell : TableCell} {window : Window} {location : Location}
    (h : (ofText settings text).locator.find? false cell.text.lines window = some location) :
    Yields ((ofText settings text).convertCell window cell) fun result ↦
      ∃ range children, result = some (.mk .tableCell cell.text location range children) := by
  have hnode : ∀ children, Yields (do return some (← assembled (Node.located
      (Source.ofText text) .tableCell cell.text location children))) fun result ↦
      ∃ range children, result = some (.mk .tableCell cell.text location range children) := by
    intro children
    refine (yields_assembled fun node hnode ↦ hnode).bind fun node hnode ↦ yields_pure ?_
    obtain ⟨range, -, rfl⟩ := located_eq_ok hnode
    exact ⟨range, children, rfl⟩
  match cell with
  | ⟨info, content, style, colspan, inner⟩ =>
    rw [convertCell]
    refine (yields_find _ false content.lines _).bind fun found hfind ↦ ?_
    cases hfind.trans h
    dsimp only
    split
    · exact (yields_trivial _).bind fun children _ ↦ hnode children
    · exact (yields_trivial _).bind fun leaf _ ↦ hnode [leaf]

/-- A cell that is the first one of those that are laid behind a position is found behind it, and
the other ones are laid behind the place where it is found. -/
theorem placed_convertCell (hmarker : settings.marker? = some marker)
    (hplain : ∀ line ∈ text.lines, ¬ marker <+: line) {cell : TableCell}
    (hlaid : LaidOut text.lines lastEnd (cellPassage cell :: others)) (hzero : 0 ≤ lastEnd.column)
    (hmax : cell.lastLine ≤ maxLine) :
    Yields ((ofText settings text).convertCell (cellWindow maxLine lastEnd cell) cell) fun result ↦
      ∃ node, result = some node ∧ IsCellNode cell node ∧ lastEnd ≤ node.location.start ∧
        node.location.start ≤ node.location.stop ∧ 0 ≤ node.location.stop.column ∧
        LaidOut text.lines node.location.stop others := by
  obtain ⟨location, hfound, hline, hafter, hbehind⟩ :=
    exists_find?_of_laidOut hmarker hplain hlaid hzero hmax
  have hspan := Locator.hasSpan_of_find? hfound
  intro log result further hrun
  obtain ⟨range, children, rfl⟩ := yields_convertCell_of_find? hfound log result further hrun
  exact ⟨_, rfl, ⟨rfl, rfl, hline⟩, hafter, hspan.ordered, hspan.stop.2.1, hbehind⟩

/-- Some nodes stand for cells, each behind the one before it, from a position on, and other
passages are laid behind them. -/
structure CellsPlaced (text : Text) (lastEnd high : Position) (cells : List TableCell)
    (others : List Passage) (nodes : List Node) : Prop where
  forall₂ : List.Forall₂ IsCellNode cells nodes
  placed : Placed lastEnd high (cells.map (·.ownText)) nodes
  columns : ∀ node ∈ nodes, 0 ≤ node.location.stop.column
  behind : LaidOut text.lines high others

theorem placed_convertCells (hmarker : settings.marker? = some marker)
    (hplain : ∀ line ∈ text.lines, ¬ marker <+: line) (cells : List TableCell)
    (hlaid : LaidOut text.lines lastEnd (cells.map cellPassage ++ others))
    (hzero : 0 ≤ lastEnd.column) (hmax : ∀ cell ∈ cells, cell.lastLine ≤ maxLine) :
    Yields ((ofText settings text).convertCells maxLine lastEnd cells) fun nodes ↦
      ∃ high, CellsPlaced text lastEnd high cells others nodes := by
  induction cells generalizing lastEnd with
  | nil => exact yields_pure ⟨lastEnd, .nil, .nil (Position.le_refl _), nofun, hlaid⟩
  | cons cell rest ih =>
    rw [convertCells]
    refine (placed_convertCell hmarker hplain hlaid hzero (hmax cell List.mem_cons_self)).bind
      fun result hresult ↦ ?_
    obtain ⟨node, rfl, hnode, hafter, hordered, hcolumn, hbehind⟩ := hresult
    refine (ih hbehind hcolumn fun other hother ↦ hmax other (List.mem_cons_of_mem _ hother)).bind
      fun nodes ⟨high, h⟩ ↦ yields_pure ⟨high, .cons hnode h.forall₂, ?_,
        List.forall_mem_cons.mpr ⟨hcolumn, h.columns⟩, h.behind⟩
    exact .cons hnode.raw hnode.line hafter hordered h.placed

end Cells

section Rows

variable {others : List Passage} {maxLine : Int}

/-- Where what was located last ended; before all lines if nothing was. -/
def endedAt (lastEnd : Option Position) : Position :=
  lastEnd.getD ⟨0, 0⟩

theorem columnAfter_some_endedAt (lastEnd : Option Position) (lineno : Int) :
    columnAfter (some (endedAt lastEnd)) lineno = columnAfter lastEnd lineno := by
  cases lastEnd with
  | none => exact ite_self 0
  | some stop => rfl

/-- Some nodes stand for rows, with cells that stand each behind the one before it, from where what
was located last ended to where the last row ends, and other passages are laid behind them. -/
structure RowsPlaced (text : Text) (lastEnd : Option Position) (rows : List (List TableCell))
    (others : List Passage) (result : List Node × Option Position) : Prop where
  forall₂ : List.Forall₂ IsRowNode rows result.1
  placed : Placed (endedAt lastEnd) (endedAt result.2) (rows.flatten.map (·.ownText))
    (result.1.flatMap (·.children))
  column : 0 ≤ (endedAt result.2).column
  behind : LaidOut text.lines (endedAt result.2) others

/-- The node of a row ends where one of its cells does, and no cell ends later. -/
theorem exists_stop_of_around {cells : List Node} {row : Node}
    (h : Node.around (Source.ofText text) .tableRow [] cells = .ok row) :
    ∃ last ∈ cells, row.location.stop = last.location.stop ∧
      ∀ cell ∈ cells, cell.location.stop ≤ row.location.stop := by
  obtain ⟨location, range, hcovers, -, rfl⟩ := around_eq_ok h
  cases cells with
  | nil => cases hcovers
  | cons first rest =>
    cases hcovers
    obtain ⟨span, hspan, hstop⟩ :=
      Location.exists_stop_unionAll first.location (rest.map (·.location))
    obtain ⟨last, hlast, rfl⟩ := List.mem_map.mp (show span ∈ (first :: rest).map _ from hspan)
    exact ⟨last, hlast, hstop,
      fun cell hcell ↦ (Location.within_unionAll (List.mem_map_of_mem hcell)).2⟩

theorem placed_convertRows (hmarker : settings.marker? = some marker)
    (hplain : ∀ line ∈ text.lines, ¬ marker <+: line) {rows : List (List TableCell)}
    (hrows : ∀ row ∈ rows, row ≠ []) (lastEnd : Option Position)
    (hlaid : LaidOut text.lines (endedAt lastEnd) (rows.flatten.map cellPassage ++ others))
    (hzero : 0 ≤ (endedAt lastEnd).column)
    (hmax : ∀ row ∈ rows, ∀ cell ∈ row, cell.lastLine ≤ maxLine) :
    Yields ((ofText settings text).convertRows maxLine lastEnd rows)
      (RowsPlaced text lastEnd rows others) := by
  induction rows generalizing lastEnd with
  | nil => exact yields_pure ⟨.nil, .nil (Position.le_refl _), hzero, hlaid⟩
  | cons row rest ih =>
    obtain ⟨first, more, rfl⟩ := List.exists_cons_of_ne_nil (hrows row List.mem_cons_self)
    rw [List.flatten_cons, List.map_append, List.append_assoc, List.map_cons, List.cons_append]
      at hlaid
    obtain ⟨hcolumn, hafter, hhere⟩ := laid_from_columnAfter hlaid hzero
    rw [columnAfter_some_endedAt] at hcolumn hafter hhere
    rw [convertRows]
    refine (placed_convertCells hmarker hplain (first :: more) hhere hcolumn
      (hmax _ List.mem_cons_self)).bind fun cells ⟨high, hcells⟩ ↦ ?_
    have hsome : cells.isEmpty = false := by
      obtain _ | ⟨_, _⟩ := hcells.forall₂
      rfl
    rw [wrapped, hsome]
    refine Yields.bind (Q := fun nodes ↦ ∃ node, nodes = [node] ∧
        Node.around (Source.ofText text) .tableRow [] cells = .ok node)
      ((yields_assembled fun node hnode ↦ hnode).bind fun node hnode ↦
        yields_pure ⟨node, rfl, hnode⟩) fun nodes hnodes ↦ ?_
    obtain ⟨node, rfl, hnode⟩ := hnodes
    obtain ⟨last, hlast, hstop, hcellsStop⟩ := exists_stop_of_around hnode
    have hplaced := hcells.placed.of_stop_le (hstop ▸ hcells.placed.le_stop last hlast) hcellsStop
    have hbehind := hcells.behind.mono (hcells.placed.stop_le last hlast)
    have hzeroLast := hcells.columns last hlast
    rw [← hstop] at hbehind hzeroLast
    obtain ⟨location, range, -, -, rfl⟩ := around_eq_ok hnode
    refine (ih (fun other hother ↦ hrows other (List.mem_cons_of_mem _ hother))
      (some location.stop) hbehind hzeroLast
      fun other hother ↦ hmax other (List.mem_cons_of_mem _ hother)).bind
        fun result hresult ↦ yields_pure ⟨.cons ⟨rfl, hcells.forall₂⟩ hresult.forall₂, ?_,
          hresult.column, hresult.behind⟩
    rw [List.flatten_cons, List.map_append]
    exact (hplaced.mono_low hafter).append hresult.placed

end Rows

section Tables

/-- The rows are all there is among the children of a table besides its title and its attributes. -/
theorem filter_tableChildren {title list : Option Node} {rows : List (List TableCell)}
    {nodes : List Node} (htitle : ∀ node ∈ title, node.kind = .blockTitle)
    (hlist : ∀ node ∈ list, node.kind = .attributeList)
    (hrows : List.Forall₂ IsRowNode rows nodes) :
    (title.toList ++ list.toList ++ nodes).filter (fun node ↦ node.kind = .tableRow) = nodes := by
  have hnone : ∀ {maybe : Option Node} {kind : NodeKind}, kind ≠ .tableRow →
      (∀ node ∈ maybe, node.kind = kind) →
      maybe.toList.filter (fun node ↦ node.kind = .tableRow) = [] := by
    intro maybe kind hkind hmaybe
    refine List.filter_eq_nil_iff.mpr fun node hnode ↦ ?_
    rw [decide_eq_true_eq, hmaybe node (Option.mem_toList.mp hnode)]
    exact hkind
  have hall : ∀ node ∈ nodes, node.kind = .tableRow := by
    intro node hnode
    obtain ⟨row, -, hrow⟩ := exists_of_forall₂_of_mem hrows.flip hnode
    exact hrow.kind
  rw [List.filter_append, List.filter_append, hnone (by decide) htitle, hnone (by decide) hlist,
    List.nil_append, List.nil_append]
  exact List.filter_eq_self.mpr fun node hnode ↦ decide_eq_true (hall node hnode)

/-- The tree of a table in a text without comment lines, whose cells all end before a window does,
has all rows and all cells of the table, each cell on its own line, and no cell starts before the
end of a cell that comes earlier. -/
theorem rowsLocated_of_convertElement {document : Document} {element : Element} {info : ElementInfo}
    {columns : Nat} {headRows bodyRows : List (List TableCell)} {window : Window}
    {nodes : List Node} {log further : List LogRecord}
    (hmarker : settings.marker? = some marker) (hplain : ∀ line ∈ text.lines, ¬ marker <+: line)
    (hread : (Document.ofText marker text).1 = .ok document) (helement : element ∈ document.blocks)
    (htable : element.Holds (.table info columns headRows bodyRows))
    (hwindow : ∀ row ∈ headRows ++ bodyRows, ∀ cell ∈ row, cell.lastLine ≤ window.maxLine)
    (h : (ofText settings text).convertElement window (.table info columns headRows bodyRows) log =
      .ok nodes further) : RowsLocated (headRows ++ bodyRows) nodes := by
  obtain ⟨hlaid, hrows⟩ := Blocks.laid_cells_of_ofText hread element helement _ htable _ _ _ _ rfl
  refine (show Yields _ (RowsLocated (headRows ++ bodyRows)) from ?_) log nodes further h
  rw [convertElement]
  refine (yields_kind_convertBlockTitle info window).bind fun title htitle ↦
    (yields_kind_convertTableAttributes info.attributes window).bind fun list hlist ↦ ?_
  rw [List.flatten_append, List.map_append, ← List.append_nil (bodyRows.flatten.map _)] at hlaid
  refine (placed_convertRows hmarker hplain (fun row hrow ↦ hrows row (List.mem_append_left _ hrow))
    none hlaid (Int.le_refl 0) fun row hrow ↦
      hwindow row (List.mem_append_left _ hrow)).bind fun first hhead ↦ ?_
  obtain ⟨head, headEnd⟩ := first
  refine (placed_convertRows hmarker hplain
    (fun row hrow ↦ hrows row (List.mem_append_right _ hrow)) _ hhead.behind hhead.column
    fun row hrow ↦
      hwindow row (List.mem_append_right _ hrow)).bind fun second hbody ↦ ?_
  obtain ⟨body, bodyEnd⟩ := second
  have hall := List.rel_append hhead.forall₂ hbody.forall₂
  have hchildren := filter_tableChildren htitle hlist hall
  have hplaced := hhead.placed.append hbody.placed
  rw [← List.flatMap_append] at hplaced
  change Yields ((ofText settings text).wrapped .table
    (title.toList ++ list.toList ++ head ++ body)) _
  rw [wrapped, List.append_assoc _ head]
  split
  · next hempty =>
    have hnil := List.isEmpty_iff.mp hempty
    rw [hnil] at hchildren
    rw [← hchildren] at hall
    exact yields_pure ⟨by simp, hall, .nil⟩
  · refine (yields_assembled fun node hnode ↦ hnode).bind fun node hnode ↦ yields_pure ?_
    obtain ⟨location, range, -, -, rfl⟩ := around_eq_ok hnode
    have hrowNodes : rowNodes [.mk .table [] location range
        (title.toList ++ list.toList ++ (head ++ body))] = head ++ body := by
      rw [rowNodes, List.flatMap_singleton]
      exact hchildren
    refine ⟨fun node hnode ↦ by rw [List.mem_singleton.mp hnode]; rfl, ?_, ?_⟩
    · rw [hrowNodes]
      exact hall
    · rw [hrowNodes]
      exact hplaced.pairwise

/-- Two rows of cells that repeat each other: the second cell is empty on its own line and goes on
two lines below, where the second row starts. -/
def repeatedCells : Text :=
  "|===\n|a |\n\na b|a |a\n|===".toList

/-- Whether a document is just a table whose cells end on the fourth line of a text at the latest,
and the table is converted. -/
def convertsTable (text : Text) (document : Document) : Bool :=
  match document.blocks with
  | [.table info columns headRows bodyRows] =>
    ((headRows ++ bodyRows).all fun row ↦ row.all fun cell ↦ decide (cell.lastLine ≤ 4)) &&
      match (ofText Settings.default.loosen text).convertElement
          { minLine := 1, maxLine := 4 } (.table info columns headRows bodyRows) [] with
      | .ok _ _ => true
      | .error _ _ => false
  | _ => false

theorem rowsLocated_repeatedCells :
    (∀ line ∈ repeatedCells.lines, ¬ "//".toList <+: line) ∧
    ∃ document info columns headRows bodyRows nodes log,
      (Document.ofText "//".toList repeatedCells).1 = .ok document ∧
      document.blocks = [.table info columns headRows bodyRows] ∧
      (∀ row ∈ headRows ++ bodyRows, ∀ cell ∈ row, cell.lastLine ≤ 4) ∧
      (ofText Settings.default.loosen repeatedCells).convertElement { minLine := 1, maxLine := 4 }
        (.table info columns headRows bodyRows) [] = .ok nodes log ∧
      RowsLocated (headRows ++ bodyRows) nodes := by
  have hplain : ∀ line ∈ repeatedCells.lines, ¬ "//".toList <+: line := by decide +kernel
  obtain ⟨document, hread, htest⟩ := exists_of_okAnd (show okAnd
    (Document.ofText "//".toList repeatedCells).1 (convertsTable repeatedCells) = true
      by decide +kernel)
  rw [convertsTable] at htest
  split at htest
  · next info columns headRows bodyRows hblocks =>
    rw [Bool.and_eq_true] at htest
    obtain ⟨hwindow, hconverted⟩ := htest
    simp only [List.all_eq_true, decide_eq_true_eq] at hwindow
    split at hconverted
    · next nodes log hnodes =>
      have hmem : Element.table info columns headRows bodyRows ∈ document.blocks := by
        rw [hblocks]
        exact List.mem_cons_self
      exact ⟨hplain, document, info, columns, headRows, bodyRows, nodes, log, hread, hblocks,
        hwindow, hnodes, rowsLocated_of_convertElement rfl hplain hread hmem .self hwindow hnodes⟩
    · cases hconverted
  · cases htest

end Tables

end Converter

end AsciidocSpans
