import AsciidocSpans.Proofs.Blocks.Running
import AsciidocSpans.Proofs.Conversion.Leaves
import AsciidocSpans.Proofs.Conversion.WellPlaced

/-!
Text that is written is located. With settings of the right types no step of a conversion fails over
running text; what each one comes to is said with `Succeeds`. `Located` says of some nodes that they
show some own texts, in order between two positions, and that none of them ends beyond the second
one. It goes from nodes to those behind them (`Located.append`), from nodes to the node around them
(`succeeds_wrapped`), and past ids and block titles, which show nothing of the kind (`Aside`).

`Reached` relates the end of the sibling located last to the position from which the next one may
stand; then the window of that sibling opens on its line and no later than at its column
(`exists_opens_siblingWindow`), and it is found there (`succeeds_find_of_written`).
-/

set_option autoImplicit false
set_option relaxedAutoImplicit false

namespace AsciidocSpans.Converter

open Blocks

variable {settings : Settings} {text : Text}

section Nodes

variable {kind : NodeKind} {raw : Text} {location : Location} {children : List Node}

/-- A node that shows nothing that an element says, and ends on a line or before it. -/
structure Aside (text : Text) (line : Int) (node : Node) : Prop where
  span : (Source.ofText text).HasSpan node.location
  stop : node.location.stop.line ≤ line
  leaf : node.kind ≠ .str
  leaves : node.ownLeaves = []

/-- Nodes that show some own texts, in order between two positions. -/
structure Located (text : Text) (low high : Position) (owns : List OwnText) (nodes : List Node) :
    Prop where
  spans : ∀ node ∈ nodes, (Source.ofText text).HasSpan node.location
  stops : ∀ node ∈ nodes, node.location.stop ≤ high
  placed : Placed low high owns (Node.ownLeavesOf nodes)

/-- A span that exists has offsets. -/
theorem exists_range_of_hasSpan (h : (Source.ofText text).HasSpan location) :
    ∃ range, (Source.ofText text).range? location = some range := by
  obtain ⟨first, hfirst, -⟩ := Source.exists_offset_of_hasPosition h.start
  obtain ⟨last, hlast, -⟩ := Source.exists_offset_of_hasPosition h.stop
  exact ⟨(first, last), Source.range?_eq_some_iff.mpr ⟨hfirst, hlast⟩⟩

theorem succeeds_assembled {α : Type} {built : Except AssemblyError α} {Q : α → Prop}
    (h : ∃ result, built = .ok result ∧ Q result) : Succeeds (assembled built) Q := by
  obtain ⟨result, rfl, hresult⟩ := h
  exact succeeds_pure hresult

theorem exists_located (h : (Source.ofText text).HasSpan location) (kind : NodeKind) (raw : Text)
    (children : List Node) :
    ∃ range, Node.located (Source.ofText text) kind raw location children =
      .ok (.mk kind raw location range children) := by
  obtain ⟨range, hrange⟩ := exists_range_of_hasSpan h
  refine ⟨range, ?_⟩
  rw [Node.located, hrange]

/-- The node around a leaf that holds its text. -/
theorem exists_aroundText (h : (Source.ofText text).HasSpan location) (kind : NodeKind)
    (raw : Text) :
    ∃ range, Node.aroundText (Source.ofText text) kind raw location =
      .ok (.mk kind raw location range [.mk .str raw location range []]) := by
  obtain ⟨range, hrange⟩ := exists_range_of_hasSpan h
  refine ⟨range, ?_⟩
  rw [Node.aroundText, Node.str, Node.located, hrange]
  change Node.located _ _ _ _ _ = _
  rw [Node.located, hrange]

/-- The span that covers some nodes ends where one of them ends. -/
theorem exists_coveringSpan (hchildren : children ≠ [])
    (h : ∀ child ∈ children, (Source.ofText text).HasSpan child.location) :
    ∃ location, Node.coveringSpan (children.map (·.location)) = .ok location ∧
      (Source.ofText text).HasSpan location ∧
      ∃ child ∈ children, location.stop = child.location.stop := by
  cases children with
  | nil => exact absurd rfl hchildren
  | cons first rest =>
    have hspan : Node.coveringSpan ((first :: rest).map (·.location)) =
        .ok (first.location.unionAll (rest.map (·.location))) := rfl
    refine ⟨_, hspan, hasSpan_of_coveringSpan hspan h, ?_⟩
    obtain ⟨location, hlocation, hstop⟩ :=
      Location.exists_stop_unionAll first.location (rest.map (·.location))
    obtain ⟨child, hchild, rfl⟩ :=
      List.mem_map.mp (show location ∈ (first :: rest).map (·.location) from hlocation)
    exact ⟨child, hchild, hstop⟩

/-- The node around some children. -/
theorem exists_around (hchildren : children ≠ [])
    (h : ∀ child ∈ children, (Source.ofText text).HasSpan child.location) (kind : NodeKind)
    (raw : Text) :
    ∃ location range, Node.around (Source.ofText text) kind raw children =
        .ok (.mk kind raw location range children) ∧
      (Source.ofText text).HasSpan location ∧
      ∃ child ∈ children, location.stop = child.location.stop := by
  obtain ⟨location, hcovers, hspan, hstop⟩ := exists_coveringSpan hchildren h
  obtain ⟨range, hnode⟩ := exists_located hspan kind raw children
  refine ⟨location, range, ?_, hspan, hstop⟩
  rw [Node.around, hcovers]
  exact hnode

end Nodes

section Searches

variable {segments : List Text} {window : Window} {own : Nat}

/-- Settings of the right types tell comments from other lines. -/
theorem needMarker_loosen (asked : Bool) (log : List LogRecord) :
    (ofText settings.loosen text).needMarker asked log = .ok () log := by
  have hmarker : settings.loosen.marker?.isNone = false := rfl
  rw [needMarker]
  change (if (asked && settings.loosen.marker?.isNone) = true then _ else _ :
    Conversion Unit) log = _
  rw [hmarker, Bool.and_false]
  rfl

theorem succeeds_needMarker (asked : Bool) :
    Succeeds ((ofText settings.loosen text).needMarker asked) fun _ ↦ True :=
  fun log ↦ ⟨(), log, needMarker_loosen asked log, trivial⟩

/-- With settings of the right types a search cannot fail. -/
theorem succeeds_find (verbatim : Bool) (segments : List Text) (window : Window) :
    Succeeds ((ofText settings.loosen text).find verbatim segments window) fun found ↦
      found = (ofText settings.loosen text).locator.find? verbatim segments window := by
  rw [find]
  exact (succeeds_needMarker _).bind fun _ _ ↦ succeeds_pure rfl

theorem succeeds_report (channel : LogChannel) (message : String) :
    Succeeds (report channel message) fun _ ↦ True :=
  fun log ↦ ⟨(), log ++ [{ channel, level := .debug, message }], rfl, trivial⟩

/-- A search before a window on a line that is no comment ends no later than that line. -/
theorem succeeds_locateBefore (hkept : Kept settings.commentMarker text.lines own)
    (hwindow : window.minLine = own + 1) (segment : Text) (lookback : Int) :
    Succeeds ((ofText settings.loosen text).locateBefore [segment] window (.integer lookback))
      fun found ↦ ∀ location ∈ found, (Source.ofText text).HasSpan location ∧
        location.stop.line ≤ own + 1 := by
  rw [locateBefore]
  refine Succeeds.bind (Q := fun _ ↦ True) (succeeds_pure trivial) fun highest _ ↦
    (succeeds_needMarker _).bind fun _ _ ↦ ?_
  split
  · next location hlocation =>
    refine succeeds_pure fun found hfound ↦ ?_
    cases hfound
    obtain ⟨line, -, -, hline⟩ := Locator.exists_find?_of_findBackTo? hlocation
    exact ⟨Locator.hasSpan_of_find? hline,
      Locator.stop_line_le_of_find? hline hkept (by rw [← hwindow]; exact Int.le_refl _)⟩
  · exact (succeeds_report _ _).bind fun _ _ ↦ succeeds_pure nofun

/-- Text that was found becomes a node beside what elements say. -/
theorem aside_aroundText {kind : NodeKind} {raw : Text} {location : Location} {range : Int × Int}
    {line : Int} (hkind : kind.showsOwnText = false) (hstr : kind ≠ .str)
    (hspan : (Source.ofText text).HasSpan location) (hstop : location.stop.line ≤ line) :
    Aside text line (.mk kind raw location range [.mk .str raw location range []]) where
  span := hspan
  stop := hstop
  leaf := hstr
  leaves := by
    rw [Node.ownLeaves_mk, hkind]
    change Node.ownLeaves _ ++ [] = []
    rw [Node.ownLeaves_str]
    rfl

/-- What is found before a window on a line becomes a node that ends no later than that line. -/
theorem succeeds_aside (kind : NodeKind) (raw : Text) (hkind : kind.showsOwnText = false)
    (hstr : kind ≠ .str) (hkept : Kept settings.commentMarker text.lines own)
    (hwindow : window.minLine = own + 1) (lookback : Int) :
    Succeeds (do
      match ← (ofText settings.loosen text).locateBefore [raw] window (.integer lookback) with
      | some location =>
        return some (← assembled (Node.aroundText (Source.ofText text) kind raw location))
      | none => return none) fun result ↦ ∀ node ∈ result, Aside text (own + 1) node := by
  refine (succeeds_locateBefore hkept hwindow raw lookback).bind fun found hfound ↦ ?_
  cases found with
  | none => exact succeeds_pure nofun
  | some location =>
    obtain ⟨hspan, hstop⟩ := hfound location rfl
    obtain ⟨range, hnode⟩ := exists_aroundText hspan kind raw
    refine (succeeds_assembled (Q := Aside text (own + 1))
      ⟨_, hnode, aside_aroundText hkind hstr hspan hstop⟩).bind fun node hnode ↦ ?_
    refine succeeds_pure fun other hother ↦ ?_
    cases hother
    exact hnode

/-- The id of a block stands beside what elements say. -/
theorem succeeds_convertId (hkept : Kept settings.commentMarker text.lines own)
    (hwindow : window.minLine = own + 1) (id : Option Text) :
    Succeeds ((ofText settings.loosen text).convertId id window)
      fun result ↦ ∀ node ∈ result, Aside text (own + 1) node := by
  match id with
  | none => exact succeeds_pure nofun
  | some [] => exact succeeds_pure nofun
  | some (c :: rest) =>
    exact succeeds_aside .identifier (c :: rest) rfl nofun hkept hwindow settings.idLookback

/-- The title of a block stands beside what elements say. -/
theorem succeeds_convertBlockTitle (hkept : Kept settings.commentMarker text.lines own)
    (hwindow : window.minLine = own + 1) (info : ElementInfo) :
    Succeeds ((ofText settings.loosen text).convertBlockTitle info window)
      fun result ↦ ∀ node ∈ result, Aside text (own + 1) node := by
  rw [convertBlockTitle]
  cases info.title with
  | none => exact succeeds_pure (by simp)
  | some title =>
    cases title with
    | nil => exact succeeds_pure (by simp)
    | cons c rest =>
      exact succeeds_aside .blockTitle ('.' :: c :: rest) rfl (by simp) hkept hwindow
        settings.titleLookback

end Searches

section Arrangement

variable {low middle high : Position} {owns further : List OwnText} {nodes others : List Node}
  {kind : NodeKind} {raw : Text} {location : Location} {range : Int × Int}

theorem located_nil (h : low ≤ high) : Located text low high [] [] where
  spans := nofun
  stops := nofun
  placed := .nil h

theorem Located.append (h : Located text low middle owns nodes)
    (hothers : Located text middle high further others) :
    Located text low high (owns ++ further) (nodes ++ others) where
  spans := by
    intro node hnode
    rcases List.mem_append.mp hnode with hmem | hmem
    · exact h.spans node hmem
    · exact hothers.spans node hmem
  stops := by
    intro node hnode
    rcases List.mem_append.mp hnode with hmem | hmem
    · exact Position.le_trans (h.stops node hmem) hothers.placed.le
    · exact hothers.stops node hmem
  placed := by
    rw [Node.ownLeavesOf_append]
    exact h.placed.append hothers.placed

theorem Located.mono_high (h : Located text low middle owns nodes) (hle : middle ≤ high) :
    Located text low high owns nodes where
  spans := h.spans
  stops := fun node hnode ↦ Position.le_trans (h.stops node hnode) hle
  placed := h.placed.mono_high hle

theorem Located.mono_low (h : Located text middle high owns nodes) (hle : low ≤ middle) :
    Located text low high owns nodes where
  spans := h.spans
  stops := h.stops
  placed := h.placed.mono_low hle

theorem ownLeavesOf_asides {asides : List Node} {line : Int}
    (h : ∀ node ∈ asides, Aside text line node) : Node.ownLeavesOf asides = [] :=
  List.flatMap_eq_nil_iff.mpr fun node hnode ↦ (h node hnode).leaves

/-- Nodes beside what elements say, before other nodes. -/
theorem Located.behind_asides {asides : List Node} {line : Int}
    (h : Located text low high owns nodes) (hasides : ∀ node ∈ asides, Aside text line node)
    (hline : line < high.line) : Located text low high owns (asides ++ nodes) where
  spans := by
    intro node hnode
    rcases List.mem_append.mp hnode with hmem | hmem
    · exact (hasides node hmem).span
    · exact h.spans node hmem
  stops := by
    intro node hnode
    rcases List.mem_append.mp hnode with hmem | hmem
    · have hstop := (hasides node hmem).stop
      exact Position.le_of_line_lt (Int.lt_of_le_of_lt hstop hline)
    · exact h.stops node hmem
  placed := by
    rw [Node.ownLeavesOf_append, ownLeavesOf_asides hasides]
    exact h.placed

/-- A node around some nodes shows what they show. -/
theorem Located.inside (h : Located text low high owns nodes) (hkind : kind.showsOwnText = false)
    (hspan : (Source.ofText text).HasSpan location) (hstop : location.stop ≤ high) :
    Located text low high owns [.mk kind raw location range nodes] where
  spans := by
    intro node hnode
    rw [List.mem_singleton.mp hnode]
    exact hspan
  stops := by
    intro node hnode
    rw [List.mem_singleton.mp hnode]
    exact hstop
  placed := by
    rw [Node.ownLeavesOf, List.flatMap_singleton, Node.ownLeaves_mk, hkind]
    exact h.placed

/-- A title or a paragraph shows its own text, whatever else there is beside it. -/
theorem located_own {asides : List Node} {line : Int} {outer : Location} {inner : Int × Int}
    (hkind : kind.showsOwnText = true) (hasides : ∀ node ∈ asides, Aside text line node)
    (hspan : (Source.ofText text).HasSpan location) (hlow : low ≤ location.start)
    (hhigh : location.stop ≤ high) (houter : (Source.ofText text).HasSpan outer)
    (hstop : outer.stop ≤ high) :
    Located text low high [⟨location.start.line, raw⟩]
      [.mk kind raw outer range (asides ++ [.mk .str raw location inner []])] where
  spans := by
    intro node hnode
    rw [List.mem_singleton.mp hnode]
    exact houter
  stops := by
    intro node hnode
    rw [List.mem_singleton.mp hnode]
    exact hstop
  placed := by
    have hnone : asides.filter (·.kind == .str) = [] :=
      List.filter_eq_nil_iff.mpr fun node hnode heq ↦
        (hasides node hnode).leaf (beq_iff_eq.mp heq)
    rw [Node.ownLeavesOf, List.flatMap_singleton, Node.ownLeaves_mk, hkind, if_pos rfl,
      List.filter_append, hnone, Node.ownLeavesOf_append, ownLeavesOf_asides hasides]
    change Placed low high _ ([_] ++ (Node.ownLeaves _ ++ []))
    rw [Node.ownLeaves_str]
    exact .cons rfl rfl hlow hspan.ordered (.nil hhigh)

/-- The node around its text shows it. -/
theorem located_aroundText (hkind : kind.showsOwnText = true)
    (hspan : (Source.ofText text).HasSpan location) (hlow : low ≤ location.start)
    (hhigh : location.stop ≤ high) :
    Located text low high [⟨location.start.line, raw⟩]
      [.mk kind raw location range [.mk .str raw location range []]] := by
  have hasides : ∀ node ∈ ([] : List Node), Aside text 0 node := nofun
  exact located_own hkind hasides hspan hlow hhigh hspan hhigh

/-- A position is where the only one of some nodes ends, or where a line starts. -/
def Tight (high : Position) (nodes : List Node) : Prop :=
  high.column = 0 ∨ ∃ node, nodes = [node] ∧ node.location.stop = high

/-- A node that covers some nodes shows what they show. -/
theorem Located.exists_around (h : Located text low high owns nodes)
    (hkind : kind.showsOwnText = false) (hnodes : nodes ≠ []) (raw : Text) :
    ∃ node, Node.around (Source.ofText text) kind raw nodes = .ok node ∧
      Located text low high owns [node] ∧ (Tight high nodes → Tight high [node]) := by
  obtain ⟨location, range, hnode, hspan, child, hchild, hstop⟩ :=
    Converter.exists_around hnodes h.spans kind raw
  refine ⟨_, hnode, h.inside hkind hspan ?_, fun htight ↦ ?_⟩
  · rw [hstop]
    exact h.stops child hchild
  · rcases htight with hcolumn | ⟨only, heq, hhigh⟩
    · exact Or.inl hcolumn
    · rw [heq] at hchild
      rw [List.mem_singleton.mp hchild, hhigh] at hstop
      exact Or.inr ⟨_, rfl, hstop⟩

/-- Nodes show the same when another node is put around them. -/
theorem succeeds_wrapped (hkind : kind.showsOwnText = false)
    (h : Located text low high owns nodes) :
    Succeeds ((ofText settings.loosen text).wrapped kind nodes) fun outer ↦
      Located text low high owns outer ∧ (Tight high nodes → Tight high outer) := by
  rw [wrapped]
  by_cases hnil : nodes = []
  · rw [hnil] at h ⊢
    exact succeeds_pure ⟨h, id⟩
  · rw [if_neg (mt List.isEmpty_iff.mp hnil)]
    exact (succeeds_assembled (h.exists_around hkind hnil [])).bind fun _ houter ↦
      succeeds_pure houter

/-- Nodes show the same when another node is put around them and their title. -/
theorem succeeds_wrappedWithTitle {window : Window} {own : Nat}
    (hkept : Kept settings.commentMarker text.lines own) (hwindow : window.minLine = own + 1)
    (hline : own + 1 < high.line) (hkind : kind.showsOwnText = false)
    (h : Located text low high owns nodes) (info : ElementInfo) :
    Succeeds ((ofText settings.loosen text).wrappedWithTitle kind info nodes window)
      fun outer ↦ Located text low high owns outer := by
  rw [wrappedWithTitle]
  by_cases hnil : nodes = []
  · rw [hnil] at h ⊢
    exact succeeds_pure h
  · rw [if_neg (mt List.isEmpty_iff.mp hnil)]
    refine (succeeds_convertBlockTitle hkept hwindow info).bind fun title htitle ↦ ?_
    have hasides : ∀ node ∈ title.toList, Aside text (own + 1) node :=
      fun node hnode ↦ htitle node (Option.mem_toList.mp hnode)
    have hboth : title.toList ++ nodes ≠ [] := fun heq ↦ hnil (List.append_eq_nil_iff.mp heq).2
    have hall := (h.behind_asides hasides hline).exists_around hkind hboth []
    exact (succeeds_assembled hall).bind fun _ houter ↦ succeeds_pure houter.1

end Arrangement

section Windows

variable {window : Window} {own column start stop : Nat} {low : Position}
  {lastEnd : Option Position}

/-- A window that opens on a line, at a column, and reaches as far as another line. -/
structure Opens (window : Window) (own start stop : Nat) : Prop where
  minLine : window.minLine = own + 1
  maxLine : (stop : Int) ≤ window.maxLine
  column : window.startColumn = start
  narrows : window.narrows = true

/-- The sibling located last ends before a position, and just there unless a line starts there. -/
structure Reached (lastEnd : Option Position) (low : Position) : Prop where
  ends : ∀ stop ∈ lastEnd, 0 ≤ stop.column ∧ stop ≤ low
  tight : low.column = 0 ∨ lastEnd = some low

theorem reached_none {index : Nat} : Reached none (lineStart index) :=
  ⟨nofun, Or.inl rfl⟩

/-- The window of a sibling opens on its own line, no later than at its column and no earlier than
where its turn comes. -/
theorem exists_opens_siblingWindow (hreached : Reached lastEnd low)
    (hlow : low ≤ ⟨own + 1, (column : Nat)⟩) (hnarrows : window.narrows = true) {following : Int}
    (hown : (own : Int) + 1 ≤ following) (hstop : (stop : Int) ≤ following) :
    ∃ start, Opens (siblingWindow window (own + 1) following lastEnd) own start stop ∧
      (siblingWindow window (own + 1) following lastEnd).maxLine = following ∧
      start ≤ column ∧ low ≤ ⟨own + 1, (start : Nat)⟩ := by
  obtain ⟨lowLine, lowColumn⟩ := low
  rw [siblingWindow, if_pos hnarrows]
  cases lastEnd with
  | none =>
    have hcolumn := hreached.tight.resolve_right nofun
    refine ⟨0, ⟨rfl, hstop, rfl, hnarrows⟩, rfl, Nat.zero_le _, ?_⟩
    rw [Position.le_iff] at hlow ⊢
    dsimp only at hlow hcolumn ⊢
    omega
  | some last =>
    obtain ⟨hcolumn, hle⟩ := hreached.ends last rfl
    obtain ⟨lastLine, lastColumn⟩ := last
    have htight : lowColumn = 0 ∨ (lastLine = lowLine ∧ lastColumn = lowColumn) := by
      rcases hreached.tight with hzero | heq
      · exact Or.inl hzero
      · cases heq
        exact Or.inr ⟨rfl, rfl⟩
    rw [Position.le_iff] at hlow hle
    dsimp only at hlow hle hcolumn
    rw [afterSibling]
    split
    · next hinside =>
      change (own : Int) + 1 ≤ lastLine ∧ lastLine ≤ following at hinside
      refine ⟨lastColumn.toNat, ⟨?_, hstop, ?_, hnarrows⟩, rfl, ?_, ?_⟩
      · change lastLine = own + 1
        omega
      · change lastColumn = (lastColumn.toNat : Nat)
        omega
      · omega
      · rw [Position.le_iff]
        dsimp only
        omega
    · next houtside =>
      change ¬ ((own : Int) + 1 ≤ lastLine ∧ lastLine ≤ following) at houtside
      refine ⟨0, ⟨rfl, hstop, rfl, hnarrows⟩, rfl, Nat.zero_le _, ?_⟩
      rw [Position.le_iff]
      dsimp only
      omega

/-- The latest of some ends is one of them. -/
theorem foldl_later_eq_or (nodes : List Node) (stop : Position) :
    let latest := nodes.foldl (fun stop node ↦ stop.later node.location.stop) stop
    latest = stop ∨ ∃ node ∈ nodes, latest = node.location.stop := by
  induction nodes generalizing stop with
  | nil => exact Or.inl rfl
  | cons first rest ih =>
    rcases ih (stop.later first.location.stop) with heq | ⟨node, hnode, heq⟩
    · rcases Position.later_eq_or stop first.location.stop with hstop | hfirst
      · exact Or.inl (heq.trans hstop)
      · exact Or.inr ⟨first, List.mem_cons_self, heq.trans hfirst⟩
    · exact Or.inr ⟨node, List.mem_cons_of_mem _ hnode, heq⟩

theorem endOf_eq_or (lastEnd : Option Position) (nodes : List Node) :
    endOf lastEnd nodes = lastEnd ∨
      ∃ node ∈ nodes, endOf lastEnd nodes = some node.location.stop := by
  cases nodes with
  | nil => exact Or.inl rfl
  | cons first rest =>
    refine Or.inr ?_
    rcases foldl_later_eq_or rest first.location.stop with heq | ⟨node, hnode, heq⟩
    · exact ⟨first, List.mem_cons_self, congrArg some heq⟩
    · exact ⟨node, List.mem_cons_of_mem _ hnode, congrArg some heq⟩

/-- Behind nodes that are located, the sibling located last is the last one of them. -/
theorem Reached.behind {high : Position} {owns : List OwnText} {nodes : List Node}
    (hreached : Reached lastEnd low) (h : Located text low high owns nodes)
    (htight : Tight high nodes) : Reached (endOf lastEnd nodes) high where
  ends := by
    intro stop hstop
    rcases endOf_eq_or lastEnd nodes with heq | ⟨node, hnode, heq⟩
    · rw [heq] at hstop
      obtain ⟨hcolumn, hle⟩ := hreached.ends stop hstop
      exact ⟨hcolumn, Position.le_trans hle h.placed.le⟩
    · rw [heq] at hstop
      cases hstop
      exact ⟨(h.spans node hnode).stop.2.1, h.stops node hnode⟩
  tight := by
    rcases htight with hcolumn | ⟨node, rfl, hstop⟩
    · exact Or.inl hcolumn
    · exact Or.inr (congrArg some hstop)

end Windows

section OwnTexts

variable {window : Window} {own column start stop : Nat} {segments : List Text} {shown : Text}

/-- Text that is written from the line on which a window opens is found on that line. -/
theorem succeeds_find_of_written
    (hwritten : Written settings.commentMarker text.lines own column stop segments)
    (hopens : Opens window own start stop) (hcolumn : start ≤ column) :
    Succeeds ((ofText settings.loosen text).find false segments window) fun found ↦
      ∃ location, found = some location ∧ (Source.ofText text).HasSpan location ∧
        location.start.line = own + 1 ∧ start ≤ location.start.column ∧
        location.stop.line ≤ stop ∧ ∀ segment, segments = [segment] →
          location.stop.line = own + 1 ∧ location.stop.column ≤ column + segment.length := by
  refine (succeeds_find false segments window).mono fun found hfound ↦ ?_
  obtain ⟨location, hlocation, hplace⟩ := Locator.exists_find?_of_written
    (show Written (ofText settings.loosen text).locator.commentMarker
      (ofText settings.loosen text).locator.source.lines own column stop segments from hwritten)
    hopens.minLine hopens.maxLine hopens.column hcolumn
  exact ⟨location, hfound.trans hlocation, Locator.hasSpan_of_find? hlocation, hplace⟩

/-- The title of a section is located on its own line. -/
theorem succeeds_convertTitle
    (hwritten : Written settings.commentMarker text.lines own column (own + 1) [shown])
    (hopens : Opens window own 0 stop) (hstop : own < stop) (level : Int) :
    Succeeds ((ofText settings.loosen text).convertTitle shown level window) fun result ↦
      ∃ node, result = some node ∧
        Located text (lineStart own) (lineStart (own + 1)) [⟨own + 1, shown⟩] [node] := by
  have hline : Opens window own 0 (own + 1) :=
    ⟨hopens.minLine, Int.le_trans (Int.ofNat_le.mpr hstop) hopens.maxLine, hopens.column,
      hopens.narrows⟩
  rw [convertTitle, convertText?]
  refine (succeeds_find_of_written hwritten hline (Nat.zero_le _)).bind fun found hfound ↦ ?_
  obtain ⟨location, rfl, hspan, hstart, hcolumn, hend, -⟩ := hfound
  obtain ⟨range, hnode⟩ := exists_aroundText hspan (.header (level + 1)) shown
  refine Succeeds.bind (succeeds_assembled (Q := (· = _)) ⟨_, hnode, rfl⟩) fun node heq ↦
    succeeds_pure ⟨node, rfl, ?_⟩
  rw [heq, ← hstart]
  refine located_aroundText rfl hspan ?_ ?_
  · exact Or.inr ⟨hstart.symm, hspan.start.2.1⟩
  · refine Position.le_of_line_lt ?_
    rw [lineStart]
    dsimp only
    omega

/-- The text of an item is located behind the column at which its window opens, and if it is on one
line, it ends no later than where it was written. -/
theorem succeeds_convertParagraphText
    (hwritten : Written settings.commentMarker text.lines own column stop shown.lines)
    (hopens : Opens window own start stop) (hcolumn : start ≤ column) :
    Succeeds ((ofText settings.loosen text).convertParagraphText shown window) fun nodes ↦
      ∃ node, nodes = [node] ∧ node.location.stop.line ≤ stop ∧
        Located text ⟨own + 1, start⟩ node.location.stop [⟨own + 1, shown⟩] nodes ∧
        (shown.lines = [shown] →
          node.location.stop ≤ ⟨own + 1, (column + shown.length : Nat)⟩) := by
  rw [convertParagraphText]
  refine (succeeds_find_of_written hwritten hopens hcolumn).bind fun found hfound ↦ ?_
  obtain ⟨location, rfl, hspan, hstart, hbehind, hend, hsingle⟩ := hfound
  obtain ⟨range, hnode⟩ := exists_aroundText hspan .paragraph shown
  refine Succeeds.bind (succeeds_assembled (Q := (· = _)) ⟨_, hnode, rfl⟩) fun node heq ↦
    succeeds_pure ⟨node, rfl, ?_⟩
  rw [heq]
  refine ⟨hend, ?_, fun hlines ↦ ?_⟩
  · rw [← hstart]
    exact located_aroundText rfl hspan (Or.inr ⟨rfl, hbehind⟩) (Position.le_refl _)
  · obtain ⟨hline, hwidth⟩ := hsingle shown hlines
    refine Or.inr ⟨hline, ?_⟩
    push_cast
    exact hwidth

/-- A paragraph is located from its own line on, with its title beside its text. -/
theorem succeeds_convertParagraph
    (hwritten : Written settings.commentMarker text.lines own column stop segments)
    (hkept : Kept settings.commentMarker text.lines own) (hopens : Opens window own 0 stop)
    (info : ElementInfo) :
    Succeeds ((ofText settings.loosen text).convertParagraph info segments window) fun nodes ↦
      Located text (lineStart own) (lineStart stop) [⟨own + 1, Text.unlines segments⟩] nodes := by
  rw [convertParagraph]
  refine (succeeds_find_of_written hwritten hopens (Nat.zero_le _)).bind fun found hfound ↦ ?_
  obtain ⟨location, rfl, hspan, hstart, -, hend, -⟩ := hfound
  refine (succeeds_convertBlockTitle hkept hopens.minLine info).bind fun title htitle ↦ ?_
  obtain ⟨range, hleaf⟩ := exists_located hspan .str (Text.unlines segments) []
  refine Succeeds.bind (succeeds_assembled (Q := (· = _)) ⟨_, hleaf, rfl⟩) fun leaf heq ↦ ?_
  rw [heq]
  have hasides : ∀ node ∈ title.toList, Aside text (own + 1) node :=
    fun node hnode ↦ htitle node (Option.mem_toList.mp hnode)
  have hlt := hwritten.lt
  have hline : ∀ position : Position, position.line ≤ stop → position ≤ lineStart stop :=
    fun position hle ↦ Position.le_of_line_lt (Int.lt_add_one_of_le hle)
  have hspans : ∀ child ∈ title.toList ++
      [(.mk .str (Text.unlines segments) location range [] : Node)],
      (Source.ofText text).HasSpan child.location := by
    intro child hchild
    rcases List.mem_append.mp hchild with hmem | hmem
    · exact (hasides child hmem).span
    · rw [List.mem_singleton.mp hmem]
      exact hspan
  obtain ⟨outer, offsets, hnode, houter, child, hchild, hstop⟩ :=
    exists_around (List.append_ne_nil_of_right_ne_nil _ (List.cons_ne_nil _ _)) hspans .paragraph
      (Text.unlines segments)
  refine Succeeds.bind (succeeds_assembled (Q := (· = _)) ⟨_, hnode, rfl⟩) fun node heq ↦
    succeeds_pure ?_
  rw [heq, ← hstart]
  refine located_own rfl hasides hspan (Or.inr ⟨hstart.symm, hspan.start.2.1⟩) (hline _ hend)
    houter (hline _ ?_)
  rw [hstop]
  rcases List.mem_append.mp hchild with hmem | hmem
  · have hfirst := (hasides child hmem).stop
    omega
  · rw [List.mem_singleton.mp hmem]
    exact hend

end OwnTexts

end AsciidocSpans.Converter
