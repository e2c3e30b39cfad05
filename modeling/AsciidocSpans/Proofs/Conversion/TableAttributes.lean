import AsciidocSpans.Proofs.Blocks.Formation
import AsciidocSpans.Proofs.Blocks.Sites
import AsciidocSpans.Proofs.Conversion.Known
import AsciidocSpans.Proofs.Conversion.Verbatim
import AsciidocSpans.Proofs.Span.Started

/-!
Where the attributes of tables are located. A table has what the attribute lines in the gap above it
give, besides what is counted (`TableGiven`); if some of that is shown, it is shown at the first
bracket on the lines above the table, whatever that belongs to.

So the attributes stand at an attribute line of the table just if it is within reach and no line
before it opens a bracket (`TableLocated`, `tablesLocated_of_locateText`). In `misplaced_attributes`
an anchor, a title with a bracket and a comment right above the attribute line do, and an attribute
line above the block around the table.
-/

set_option autoImplicit false
set_option relaxedAutoImplicit false

namespace AsciidocSpans

open Text

/-! ### Where attributes come from -/

namespace Attributes

variable {attributes : Attributes} {pair : Text × Text}

theorem mem_insertPair {name value : Text} {pairs : List (Text × Text)}
    (h : pair ∈ insertPair name value pairs) : pair = (name, value) ∨ pair ∈ pairs := by
  induction pairs with
  | nil => exact .inl (List.mem_singleton.mp h)
  | cons first rest ih =>
    rw [insertPair] at h
    split at h
    · exact (List.mem_cons.mp h).imp_right (List.mem_cons_of_mem _)
    · rcases List.mem_cons.mp h with rfl | hrest
      · exact .inr List.mem_cons_self
      · exact (ih hrest).imp_right (List.mem_cons_of_mem _)

/-- Where all of some attributes are assigned, each one comes from there or was there before. -/
theorem mem_update {others : Attributes} (h : pair ∈ (attributes.update others).toList) :
    pair ∈ others.toList ∨ pair ∈ attributes.toList := by
  obtain ⟨pairs⟩ := others
  change pair ∈ (pairs.foldl (fun result pair ↦ result.insert pair.1 pair.2) attributes).toList at h
  induction pairs generalizing attributes with
  | nil => exact .inr h
  | cons first rest ih =>
    rcases ih h with hrest | hhere
    · exact .inl (List.mem_cons_of_mem _ hrest)
    · rcases mem_insertPair hhere with rfl | hbefore
      · exact .inl List.mem_cons_self
      · exact .inr hbefore

end Attributes

namespace Blocks

variable {commentMarker : Text} {written : List Text} {line : Line}
  {lines all given rest : List Line} {pair : Text × Text}

/-- An attribute line gives an attribute. -/
def GivesPair (line : Line) (pair : Text × Text) : Prop :=
  ∃ body, line.shape = .blockAttributes body ∧ pair ∈ (AttributeList.parse body).toList

theorem givesPair_or_mem_of_add? {metadata : Metadata}
    (h : pair ∈ ((metadata.add? line.shape).getD metadata).attributes.toList) :
    GivesPair line pair ∨ pair ∈ metadata.attributes.toList := by
  cases hshape : line.shape with
  | blockAttributes body =>
    rw [hshape] at h
    change pair ∈ (metadata.addAttributes (AttributeList.parse body)).attributes.toList at h
    unfold Metadata.addAttributes at h
    split at h
    · refine (Attributes.mem_update h).imp_left fun hmem ↦ ⟨body, hshape, ?_⟩
      exact List.mem_of_mem_filter hmem
    · exact (Attributes.mem_update h).imp_left fun hmem ↦ ⟨body, hshape, hmem⟩
  | _ =>
    rw [hshape] at h
    exact .inr h

/-- Every attribute that waits behind some lines is given by one of them. -/
theorem exists_givesPair_of_mem_after
    (h : pair ∈ (Metadata.empty.after lines).attributes.toList) :
    ∃ line ∈ lines, GivesPair line pair := by
  induction lines using List.reverseRecOn with
  | nil => cases h
  | append_singleton before line ih =>
    rw [Metadata.after_append] at h
    rcases givesPair_or_mem_of_add? h with hgives | hbefore
    · exact ⟨line, List.mem_append_right _ List.mem_cons_self, hgives⟩
    · obtain ⟨other, hother, hgives⟩ := ih hbefore
      exact ⟨other, List.mem_append_left _ hother, hgives⟩

/-- What is counted when a table is made. -/
def countNames : List Text :=
  ["colcount".toList, "rowcount".toList, "tablepcwidth".toList]

/-- Besides what is counted, the attributes of a table are among those it is made with. -/
theorem exists_info_makeTable (number : Int) (separator : Char) (content : List Line)
    (attributes : Attributes) (cells : List TableCell) : ∃ info columns headRows bodyRows,
      makeTable number separator content attributes cells =
        .table info columns headRows bodyRows ∧ info.lineno = number ∧
      ∀ pair ∈ info.attributes.toList, pair.1 ∈ countNames ∨ pair ∈ attributes.toList := by
  have hcounted : ∀ (kept : Attributes) (columns rows width : Text) (pair : Text × Text),
      pair ∈ (((kept.insert "colcount".toList columns).insert "rowcount".toList rows).insert
        "tablepcwidth".toList width).toList → pair.1 ∈ countNames ∨ pair ∈ kept.toList := by
    intro kept columns rows width pair hpair
    unfold countNames
    generalize "colcount".toList = first, "rowcount".toList = second,
      "tablepcwidth".toList = third at hpair ⊢
    rcases Attributes.mem_insertPair hpair with rfl | hpair
    · exact .inl (by simp)
    rcases Attributes.mem_insertPair hpair with rfl | hpair
    · exact .inl (by simp)
    rcases Attributes.mem_insertPair hpair with rfl | hpair
    · exact .inl (by simp)
    · exact .inr hpair
  unfold makeTable
  dsimp only
  split
  · refine ⟨_, _, _, _, rfl, rfl, fun pair hpair ↦ ?_⟩
    exact (hcounted _ _ _ _ pair hpair).imp_right List.mem_of_mem_filter
  · refine ⟨_, _, _, _, rfl, rfl, fun pair hpair ↦ ?_⟩
    exact (hcounted _ _ _ _ pair hpair).imp_right List.mem_of_mem_filter

/-- The lines in a gap above a table give it its attributes, but for those that are counted. -/
structure TableGiven (commentMarker : Text) (written : List Text) (info : ElementInfo)
    (given : List Line) : Prop where
  above : ∃ all line rest separator delimiter, BeginIn commentMarker written all ∧
    Gap all given (line :: rest) ∧ line.shape = .tableDelimiter separator delimiter ∧
    info.lineno = line.number
  attributes : ∀ pair ∈ info.attributes.toList,
    pair.1 ∈ countNames ∨ ∃ line ∈ given, GivesPair line pair

/-- Every table has a gap above it that gives its attributes. -/
theorem exists_tableGiven {info : ElementInfo} {columns : Nat}
    {headRows bodyRows : List (List TableCell)}
    (h : Formed commentMarker (BeginIn commentMarker written)
      (.table info columns headRows bodyRows)) :
    ∃ given, TableGiven commentMarker written info given := by
  obtain ⟨metadata, line, rest, content, separator, delimiter, cells, waits, shape, -, -, made,
    -⟩ := h.table_cases
  obtain ⟨all, given, hall, hgap, rfl⟩ := waits
  obtain ⟨own, _, _, _, hown, hlineno, hattributes⟩ := exists_info_makeTable line.number separator
    content (Metadata.empty.after given).attributes cells
  rw [hown] at made
  cases made
  refine ⟨given, ⟨all, line, rest, separator, delimiter, hall, hgap, shape, hlineno⟩, ?_⟩
  intro pair hpair
  exact (hattributes pair hpair).imp_right exists_givesPair_of_mem_after

end Blocks

namespace Converter

open Blocks (BeginIn Formed GivesPair Sited TableGiven countNames exists_tableGiven)

/-! ### The attributes of a table -/

/-- A line above a table gives an attribute of it that is shown. -/
def GivesShown (denied : List Text) (info : ElementInfo) (line : Line) : Prop :=
  ∃ pair ∈ info.attributes.toList, GivesPair line pair ∧ pair.1 ∉ denied ∧ pair.2 ≠ []

/-- The window in which the attributes of a table are looked for, given the first line of the
table's own window. -/
def bracketWindow (lookback low : Int) : Window :=
  { minLine := max 1 (low - lookback), maxLine := low }

/-- The attributes below some nodes of a table are attributes that are shown, and they start where a
search for a bracket does. -/
structure BracketShown (settings : Settings) (text : Text) (info : ElementInfo) (low : Int)
    (child : Node) : Prop where
  shown : ∃ pair ∈ info.attributes.toList,
    pair.1 ∉ settings.tableAttributeDenylist ∧ pair.2 ≠ []
  start : ∀ index column : Nat, child.location.start = ⟨index + 1, column⟩ ↔
    (ofText settings.loosen text).locator.StartsAt false [['[']]
      (bracketWindow settings.attributesLookback low) index column

section Tables

variable {settings : Settings} {text : Text} {info : ElementInfo} {window : Window}

/-- What is shown of some attributes is not on the denylist and has a value. -/
theorem mem_of_shownAttributes? {names : List Text} {attributes shown : Attributes}
    {pair : Text × Text} (h : shownAttributes? (.list (names.map .text)) attributes = some shown)
    (hpair : pair ∈ shown.toList) :
    pair ∈ attributes.toList ∧ pair.1 ∉ names ∧ pair.2 ≠ [] := by
  rw [shownAttributes?] at h
  split at h
  · next hempty =>
    cases h
    rw [Attributes.isEmpty, List.isEmpty_iff] at hempty
    rw [hempty] at hpair
    cases hpair
  · obtain ⟨isDenied, hdenied, rfl⟩ := Option.map_eq_some_iff.mp h
    obtain ⟨hmem, htest⟩ := List.mem_filter.mp hpair
    have hnames := Value.membership?_texts names pair.1
    rw [hdenied, Option.map_some, Option.some.injEq] at hnames
    dsimp only at htest
    rw [hnames, Bool.and_eq_true, Bool.not_eq_true', Bool.not_eq_true',
      ← Bool.not_eq_true, List.contains_iff_mem, ← Bool.not_eq_true,
      List.isEmpty_iff] at htest
    exact ⟨hmem, htest⟩

theorem bracketShown_convertTableAttributes :
    Yields ((ofText settings.loosen text).convertTableAttributes info.attributes window)
      fun result ↦ ∀ child ∈ result, BracketShown settings text info window.minLine child := by
  rw [convertTableAttributes]
  cases hshown : shownAttributes? (ofText settings.loosen text).settings.tableAttributeDenylist
    info.attributes with
  | none => exact Yields.bind (yields_throw _) fun _ (h : False) ↦ h.elim
  | some shown =>
    rw [usable, pure_bind]
    split
    · exact yields_pure fun _ hnone ↦ (Option.not_mem_none _ hnone).elim
    · next hsome =>
      have hhighest :
          (ofText settings.loosen text).settings.attributesLookback.highestLine? window =
            some (window.highestLine settings.attributesLookback) := rfl
      rw [hhighest, usable, pure_bind]
      refine (yields_find _ false [['[']] _).bind fun found hfound ↦ ?_
      cases found with
      | none => exact yields_pure fun _ hnone ↦ (Option.not_mem_none _ hnone).elim
      | some bracket =>
        refine (yields_assembled fun node hnode ↦ hnode).bind fun node hnode ↦
          yields_pure fun child hchild ↦ ?_
        obtain ⟨range, leaf, -, -, rfl⟩ := aroundText_eq_ok hnode
        cases hchild
        refine ⟨?_, fun index column ↦ ?_⟩
        · obtain ⟨pair, hpair⟩ := List.exists_mem_of_ne_nil shown.toList
            fun hnil ↦ hsome (List.isEmpty_iff.mpr hnil)
          exact ⟨pair, mem_of_shownAttributes? hshown hpair⟩
        · change bracket.start = _ ↔ _
          exact Locator.start_eq_iff (Int.le_refl 0) hfound.symm

/-- Every node of rows is one of a row. -/
theorem yields_kind_convertRows (converter : Converter) (maxLine : Int)
    (lastEnd : Option Position) (rows : List (List TableCell)) :
    Yields (converter.convertRows maxLine lastEnd rows) fun result ↦
      ∀ node ∈ result.1, node.kind = .tableRow := by
  induction rows generalizing lastEnd with
  | nil => exact yields_pure (List.forall_mem_nil _)
  | cons row rest ih =>
    cases row with
    | nil =>
      rw [convertRows]
      exact ih lastEnd
    | cons first others =>
      rw [convertRows]
      refine (yields_trivial _).bind fun cells _ ↦
        Yields.bind (Q := fun nodes : List Node ↦ ∀ node ∈ nodes, node.kind = .tableRow) ?_
          fun row hrow ↦ (ih _).bind fun result hresult ↦ yields_pure fun node hnode ↦ ?_
      · rw [wrapped]
        split
        · exact yields_pure (List.forall_mem_nil _)
        · refine (yields_assembled fun node hnode ↦ hnode).bind fun node hnode ↦ yields_pure ?_
          obtain ⟨location, range, -, -, rfl⟩ := around_eq_ok hnode
          exact List.forall_mem_singleton.mpr rfl
      · exact (List.mem_append.mp hnode).elim (hrow node) (hresult node)

/-- The attributes below the node of a table are those that were looked for. -/
theorem bracketShown_convertTable (columns : Nat) (headRows bodyRows : List (List TableCell)) :
    Yields ((ofText settings.loosen text).convertElement window
        (.table info columns headRows bodyRows)) fun nodes ↦
      ∀ node ∈ nodes, ∀ child ∈ node.children, child.kind = .attributeList →
        BracketShown settings text info window.minLine child := by
  rw [convertElement]
  refine (yields_kind_convertBlockTitle info window).bind fun title htitle ↦
    bracketShown_convertTableAttributes.bind fun list hlist ↦
      (yields_kind_convertRows _ _ none headRows).bind fun head hhead ↦
        (yields_kind_convertRows _ _ head.2 bodyRows).bind fun body hbody ↦ ?_
  change Yields ((ofText settings.loosen text).wrapped .table
    (title.toList ++ list.toList ++ head.1 ++ body.1)) _
  rw [wrapped]
  split
  · exact yields_pure (List.forall_mem_nil _)
  · refine (yields_assembled fun node hnode ↦ hnode).bind fun node hnode ↦ yields_pure ?_
    obtain ⟨location, range, -, -, rfl⟩ := around_eq_ok hnode
    refine List.forall_mem_singleton.mpr fun child hchild hkind ↦ ?_
    rcases List.mem_append.mp hchild with hchild | hchild
    · rcases List.mem_append.mp hchild with hchild | hchild
      · rcases List.mem_append.mp hchild with hchild | hchild
        · cases hkind.symm.trans (htitle child (Option.mem_toList.mp hchild))
        · exact hlist child (Option.mem_toList.mp hchild)
      · cases hkind.symm.trans (hhead child hchild)
    · cases hkind.symm.trans (hbody child hchild)

end Tables

/-! ### Tables of a text -/

section Trees

variable {settings : Settings} {text : Text}

/-- The bracket at a column of a line is where the attributes of a table are shown, given the first
line of the table's window: its line is within reach and opens a bracket, no line within reach
before does, and no bracket stands before it on its line. -/
structure BracketMet (settings : Settings) (text : Text) (low : Int) (index column : Nat) :
    Prop where
  reach : max 1 (low - settings.attributesLookback) ≤ index + 1 ∧ (index : Int) + 1 ≤ low
  opens : (ofText settings.loosen text).locator.Opens false ['['] (index + 1)
  first : ∀ raw ∈ text.lines[index]?, ∀ c < column, ¬ OccursAt ['['] raw c
  before : ∀ number < (index : Int) + 1, max 1 (low - settings.attributesLookback) ≤ number →
    ¬ (ofText settings.loosen text).locator.Opens false ['['] number

/-- Where the attributes below the node of a table are located, given the lines above the table and
the first line of its window: a line above gives what is shown, and they start at an attribute line
above just if the bracket of that line is the one that is met. -/
structure ListLocated (settings : Settings) (text : Text) (info : ElementInfo) (given : List Line)
    (low : Int) (child : Node) : Prop where
  source : ∃ line ∈ given, GivesShown settings.tableAttributeDenylist info line
  start : ∀ line ∈ given, ∀ body index column behind, line.shape = .blockAttributes body →
    Sited settings.commentMarker text.lines index column (line :: behind) →
      (child.location.start = ⟨index + 1, column⟩ ↔ BracketMet settings text low index column)

/-- The nodes of a table show its attributes, given the first line of the table's window. -/
def TableConverted (settings : Settings) (text : Text) (window : Window)
    (lastEnd : Option Position) (element : Element) (nodes : List Node) : Prop :=
  ∀ info columns headRows bodyRows, element = .table info columns headRows bodyRows →
    ∃ following, ∀ node ∈ nodes, ∀ child ∈ node.children, child.kind = .attributeList →
      BracketShown settings text info
        (siblingWindow window info.lineno following lastEnd).minLine child

/-- A table has its attributes from the lines above it, and its nodes show them as they are located
there. The window of a table starts with its own line, if the window around narrows and no sibling
ends further below, and with the window around if that does not narrow and no sibling was
located. -/
def TableLocated (settings : Settings) (text : Text) (window : Window)
    (lastEnd : Option Position) (element : Element) (nodes : List Node) : Prop :=
  ∀ info columns headRows bodyRows, element = .table info columns headRows bodyRows →
    ∃ given low, TableGiven settings.commentMarker text.lines info given ∧
      (window.narrows = true → EndsBy lastEnd info.lineno → low = info.lineno) ∧
      (window.narrows = false → lastEnd = none → low = window.minLine) ∧
      ∀ node ∈ nodes, ∀ child ∈ node.children, child.kind = .attributeList →
        ListLocated settings text info given low child

theorem tableConverted_convertElement :
    HoldsOfBlocks (ofText settings.loosen text) (TableConverted settings text) := by
  intro window following lastEnd element s nodes s' hrun info columns headRows bodyRows helement
  subst helement
  exact ⟨following, bracketShown_convertTable columns headRows bodyRows s nodes s' hrun⟩

/-- Attributes that start where a search for a bracket does are located among the lines that give
them. -/
theorem listLocated_of_bracketShown {info : ElementInfo} {given : List Line} {low : Int}
    {child : Node} (hdenied : countNames ⊆ settings.tableAttributeDenylist)
    (hgiven : TableGiven settings.commentMarker text.lines info given)
    (h : BracketShown settings text info low child) :
    ListLocated settings text info given low child := by
  refine ⟨?_, fun line hline body index column behind hshape hsited ↦ ?_⟩
  · obtain ⟨pair, hpair, hname, hvalue⟩ := h.shown
    rcases hgiven.attributes pair hpair with hcounted | ⟨line, hline, hgives⟩
    · exact absurd (hdenied hcounted) hname
    · exact ⟨line, hline, pair, hpair, hgives, hname, hvalue⟩
  · obtain ⟨raw, hraw, hcolumn, hinput⟩ := hsited.head.stands
    have hspelled := hsited.head.spelled
    rw [hshape] at hspelled
    obtain ⟨spaces, -, hspelled⟩ := hspelled
    have hoccurs : OccursAt ['['] raw column := by
      refine ⟨hcolumn, List.IsPrefix.trans ?_ hinput⟩
      rw [hspelled]
      exact ⟨body ++ ']' :: spaces, rfl⟩
    have hlow : max 1 (bracketWindow settings.attributesLookback low).minLine =
        max 1 (low - settings.attributesLookback) := max_eq_right (le_max_left _ _)
    have hmet : (ofText settings.loosen text).locator.StartsAt false [['[']]
        (bracketWindow settings.attributesLookback low) index column ↔ _ :=
      Locator.startsAt_singleton_iff rfl hraw hoccurs
    rw [hlow] at hmet
    rw [h.start, hmet]
    constructor
    · rintro ⟨hreach, hopens, hfirst, hbefore⟩
      refine ⟨hreach, hopens, fun other hother ↦ ?_, hbefore⟩
      cases hraw.symm.trans hother
      exact hfirst
    · exact fun hall ↦ ⟨hall.reach, hall.opens, hall.first raw hraw, hall.before⟩

theorem tableLocated_of_formed (hdenied : countNames ⊆ settings.tableAttributeDenylist) :
    Gives (Formed settings.commentMarker (BeginIn settings.commentMarker text.lines))
      (TableConverted settings text) (TableLocated settings text) := by
  rintro window lastEnd - nodes - hformed hconverted info columns headRows bodyRows rfl
  obtain ⟨given, hgiven⟩ := exists_tableGiven hformed
  obtain ⟨following, hshown⟩ := hconverted info columns headRows bodyRows rfl
  refine ⟨given, (siblingWindow window info.lineno following lastEnd).minLine, hgiven,
    fun hnarrows hends ↦ minLine_siblingWindow hnarrows hends, fun hnarrows hnone ↦ ?_,
    fun node hnode child hchild hkind ↦
      listLocated_of_bracketShown hdenied hgiven (hshown node hnode child hchild hkind)⟩
  rw [hnone, siblingWindow, if_neg (Bool.eq_false_iff.mp hnarrows)]
  rfl

/-- Throughout the located tree of every text, the attributes of tables are given by the lines above
them and located at the first bracket there. -/
theorem tablesLocated_of_locateText {root : Node}
    (hdenied : countNames ⊆ settings.tableAttributeDenylist)
    (h : (locateText settings.loosen text).1 = .ok root) :
    ∃ document head nodes, (Document.ofText settings.commentMarker text).1 = .ok document ∧
      root.children = head ++ nodes ∧
      TracedAll (ofText settings.loosen text) (TableLocated settings text)
        { minLine := 1, maxLine := text.lines.length } none document.blocks nodes :=
  traced_formed_of_locateText tableConverted_convertElement (tableLocated_of_formed hdenied) h

/-- Where the attributes of tables start in the located tree of a text. -/
def bracketStarts (text : Text) : Option (List Position) :=
  (locateText Settings.default.loosen text).1.toOption.map fun root ↦
    (root.nodes.filter (·.kind = .attributeList)).map (·.location.start)

/-- A table with an attribute line right above it. -/
def listedTable : Text :=
  "[cols=\"2\"]\n|===\n|a\n|===".toList

theorem tablesLocated_listedTable :
    countNames ⊆ Settings.default.tableAttributeDenylist ∧
    bracketStarts listedTable = some [⟨1, 0⟩] ∧
    ∃ root, (locateText Settings.default.loosen listedTable).1 = .ok root ∧
      ∃ document head nodes,
        (Document.ofText Settings.default.commentMarker listedTable).1 = .ok document ∧
        root.children = head ++ nodes ∧
        TracedAll (ofText Settings.default.loosen listedTable)
          (TableLocated Settings.default listedTable)
          { minLine := 1, maxLine := listedTable.lines.length } none document.blocks nodes := by
  have hdenied : countNames ⊆ Settings.default.tableAttributeDenylist := by decide +kernel
  obtain ⟨root, hroot, -⟩ := exists_of_okAnd (show okAnd (locateText Settings.default.loosen
    listedTable).1 (fun _ ↦ true) = true by decide +kernel)
  exact ⟨hdenied, by decide +kernel, root, hroot, tablesLocated_of_locateText hdenied hroot⟩

/-- Attributes that are not shown at their attribute line, which is the second or the third line:
behind an anchor, a title with a bracket, a comment, and inside a block with attributes. -/
theorem misplaced_attributes :
    (Line.classify Settings.default.commentMarker "[[id]]".toList 1).shape =
      .blockAnchor "id".toList none ∧
    (Line.classify Settings.default.commentMarker "[cols=\"2\"]".toList 2).shape =
      .blockAttributes "cols=\"2\"".toList ∧
    bracketStarts ("[[id]]\n".toList ++ listedTable) = some [⟨1, 0⟩] ∧
    bracketStarts (".a[b]\n".toList ++ listedTable) = some [⟨1, 2⟩] ∧
    bracketStarts ("// c\n".toList ++ listedTable) = some [⟨1, 0⟩] ∧
    bracketStarts ("[b]\n====\n".toList ++ listedTable ++ "\n====".toList) = some [⟨1, 0⟩] := by
  decide +kernel

end Trees

end Converter

end AsciidocSpans
