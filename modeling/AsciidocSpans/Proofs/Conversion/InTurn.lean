import AsciidocSpans.Proofs.Conversion.Known

/-!
Parts that are converted in turn. The items of a list, the terms and descriptions of a description
list, and the cells of a table are located one after the other, each in a window of its own that
depends on where the part before it ended. `ItemsInTurn`, `EntriesInTurn`, `CellsInTurn` and
`RowsInTurn` say of every part that a property holds, given that window and what the part became.
What a conversion of one part always comes to, if its window starts at a column, holds of all of
them in turn (`itemsInTurn_convertItems` and the theorems beside it).
-/

set_option autoImplicit false
set_option relaxedAutoImplicit false

namespace AsciidocSpans.Converter

open Node (childrenOf)

/-- A property holds of some sibling items, given the line behind them, the end of the sibling
located last before them, and the end of the one located last among them. -/
inductive ItemsInTurn (P : Window → ListItem → List Node → Prop) (window : Window) (behind : Int) :
    Option Position → List ListItem → List Node → Option Position → Prop
  | nil {lastEnd : Option Position} : ItemsInTurn P window behind lastEnd [] [] lastEnd
  | cons {lastEnd final : Option Position} {item : ListItem} {rest : List ListItem}
      {own others : List Node} (here : P (itemWindow window behind lastEnd item rest) item own)
      (below : ItemsInTurn P window behind (endOf lastEnd own) rest others final) :
      ItemsInTurn P window behind lastEnd (item :: rest) (own ++ others) final

/-- A property holds of the terms and the descriptions of some entries. -/
inductive EntriesInTurn (P : Window → ListItem → List Node → Prop) (window : Window) :
    Option Position → List DescriptionEntry → List Node → Prop
  | nil {lastEnd : Option Position} : EntriesInTurn P window lastEnd [] []
  | terms {lastEnd afterTerms : Option Position} {terms : List ListItem}
      {rest : List DescriptionEntry} {own others : List Node}
      (here : ItemsInTurn P window (firstItemLine window.maxLine rest) lastEnd terms own afterTerms)
      (below : EntriesInTurn P window afterTerms rest others) :
      EntriesInTurn P window lastEnd (⟨terms, none⟩ :: rest) (own ++ others)
  | described {lastEnd afterTerms : Option Position} {terms : List ListItem}
      {description : ListItem} {rest : List DescriptionEntry} {own shown others : List Node}
      (here : ItemsInTurn P window description.info.lineno lastEnd terms own afterTerms)
      (next : P (itemWindow window (firstItemLine window.maxLine rest) afterTerms description [])
        description shown)
      (below : EntriesInTurn P window (endOf afterTerms shown) rest others) :
      EntriesInTurn P window lastEnd (⟨terms, some description⟩ :: rest) (own ++ shown ++ others)

/-- A property holds of the cells of a row, given where what was located last before them ends. -/
inductive CellsInTurn (C : Window → TableCell → Option Node → Prop) (maxLine : Int) :
    Position → List TableCell → List Node → Prop
  | nil {lastEnd : Position} : CellsInTurn C maxLine lastEnd [] []
  | cons {lastEnd : Position} {cell : TableCell} {rest : List TableCell} {result : Option Node}
      {others : List Node} (here : C (cellWindow maxLine lastEnd cell) cell result)
      (behind : CellsInTurn C maxLine ((result.map (·.location.stop)).getD lastEnd) rest others) :
      CellsInTurn C maxLine lastEnd (cell :: rest) (result.toList ++ others)

/-- A property holds of the cells of some rows. -/
inductive RowsInTurn (C : Window → TableCell → Option Node → Prop) (maxLine : Int) :
    Option Position → List (List TableCell) → List Node → Option Position → Prop
  | nil {lastEnd : Option Position} : RowsInTurn C maxLine lastEnd [] [] lastEnd
  | empty {lastEnd final : Option Position} {rest : List (List TableCell)} {nodes : List Node}
      (below : RowsInTurn C maxLine lastEnd rest nodes final) :
      RowsInTurn C maxLine lastEnd ([] :: rest) nodes final
  | cons {lastEnd final : Option Position} {first : TableCell} {more : List TableCell}
      {rest : List (List TableCell)} {row others : List Node}
      (here : CellsInTurn C maxLine ⟨first.info.lineno, columnAfter lastEnd first.info.lineno⟩
        (first :: more) (childrenOf row))
      (below : RowsInTurn C maxLine (endOf lastEnd row) rest others final) :
      RowsInTurn C maxLine lastEnd ((first :: more) :: rest) (row ++ others) final

section Implications

variable {P Q : Window → ListItem → List Node → Prop}
  {C D : Window → TableCell → Option Node → Prop} {window : Window} {behind maxLine : Int}
  {lastEnd final : Option Position} {nodes : List Node}

theorem ItemsInTurn.imp {items : List ListItem}
    (h : ItemsInTurn P window behind lastEnd items nodes final)
    (himp : ∀ item ∈ items, ∀ window own, P window item own → Q window item own) :
    ItemsInTurn Q window behind lastEnd items nodes final := by
  induction h with
  | nil => exact .nil
  | cons here below ih =>
    exact .cons (himp _ List.mem_cons_self _ _ here)
      (ih fun item hitem ↦ himp item (List.mem_cons_of_mem _ hitem))

theorem EntriesInTurn.imp {entries : List DescriptionEntry}
    (h : EntriesInTurn P window lastEnd entries nodes)
    (himp : ∀ entry ∈ entries, ∀ item ∈ entry.terms ++ entry.description.toList, ∀ window own,
      P window item own → Q window item own) :
    EntriesInTurn Q window lastEnd entries nodes := by
  induction h with
  | nil => exact .nil
  | terms here below ih =>
    have hfirst := himp _ List.mem_cons_self
    exact .terms (here.imp fun item hitem ↦ hfirst item (List.mem_append_left _ hitem))
      (ih fun entry hentry ↦ himp entry (List.mem_cons_of_mem _ hentry))
  | described here next below ih =>
    have hfirst := himp _ List.mem_cons_self
    exact .described (here.imp fun item hitem ↦ hfirst item (List.mem_append_left _ hitem))
      (hfirst _ (List.mem_append_right _ (List.mem_singleton.mpr rfl)) _ _ next)
      (ih fun entry hentry ↦ himp entry (List.mem_cons_of_mem _ hentry))

theorem CellsInTurn.imp {stop : Position} {cells : List TableCell}
    (h : CellsInTurn C maxLine stop cells nodes)
    (himp : ∀ cell ∈ cells, ∀ window result, C window cell result → D window cell result) :
    CellsInTurn D maxLine stop cells nodes := by
  induction h with
  | nil => exact .nil
  | cons here behind ih =>
    exact .cons (himp _ List.mem_cons_self _ _ here)
      (ih fun cell hcell ↦ himp cell (List.mem_cons_of_mem _ hcell))

theorem RowsInTurn.imp {rows : List (List TableCell)}
    (h : RowsInTurn C maxLine lastEnd rows nodes final)
    (himp : ∀ row ∈ rows, ∀ cell ∈ row, ∀ window result,
      C window cell result → D window cell result) :
    RowsInTurn D maxLine lastEnd rows nodes final := by
  induction h with
  | nil => exact .nil
  | empty below ih => exact .empty (ih fun row hrow ↦ himp row (List.mem_cons_of_mem _ hrow))
  | cons here below ih =>
    exact .cons (here.imp (himp _ List.mem_cons_self))
      (ih fun row hrow ↦ himp row (List.mem_cons_of_mem _ hrow))

end Implications

section Windows

variable {lastEnd : Option Position}

/-- The window of a sibling starts at a column. -/
theorem startColumn_siblingWindow_nonneg (h : EndsAtColumn lastEnd) (window : Window)
    (lineno following : Int) :
    0 ≤ (siblingWindow window lineno following lastEnd).startColumn := by
  have hafter : ∀ inner : Window, inner.startColumn = 0 →
      0 ≤ (afterSibling inner lastEnd).startColumn := by
    intro inner hinner
    rw [afterSibling.eq_def]
    split
    · next stop =>
      split
      · exact h stop rfl
      · exact Int.le_of_eq hinner.symm
    · exact Int.le_of_eq hinner.symm
  rw [siblingWindow]
  split
  · exact hafter _ rfl
  · exact hafter _ rfl

theorem columnAfter_nonneg (h : EndsAtColumn lastEnd) (lineno : Int) :
    0 ≤ columnAfter lastEnd lineno := by
  rw [columnAfter.eq_def]
  split
  · next stop =>
    split
    · exact h stop rfl
    · exact Int.le_refl 0
  · exact Int.le_refl 0

end Windows

section Conversions

variable {settings : LooseSettings} {text : Text}
  {P : Window → ListItem → List Node → Prop} {C : Window → TableCell → Option Node → Prop}
  {lastEnd : Option Position}

section Items

variable (hP : ∀ window item, 0 ≤ window.startColumn →
  Yields ((ofText settings text).convertItem window item) (P window item))

include hP

theorem itemsInTurn_convertItems (window : Window) (behind : Int) (hend : EndsAtColumn lastEnd)
    (items : List ListItem) :
    Yields ((ofText settings text).convertItems window behind lastEnd items) fun result ↦
      ItemsInTurn P window behind lastEnd items result.1 result.2 ∧ EndsAtColumn result.2 := by
  induction items generalizing lastEnd with
  | nil => exact yields_pure ⟨.nil, hend⟩
  | cons item rest ih =>
    rw [convertItems_cons]
    refine ((hP _ item (startColumn_siblingWindow_nonneg hend _ _ _)).and
      (yields_convertItem _ item)).bind fun own ⟨hown, hshown⟩ ↦ (yields_trivial _).bind fun _ _ ↦
        (ih (hend.endOf hshown)).bind fun others ⟨hothers, hfinal⟩ ↦
          yields_pure ⟨.cons hown hothers, hfinal⟩

theorem entriesInTurn_convertEntries (window : Window) (hend : EndsAtColumn lastEnd)
    (entries : List DescriptionEntry) :
    Yields ((ofText settings text).convertEntries window lastEnd entries) fun result ↦
      EntriesInTurn P window lastEnd entries result.1 := by
  induction entries generalizing lastEnd with
  | nil => exact yields_pure .nil
  | cons entry rest ih =>
    obtain ⟨terms, description⟩ := entry
    cases description with
    | none =>
      rw [convertEntries]
      exact (itemsInTurn_convertItems hP window _ hend terms).bind fun own ⟨hown, hafter⟩ ↦
        (ih hafter).bind fun others hothers ↦ yields_pure (.terms hown hothers)
    | some description =>
      rw [convertEntries]
      refine (itemsInTurn_convertItems hP window _ hend terms).bind fun own ⟨hown, hafter⟩ ↦
        ((hP _ description (startColumn_siblingWindow_nonneg hafter _ _ _)).and
          (yields_convertItem _ description)).bind fun described ⟨hdescribed, hshown⟩ ↦
            (yields_trivial _).bind fun _ _ ↦ (ih (hafter.endOf hshown)).bind
              fun others hothers ↦ yields_pure (.described hown hdescribed hothers)

end Items

section Cells

variable (hC : ∀ window cell, 0 ≤ window.startColumn →
  Yields ((ofText settings text).convertCell window cell) (C window cell))

include hC

theorem cellsInTurn_convertCells (maxLine : Int) {stop : Position} (hstop : 0 ≤ stop.column)
    (cells : List TableCell) :
    Yields ((ofText settings text).convertCells maxLine stop cells)
      (CellsInTurn C maxLine stop cells) := by
  induction cells generalizing stop with
  | nil => exact yields_pure .nil
  | cons cell rest ih =>
    have hend : EndsAtColumn (some stop) := by
      intro other hother
      cases hother
      exact hstop
    have hcolumn : 0 ≤ (cellWindow maxLine stop cell).startColumn :=
      columnAfter_nonneg hend cell.info.lineno
    rw [convertCells]
    refine ((hC _ cell hcolumn).and (yields_convertCell _ cell)).bind
      fun result ⟨hresult, hshown⟩ ↦ ?_
    cases result with
    | none =>
      exact fun s nodes s' hrun ↦ .cons hresult (ih hstop s nodes s' hrun)
    | some node =>
      have hnode : 0 ≤ node.location.stop.column :=
        (hasSpan_of_built (hshown node rfl).1).stop.2.1
      exact (ih hnode).bind fun others hothers ↦ yields_pure (.cons hresult hothers)

theorem rowsInTurn_convertRows (maxLine : Int) (hend : EndsAtColumn lastEnd)
    (rows : List (List TableCell)) :
    Yields ((ofText settings text).convertRows maxLine lastEnd rows) fun result ↦
      RowsInTurn C maxLine lastEnd rows result.1 result.2 ∧ EndsAtColumn result.2 := by
  induction rows generalizing lastEnd with
  | nil => exact yields_pure ⟨.nil, hend⟩
  | cons row rest ih =>
    cases row with
    | nil =>
      rw [convertRows]
      exact fun s result s' hrun ↦ (ih hend s result s' hrun).imp_left .empty
    | cons first more =>
      have hcolumn := columnAfter_nonneg hend first.info.lineno
      rw [convertRows]
      refine ((cellsInTurn_convertCells hC maxLine hcolumn (first :: more)).and
        (yields_convertCells maxLine _ (first :: more))).bind fun cells hcells ↦
          (yields_childrenOf_wrapped.and (yields_wrapped rfl (by simp) hcells.2)).bind
            fun row hrow ↦ (ih (hend.endOf hrow.2)).bind
              fun others hothers ↦ yields_pure ⟨.cons ?_ hothers.1, hothers.2⟩
      rw [hrow.1]
      exact hcells.1

end Cells

end Conversions

end AsciidocSpans.Converter
