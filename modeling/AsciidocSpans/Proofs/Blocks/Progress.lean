import AsciidocSpans.Proofs.Blocks.Grammar
import AsciidocSpans.Proofs.Blocks.MoreSteps
import AsciidocSpans.Proofs.Blocks.Outline
import AsciidocSpans.Proofs.Span.Matched

/-!
Reading goes on and ends. Wherever a reader starts among some lines, it stops behind its first line
and within the lines (`ReaderAt`, `Advances`, `advances_of_readerAt`); only a continuation line with
nothing behind it gives no block (`lines_of_readAttached_none`). A document inside a table cell is
read from fewer lines than the document around the table (`MadeFrom.exists_fewer`). So no text uses
up the steps that it is given, and more of them would change nothing (`reading_advances_and_ends`).
-/

set_option autoImplicit false
set_option relaxedAutoImplicit false

namespace AsciidocSpans.Blocks

open Element

variable {commentMarker : Text}

/-- The readers of what starts at a line, each at a line of the kind that it is called for. The
reader of a block reads delimited blocks too, and comment blocks, fences, macros and admonitions. -/
inductive ReaderAt (commentMarker : Text) (steps : Nat) (line : Line) (rest : List Line) :
    {α : Type} → Reading α → Prop
  | block (place : Place) (metadata : Metadata) :
      ReaderAt commentMarker steps line rest
        (readBlock commentMarker steps place metadata line rest)
  | titledSection (metadata : Metadata) {marker title : Text}
      (shape : line.shape = .sectionTitle marker title) :
      ReaderAt commentMarker steps line rest (do
        setLines rest
        readSection commentMarker steps metadata line.number marker title)
  | list (ancestors : List Text) {kind : ListKind} {marker text : Text}
      {checkbox : Option Checkbox} (shape : line.shape = .listItem kind marker text checkbox) :
      ReaderAt commentMarker steps line rest
        (readList commentMarker steps ancestors line.number kind marker)
  | item (markers : List Text) {kind : ListKind} {marker text : Text}
      {checkbox : Option Checkbox} (shape : line.shape = .listItem kind marker text checkbox) :
      ReaderAt commentMarker steps line rest
        (readItem commentMarker steps markers line.number text checkbox rest)
  | descriptionList {text delimiter : Text} {description : Option Text}
      (shape : line.shape = .term text delimiter description) :
      ReaderAt commentMarker steps line rest
        (readDescriptionList commentMarker steps line.number delimiter)
  | entry {text delimiter : Text} {description : Option Text}
      (shape : line.shape = .term text delimiter description) :
      ReaderAt commentMarker steps line rest
        (readEntry commentMarker steps delimiter (line :: rest))
  | table (metadata : Metadata) {separator : Char} {delimiter : Text}
      (shape : line.shape = .tableDelimiter separator delimiter) :
      ReaderAt commentMarker steps line rest (do
        setLines rest
        readTable commentMarker steps metadata line.number separator)
  | paragraph (attached : Bool) (metadata : Metadata) (shape : line.shape.isIgnorable = false) :
      ReaderAt commentMarker steps line rest (readParagraph attached metadata line rest)

/-- A reading was begun at an index of some lines and stops at a later one, which may be their
end. -/
def Advances {α : Type} (lines : List Line) (index : Nat) (_ : α) (s : ReadState) : Prop :=
  ∃ later, index < later ∧ later ≤ lines.length ∧ s.lines = lines.drop later

/-- A cell that is told to span no columns. -/
def SpansNothing (problem : ParseError) : Prop :=
  ∃ spec number, problem = .spansNoColumns spec number

section Advances

variable {lines rest : List Line} {line : Line} {steps index : Nat} {s : ReadState} {α : Type}
  {reading : Reading α}

theorem excuses_spansNothing (lines : List Line) : Excuses SpansNothing lines :=
  fun _ _ _ _ _ spec number ↦ ⟨spec, number, rfl⟩

/-- Each reader leaves a final part of the lines behind the one that it starts at. -/
theorem leavesOf_of_readerAt (h : ReaderAt commentMarker steps line rest reading)
    (hlines : s.lines = line :: rest) (hsteps : stepsFor s.lines.length ≤ steps) :
    Runs reading s (LeavesOf rest) SpansNothing := by
  rw [stepsFor, hlines, List.length_cons] at hsteps
  have hexcuses := excuses_spansNothing s.lines
  have hrest := excuses_spansNothing rest
  cases h with
  | block place metadata =>
    exact runs_readBlock steps place metadata line rest s hlines (by omega) hexcuses
  | titledSection metadata shape =>
    exact Runs.bind_of_eq (x := setLines rest) rfl
      (runs_readSection steps metadata line.number _ _ { s with lines := rest }
        (by dsimp only; omega) hrest)
  | list ancestors shape =>
    exact runs_readList steps ancestors line.number _ _ line rest s hlines shape (by omega) hexcuses
  | item markers shape =>
    exact runs_readItem steps markers line.number _ _ rest s (by omega) hrest
  | descriptionList shape =>
    exact runs_readDescriptionList steps line.number _ line rest s hlines shape (by omega) hexcuses
  | entry shape => exact runs_readEntry steps _ line rest s shape (by omega) hrest
  | table metadata shape =>
    exact Runs.bind_of_eq (x := setLines rest) rfl
      (runs_readTable steps metadata line.number _ { s with lines := rest }
        (by dsimp only; omega) fun spec number ↦ ⟨spec, number, rfl⟩)
  | paragraph attached metadata shape => exact runs_readParagraph attached metadata line rest s

/-- What is left of the lines behind an index starts at a later one. -/
theorem exists_later_of_suffix {behind : List Line} (hindex : lines.drop index = line :: rest)
    (hbehind : behind <:+ rest) :
    ∃ later, index < later ∧ later ≤ lines.length ∧ behind = lines.drop later := by
  obtain ⟨passed, hpassed⟩ := hbehind
  have hrest : lines.drop (index + 1) = rest := by
    rw [← List.drop_drop, hindex, List.drop_succ_cons, List.drop_zero]
  have hlength := congrArg List.length hindex
  rw [List.length_drop, List.length_cons, ← hpassed, List.length_append] at hlength
  refine ⟨index + 1 + passed.length, by omega, by omega, ?_⟩
  rw [← List.drop_drop, hrest, ← hpassed, List.drop_left]

/-- Each reader advances. -/
theorem advances_of_readerAt (hindex : lines.drop index = line :: rest)
    (hs : s.lines = lines.drop index) (hsteps : stepsFor lines.length ≤ steps)
    (h : ReaderAt commentMarker steps line rest reading) :
    Runs reading s (Advances lines index) SpansNothing := by
  have henough : stepsFor s.lines.length ≤ steps := by
    have hlength := List.length_drop (l := lines) (i := index)
    rw [stepsFor] at hsteps ⊢
    rw [hs]
    omega
  exact (leavesOf_of_readerAt h (hs.trans hindex) henough).mono
    (fun _ _ hleft ↦ exists_later_of_suffix hindex hleft) fun _ hproblem ↦ hproblem

/-- Behind a continuation line, only the end of the lines gives no block. -/
theorem lines_of_readAttached_none {metadata : Metadata} {s' : ReadState}
    (h : readAttached commentMarker steps metadata s = .ok none s') : s'.lines = [] := by
  induction steps generalizing metadata s with
  | zero =>
    rw [readAttached] at h
    cases h
  | succ steps ih =>
    rw [readAttached] at h
    obtain ⟨state, before, hget, hrest⟩ := bind_eq_ok.mp h
    cases hget
    cases hlines : s.lines with
    | nil =>
      rw [hlines] at hrest
      cases hrest
      exact hlines
    | cons line rest =>
      rw [hlines] at hrest
      obtain ⟨progress, middle, -, hprogress⟩ := bind_eq_ok.mp hrest
      cases progress with
      | pending waiting => exact ih hprogress
      | block element => cases hprogress

end Advances

section Cells

variable {cell : TableCell} {I : List Line → Prop} {element : Element}

/-- A document that was made of a text, or one that was read from the texts of a cell. -/
inductive MadeFrom (commentMarker : Text) : List Text → Document → Prop
  | text {text : Text} {document : Document}
      (made : (Document.ofText commentMarker text).1 = .ok document) :
      MadeFrom commentMarker text.lines document
  | cell {texts : List Text} {document : Document} {steps : Nat} {before behind : ReadState}
      (starts : before.lines = Line.classifyAll commentMarker document.info.lineno texts)
      (read : readBlocks commentMarker steps none none .empty before =
        .ok document.blocks behind) :
      MadeFrom commentMarker texts document

/-- Reading never meets more lines than there are. -/
theorem lasting_length_le (count : Nat) :
    Lasting commentMarker fun lines ↦ lines.length ≤ count where
  suffix hsuffix h := hsuffix.length_le.trans h
  cell hcontent h hraw :=
    ((length_cellLines_le_content commentMarker hraw).trans hcontent.length_le).trans h

/-- The document inside a cell is read from the lines of the cell. -/
theorem madeFrom_of_cellOf {raw : RawCell} {inner : Document} (h : CellOf commentMarker raw cell)
    (hinner : inner ∈ cell.inner) :
    ∃ texts, texts.length = (cellLines commentMarker raw).length ∧
      Text.unlines texts = cell.text ∧ MadeFrom commentMarker texts inner := by
  cases (cellRead_of_cellOf h).content with
  | plain _ empty =>
    rw [empty] at hinner
    cases hinner
  | document text holds stands starts read =>
    rw [holds] at hinner
    cases hinner
    refine ⟨_, (length_classifyAll _ _).symm, text.symm, .cell ?_ read⟩
    rw [stands]
    exact starts

/-- The blocks of a document come from no more lines than the texts that it was read from. -/
theorem MadeFrom.origin {texts : List Text} {document : Document}
    (h : MadeFrom commentMarker texts document) :
    AllEverywhere (Origin commentMarker fun lines ↦ lines.length ≤ texts.length)
      document.blocks := by
  cases h with
  | text made =>
    exact origin_of_ofText (lasting_length_le _) (length_classifyAll 1 _).le made
  | @cell _ _ _ before _ starts read =>
    have hlength : before.lines.length ≤ texts.length := by
      rw [starts, length_classifyAll]
    have hmade := (blocksMade_readBlocks commentMarker _ none none .empty before).of_eq_ok read
    exact (hmade.placed (lasting_length_le _) (waits_empty hlength)).mono
      fun _ hheld ↦ hheld.origin (lasting_length_le _)

/-- A document inside a cell is read from fewer lines than the document around it. -/
theorem MadeFrom.exists_fewer {texts : List Text} {document inner : Document}
    (h : MadeFrom commentMarker texts document)
    (hcell : (Element.document document).HasCell cell) (hinner : inner ∈ cell.inner) :
    ∃ fewer, fewer.length < texts.length ∧ Text.unlines fewer = cell.text ∧
      MadeFrom commentMarker fewer inner := by
  cases hcell with
  | inside mem has =>
    obtain ⟨separator, line, rest, content, raw, hline, hcontent, hraw, hread⟩ :=
      exists_raw_of_hasCell (h.origin _ mem) has
    obtain ⟨fewer, hlength, htext, hfrom⟩ := madeFrom_of_cellOf hread hinner
    refine ⟨fewer, ?_, htext, hfrom⟩
    have hcellLines := length_cellLines_le_content commentMarker hraw
    have hprefix := hcontent.length_le
    rw [List.length_cons] at hline
    omega

end Cells

/-- Reading a document comes to an outcome that does not depend on the bound on its steps, provided
that the bound is meant for as many lines as there are, and it does not fail for lack of steps. -/
theorem readDocument_of_le {s : ReadState} {lineCount : Nat} (h : s.lines.length ≤ lineCount) :
    readDocument commentMarker lineCount s = readDocument commentMarker s.lines.length s ∧
      ∀ problem s', readDocument commentMarker s.lines.length s = .error problem s' →
        SpansNothing problem := by
  have hruns : Runs (readDocument commentMarker s.lines.length) s (fun _ _ ↦ True) SpansNothing :=
    runs_readDocument _ s (Nat.le_refl _) (excuses_spansNothing _)
  have hproblem : ∀ problem s',
      readDocument commentMarker s.lines.length s = .error problem s' → SpansNothing problem := by
    intro problem s' heq
    rw [Runs, heq] at hruns
    exact hruns
  refine ⟨?_, hproblem⟩
  have hcompletes : Completes (readDocument commentMarker s.lines.length)
      (readDocument commentMarker lineCount) := completes_readDocument h
  rcases hcompletes s with ⟨s', hout⟩ | hsame
  · obtain ⟨spec, number, heq⟩ := hproblem _ s' hout
    cases heq
  · exact hsame.symm

/-- Reading goes on and ends. Each reader that starts at an index of some lines, at a line of the
kind that it is called for, stops at a later index that is at most the number of the lines, or at a
cell that spans no columns. Behind a continuation line there is no block only at the end of the
lines. A document inside a cell has fewer lines than the document around it. Reading a document ends
in one way, whatever the bound on its steps is, from the number of its lines on, and it never runs
out of them. -/
theorem reading_advances_and_ends (commentMarker : Text) :
    (∀ (lines : List Line) (index : Nat) (line : Line) (rest : List Line) (steps : Nat)
        (s : ReadState) {α : Type} (reading : Reading α),
      lines.drop index = line :: rest → s.lines = lines.drop index →
      stepsFor lines.length ≤ steps → ReaderAt commentMarker steps line rest reading →
      Runs reading s (Advances lines index) SpansNothing) ∧
    (∀ steps metadata s s', readAttached commentMarker steps metadata s = .ok none s' →
      s'.lines = []) ∧
    (∀ texts document, MadeFrom commentMarker texts document →
      ∀ cell, (Element.document document).HasCell cell → ∀ inner ∈ cell.inner,
        ∃ fewer, fewer.length < texts.length ∧ Text.unlines fewer = cell.text ∧
          MadeFrom commentMarker fewer inner) ∧
    (∀ (s : ReadState) (lineCount : Nat), s.lines.length ≤ lineCount →
      readDocument commentMarker lineCount s = readDocument commentMarker s.lines.length s ∧
        ∀ problem s', readDocument commentMarker s.lines.length s = .error problem s' →
          SpansNothing problem) ∧
    ∀ text, (Document.ofText commentMarker text).1 ≠ .error .outOfSteps := by
  refine ⟨fun lines index line rest steps s α reading hindex hs hsteps h ↦
      advances_of_readerAt hindex hs hsteps h,
    fun steps metadata s s' h ↦ lines_of_readAttached_none h,
    fun texts document h cell hcell inner hinner ↦ h.exists_fewer hcell hinner,
    fun s lineCount h ↦ readDocument_of_le h, fun text hout ↦ ?_⟩
  obtain ⟨spec, number, heq⟩ := spansNoColumns_of_ofText hout
  cases heq

/-- The elements of a document whose only block is a table with one cell, which holds a document. -/
def soleInner? (document : Document) : Option (TableCell × Document) :=
  match document.blocks with
  | [.table _ _ [] [[cell]]] => cell.inner.map (cell, ·)
  | _ => none

theorem hasCell_of_soleInner? {document inner : Document} {cell : TableCell}
    (h : soleInner? document = some (cell, inner)) :
    (Element.document document).HasCell cell ∧ inner ∈ cell.inner := by
  rw [soleInner?] at h
  split at h
  · next info columns found hblocks =>
    obtain ⟨other, hother, heq⟩ := Option.map_eq_some_iff.mp h
    cases heq
    have hpart : Element.table info columns [] [[cell]] ∈ document.blocks := by
      rw [hblocks]
      exact List.mem_singleton_self _
    exact ⟨.inside hpart (.here (List.mem_singleton_self _)), hother⟩
  · cases h

/-- A table that is not closed is read past its first line, the document in its cell has two lines
out of three, and the continuation line at the end of that gives no block. -/
theorem advances_unclosed_table :
    let text : Text := "|===\na|* x\n+".toList
    let lines := Line.classifyAll "//".toList 1 text.lines
    let s : ReadState := { ReadState.initial with lines }
    (∃ line rest, lines = line :: rest ∧ line.shape = .tableDelimiter '|' "|===".toList ∧
      Runs (readBlock "//".toList (stepsFor 3) .body .empty line rest) s (Advances lines 0)
        SpansNothing) ∧
    (∃ s', readAttached "//".toList 1 .empty .initial = .ok none s' ∧ s'.lines = []) ∧
    (∃ document cell inner, (Document.ofText "//".toList text).1 = .ok document ∧
      soleInner? document = some (cell, inner) ∧ cell.text = "* x\n+".toList ∧
      ∃ fewer, fewer.length < 3 ∧ Text.unlines fewer = cell.text ∧
        MadeFrom "//".toList fewer inner) ∧
    readDocument "//".toList 7 s = readDocument "//".toList 3 s := by
  intro text lines s
  obtain ⟨hforward, hattached, hcells, hdocument, -⟩ := reading_advances_and_ends "//".toList
  have hshapes : lines.map (·.shape) = [.tableDelimiter '|' "|===".toList,
      .plainText "a|* x".toList, .listContinuation] := by decide +kernel
  have hcount : lines.length = 3 := (List.length_map _).symm.trans (congrArg List.length hshapes)
  refine ⟨?_, ⟨.initial, rfl, hattached 1 .empty .initial .initial rfl⟩, ?_, ?_⟩
  · cases hlines : lines with
    | nil =>
      rw [hlines] at hcount
      cases hcount
    | cons line rest =>
      rw [hlines, List.map_cons] at hshapes
      refine ⟨line, rest, rfl, (List.cons.inj hshapes).1, ?_⟩
      rw [← hlines]
      exact hforward lines 0 line rest _ s _ hlines rfl (hcount ▸ Nat.le_refl _) (.block _ _)
  · obtain ⟨document, hmade, hsole⟩ := exists_of_okAnd (show okAnd
      (Document.ofText "//".toList text).1 (fun document ↦
        (soleInner? document).any fun found ↦ decide (found.1.text = "* x\n+".toList)) = true by
      decide +kernel)
    obtain ⟨⟨cell, inner⟩, hfound, htext⟩ := (Option.any_eq_true _ _).mp hsole
    obtain ⟨hcell, hinner⟩ := hasCell_of_soleInner? hfound
    have hlines : text.lines.length = 3 := by decide +kernel
    refine ⟨document, cell, inner, hmade, hfound, of_decide_eq_true htext, ?_⟩
    have hfewer := hcells text.lines document (.text hmade) cell hcell inner hinner
    rwa [hlines] at hfewer
  · have hsame := (hdocument s 7 (by rw [hcount]; decide)).1
    rwa [hcount] at hsame

end AsciidocSpans.Blocks
