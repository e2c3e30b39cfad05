import AsciidocSpans.Blocks.Document
import AsciidocSpans.Proofs.Blocks.Lines
import Mathlib.Data.List.TakeWhile

/-!
Reading the document header never fails (`runs_readHeader`). Without a document title all lines are
kept; with one, the header stands on the title's line, and what is left are lines behind that; its
authors are those of the line behind the title (`runs_readHeader_headerAt`). A document is made of
its header and of the blocks that are read behind it (`exists_readBlocks_of_ofText`), the first of
which may stand in a preamble (`wrapPreamble_cases`).
-/

set_option autoImplicit false
set_option relaxedAutoImplicit false

namespace AsciidocSpans.Blocks

variable {E : ParseError → Prop}

/-- Looking for the document title leaves a final part of the lines. -/
theorem runs_scanHeader (opened : Option (Text × Int)) (metadata : Metadata) (lines : List Line)
    (s : ReadState) :
    Runs (scanHeader opened metadata lines) s (fun _ s' ↦ s'.lines <:+ lines) E := by
  induction lines generalizing opened metadata s with
  | nil => cases opened <;> exact List.suffix_rfl
  | cons line rest ih =>
    have hrest : ∀ opened metadata s, Runs (scanHeader opened metadata rest) s
        (fun _ s' ↦ s'.lines <:+ line :: rest) E := fun opened metadata s ↦
      (ih opened metadata s).mono (fun _ _ h ↦ h.trans (List.suffix_cons line rest)) fun _ h ↦ h
    cases opened with
    | some block =>
      obtain ⟨delimiter, number⟩ := block
      rw [scanHeader]
      split
      · exact hrest none metadata s
      · exact hrest _ metadata s
    | none =>
      rw [scanHeader.eq_def]
      dsimp only
      cases hshape : line.shape with
      | blank | comment => exact hrest none metadata s
      | commentDelimiter delimiter => exact hrest _ metadata s
      | attributeEntry name value =>
        exact Runs.bind_of_eq (x := recordEntry name value) rfl (hrest none metadata _)
      | blockAnchor | blockAttributes | blockTitle => exact hrest none _ s
      | _ =>
        exact Runs.bind_of_eq (x := setLines (line :: rest)) rfl (runs_pure List.suffix_rfl)

/-- Reading the entries behind a title leaves a final part of the lines. -/
theorem runs_readHeaderEntries (lines : List Line) (s : ReadState) :
    Runs (readHeaderEntries lines) s (fun _ s' ↦ s'.lines <:+ lines) E := by
  induction lines generalizing s with
  | nil => exact List.suffix_rfl
  | cons line rest ih =>
    have hrest : ∀ s, Runs (readHeaderEntries rest) s
        (fun _ s' ↦ s'.lines <:+ line :: rest) E := fun s ↦
      (ih s).mono (fun _ _ h ↦ h.trans (List.suffix_cons line rest)) fun _ h ↦ h
    rw [readHeaderEntries.eq_def]
    dsimp only
    cases hshape : line.shape with
    | attributeEntry name value =>
      exact Runs.bind_of_eq (x := recordEntry name value) rfl (hrest _)
    | comment => exact hrest s
    | _ => exact List.suffix_rfl

/-- The author line and the revision line are the first ones of the lines behind a title. -/
theorem authorLines_suffix (lines : List Line) : (authorLines lines).2.2 <:+ lines := by
  cases lines with
  | nil => exact List.suffix_rfl
  | cons first rest =>
    rw [authorLines.eq_def]
    dsimp only
    split
    · cases rest with
      | nil => exact List.nil_suffix
      | cons second behind =>
        dsimp only
        split
        · exact (List.suffix_cons second behind).trans (List.suffix_cons first _)
        · exact List.suffix_cons first _
    · exact List.suffix_rfl

/-- The header that a title line makes, given the metadata above it and the lines behind it. -/
def headerAt (metadata : Metadata) (line : Line) (title : Text) (rest : List Line) : HeaderRead :=
  let info :=
    { lineno := line.number, title := some title, id := metadata.id
      attributes := metadata.attributes }
  { header := { info, level := 0, authors := (authorLines rest).1 }
    revision := (authorLines rest).2.1 }

/-- Reading the header succeeds. Without a header it leaves all lines; a header is made at a title
line, and the lines that are left are behind it. -/
theorem runs_readHeader_headerAt (s : ReadState) :
    Runs readHeader s (fun head s' ↦
      (head = none ∧ s'.lines = s.lines) ∨
        ∃ metadata line title rest, head = some (headerAt metadata line title rest) ∧
          line :: rest <:+ s.lines ∧ line.shape = .sectionTitle ['='] title ∧
          s'.lines <:+ rest) E := by
  rw [readHeader]
  refine Runs.bind_of_eq (x := get) rfl ?_
  refine (runs_scanHeader none .empty s.lines s).bind fun metadata scanned hscanned ↦ ?_
  refine Runs.bind_of_eq (x := get) rfl ?_
  cases hlines : scanned.lines with
  | nil => exact Or.inl ⟨rfl, rfl⟩
  | cons line rest =>
    have hnone : Runs (do
        setLines s.lines
        return (none : Option HeaderRead)) scanned (fun head s' ↦
      (head = none ∧ s'.lines = s.lines) ∨
        ∃ metadata line title rest, head = some (headerAt metadata line title rest) ∧
          line :: rest <:+ s.lines ∧ line.shape = .sectionTitle ['='] title ∧
          s'.lines <:+ rest) E := Or.inl ⟨rfl, rfl⟩
    dsimp only
    split
    · next title hshape =>
      refine (runs_readHeaderEntries _ scanned).bind fun _ final hfinal ↦ runs_pure (Or.inr ?_)
      rw [hlines] at hscanned
      exact ⟨metadata, line, title, rest, rfl, hscanned, hshape,
        hfinal.trans (authorLines_suffix rest)⟩
    · exact hnone

/-- A header that was read stands on a title line and has the title of that line. -/
theorem runs_readHeader (s : ReadState) :
    Runs readHeader s (fun head s' ↦
      (head = none ∧ s'.lines = s.lines) ∨
        ∃ read line title rest, head = some read ∧ line :: rest <:+ s.lines ∧
          line.shape = .sectionTitle ['='] title ∧ read.header.info.lineno = line.number ∧
          read.header.info.title = some title ∧ s'.lines <:+ rest) E := by
  refine (runs_readHeader_headerAt s).mono (fun head s' h ↦ ?_) fun _ h ↦ h
  rcases h with hnone | ⟨metadata, line, title, rest, hhead, hlines, hshape, hbehind⟩
  · exact Or.inl hnone
  · exact Or.inr ⟨_, line, title, rest, hhead, hlines, hshape, rfl, rfl, hbehind⟩

/-- A header is read from the start of the lines. -/
theorem runs_readHeader_suffix (s : ReadState) :
    Runs readHeader s (fun _ s' ↦ s'.lines <:+ s.lines) E := by
  refine (runs_readHeader s).mono (fun head s' h ↦ ?_) fun _ h ↦ h
  rcases h with ⟨-, hkept⟩ | ⟨_, line, _, rest, -, htitle, -, -, -, hbehind⟩
  · exact hkept ▸ List.suffix_rfl
  · exact (hbehind.trans (List.suffix_cons line rest)).trans htitle

/-- Without a title line there is no header, and all lines are left. -/
theorem runs_readHeader_of_ne {s : ReadState}
    (h : ∀ line ∈ s.lines, ∀ title, line.shape ≠ .sectionTitle ['='] title) :
    Runs readHeader s (fun head s' ↦ head = none ∧ s'.lines = s.lines) E := by
  refine (runs_readHeader s).mono (fun head s' hhead ↦ ?_) fun _ h ↦ h
  rcases hhead with hnone | ⟨_, line, title, _, -, htitle, hshape, -⟩
  · exact hnone
  · exact absurd hshape (h line (htitle.subset List.mem_cons_self) title)

section Preamble

/-- A preamble is put around the blocks before the first section, or around nothing. -/
theorem wrapPreamble_cases (hasHeader : Bool) (blocks : List Element) :
    wrapPreamble hasHeader blocks = blocks ∨
      ∃ first rest sections, first :: rest ++ sections = blocks ∧
        (∀ block ∈ first :: rest, block.isSection = false) ∧
        wrapPreamble hasHeader blocks =
          .container { lineno := first.lineno } .preamble (first :: rest) :: sections := by
  rw [wrapPreamble]
  split
  · next first rest hbefore =>
    split
    · refine .inr ⟨first, rest, blocks.dropWhile (!·.isSection), ?_, fun block hblock ↦ ?_, ?_⟩
      · rw [← hbefore, List.takeWhile_append_dropWhile]
      · have hfirst := List.mem_takeWhile_imp (hbefore ▸ hblock)
        rwa [Bool.not_eq_true'] at hfirst
      · rw [hbefore]
    · exact .inl rfl
  · exact .inl rfl

theorem wrapPreamble_false (blocks : List Element) : wrapPreamble false blocks = blocks := by
  rw [wrapPreamble]
  split <;> rfl

end Preamble

section Documents

variable {commentMarker text : Text} {document : Document}

/-- Making a document of a text is reading its lines. -/
theorem exists_readDocument_of_ofText
    (h : (Document.ofText commentMarker text).1 = .ok document) :
    ∃ begun last : ReadState, begun.lines = Line.classifyAll commentMarker 1 text.lines ∧
      readDocument commentMarker text.lines.length begun = .ok document last := by
  rw [Document.ofText, outcome] at h
  split at h
  next result log hresult =>
    split at hresult
    · next document final hread =>
      cases hresult
      cases h
      rw [readText] at hread
      obtain ⟨_, cleared, hclear, hwith⟩ := bind_eq_ok.mp hread
      obtain ⟨last, hdocument⟩ := exists_ok_of_withLines hwith
      exact ⟨_, last, rfl, hdocument⟩
    · cases hresult
      cases h

/-- Reading a text is reading its header and its blocks. -/
theorem exists_readBlocks_of_ofText (h : (Document.ofText commentMarker text).1 = .ok document) :
    ∃ (head : Option HeaderRead) (begun before behind : ReadState) (blocks : List Element),
      begun.lines = Line.classifyAll commentMarker 1 text.lines ∧
      readHeader begun = .ok head before ∧
      readBlocks commentMarker (stepsFor text.lines.length) none none .empty before =
        .ok blocks behind ∧
      document.header = head.map (·.header) ∧
      document.blocks = wrapPreamble head.isSome blocks := by
  obtain ⟨begun, last, hbegun, hdocument⟩ := exists_readDocument_of_ofText h
  rw [readDocument] at hdocument
  obtain ⟨head, before, hhead, hrest⟩ := bind_eq_ok.mp hdocument
  obtain ⟨blocks, behind, hblocks, hdone⟩ := bind_eq_ok.mp hrest
  cases hdone
  exact ⟨head, begun, before, _, blocks, hbegun, hhead, hblocks, rfl, rfl⟩

/-- A document starts on the first line of its text. -/
theorem lineno_document_of_ofText (h : (Document.ofText commentMarker text).1 = .ok document) :
    document.info.lineno = 1 := by
  obtain ⟨begun, last, -, hdocument⟩ := exists_readDocument_of_ofText h
  rw [readDocument] at hdocument
  obtain ⟨head, before, -, hrest⟩ := bind_eq_ok.mp hdocument
  obtain ⟨blocks, behind, -, hdone⟩ := bind_eq_ok.mp hrest
  cases hdone
  rfl

end Documents

end AsciidocSpans.Blocks
