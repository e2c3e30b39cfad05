import AsciidocSpans.Proofs.Blocks.OpenBlocks

/-!
What is reported while lines are read. The warnings that were reported and those about the blocks
which the lines that are left leave open make a whole that does not change (`Expects`). Here that is
said of the readers of single blocks, and of the steps between two blocks. The readers of lists only
stop at lines that the list does not accept (`Stops`), so what is open around the list goes on there
(`Stops.leave`).
-/

set_option autoImplicit false
set_option relaxedAutoImplicit false

namespace AsciidocSpans.Blocks

open Line

/-- The warnings in a log. -/
def warningsOf (log : List LogRecord) : List String :=
  (log.filter (·.level == .warning)).map (·.message)

/-- The warning about a block that is left open, by its opening line. -/
def openWarning (opening : Line) : String :=
  let verbatim (name : Text) : String :=
    s!"Unterminated {String.ofList name} block starting at line {opening.number}"
  match opening.shape with
  | .commentDelimiter _ => s!"Unterminated comment block starting at line {opening.number}"
  | .tableDelimiter .. => s!"Unterminated table starting at line {opening.number}"
  | .fence language => verbatim (if language.isEmpty then "fenced".toList else language)
  | .blockDelimiter kind delimiter =>
    if isVerbatim kind then verbatim kind.name
    else s!"Unterminated block: expected '{String.ofList delimiter}' before end of input"
  | _ => ""

/-- The warnings that were reported, and those about what the lines to be read leave open, are given
ones. -/
def Expects (commentMarker : Text) (frames : List Frame) (mode : Mode) (total : List String)
    (s : ReadState) : Prop :=
  warningsOf s.log ++ (leftOpen commentMarker frames mode s.lines).map openWarning = total

section Steps

variable {commentMarker : Text} {frames further : List Frame} {mode next : Mode}
  {total : List String} {s : ReadState} {line : Line} {rest : List Line} {E : ParseError → Prop}

theorem Expects.of_eq {middle : ReadState} (hs : Expects commentMarker frames mode total s)
    (hlog : warningsOf middle.log = warningsOf s.log)
    (hopen : leftOpen commentMarker frames mode s.lines =
      leftOpen commentMarker further next middle.lines) :
    Expects commentMarker further next total middle := by
  rw [Expects, hlog, ← hopen]
  exact hs

/-- A line is read that just goes on. -/
theorem Expects.on (hs : Expects commentMarker frames mode total s)
    (hlines : s.lines = line :: rest) (hturn : turn frames mode line = .on further next) :
    Expects commentMarker further next total { s with lines := rest } :=
  hs.of_eq rfl (by rw [hlines]; exact leftOpen_on hturn)

/-- There are lines behind a closing line exactly if one of the lines is such a line. -/
theorem isSome_splitAtClosing (closes : Line → Bool) (lines : List Line) :
    (splitAtClosing closes lines).2.isSome = lines.any closes := by
  induction lines with
  | nil => rfl
  | cons line rest ih =>
    rw [splitAtClosing, List.any_cons, ← ih]
    cases closes line <;> rfl

/-- Reading up to a closing line warns if there is none. -/
theorem runs_readUntil_warnings (closes : Shape → Bool) (opening : Line) (s : ReadState) :
    Runs (readUntil (fun line ↦ closes line.shape) (openWarning opening)) s (fun content s' ↦
      content = (splitAtClosing (fun line ↦ closes line.shape) s.lines).1 ∧
      s'.lines = behindClosing (fun line ↦ closes line.shape) s.lines ∧
      warningsOf s'.log =
        warningsOf s.log ++ (unclosed closes opening s.lines).map openWarning) E := by
  rw [readUntil]
  refine Runs.bind_of_eq (x := get) rfl ?_
  unfold behindClosing unclosed
  rw [← isSome_splitAtClosing]
  cases splitAtClosing (fun line ↦ closes line.shape) s.lines with
  | mk content behind =>
    cases behind with
    | some rest =>
      refine Runs.bind_of_eq (x := setLines rest) rfl (runs_pure ⟨rfl, rfl, ?_⟩)
      simp
    | none =>
      refine Runs.bind_of_eq (x := setLines []) rfl
        (Runs.bind_of_eq (x := report _ _) rfl (runs_pure ⟨rfl, rfl, ?_⟩))
      simp [warningsOf]

/-- Reading up to a closing line jumps as far as the turn says. -/
theorem expects_readUntil {closes : Shape → Bool}
    (hs : Expects commentMarker frames mode total s) (hlines : s.lines = line :: rest)
    (hturn : turn frames mode line = .jump closes further next) :
    Runs (readUntil (fun other ↦ closes other.shape) (openWarning line)) { s with lines := rest }
      (fun _ ↦ Expects commentMarker further next total) E := by
  refine (runs_readUntil_warnings closes line _).mono (fun content s' h ↦ ?_) fun _ h ↦ h
  obtain ⟨-, hbehind, hlog⟩ := h
  rw [Expects, hlines, leftOpen_jump hturn, List.map_append, ← List.append_assoc] at hs
  rw [Expects, hbehind, hlog]
  exact hs

end Steps

section Leaves

variable {commentMarker : Text} {frames further : List Frame} {mode next : Mode}
  {total : List String} {s : ReadState} {line : Line} {rest : List Line} {E : ParseError → Prop}

theorem expects_readParagraph (metadata : Metadata)
    (hs : Expects commentMarker frames mode total s) (hlines : s.lines = line :: rest)
    (hturn : turn frames mode line = .on further .paragraph) :
    Runs (readParagraph (placeOf further == .attached) metadata line rest) s
      (fun _ ↦ Expects commentMarker further (.behind false) total) E :=
  Runs.bind_of_eq (x := setLines _) rfl (Runs.bind_of_eq (x := get) rfl
    (runs_pure ((hs.on hlines hturn).of_eq rfl (leftOpen_paragraph further rest))))

theorem expects_readAdmonition (style text : Text)
    (hs : Expects commentMarker frames mode total s) (hlines : s.lines = line :: rest)
    (hturn : turn frames mode line = .on further .paragraph) :
    Runs (readAdmonition (placeOf further == .attached) style text line rest) s
      (fun _ ↦ Expects commentMarker further (.behind false) total) E :=
  Runs.bind_of_eq (x := setLines _) rfl
    (runs_pure ((hs.on hlines hturn).of_eq rfl (leftOpen_paragraph further rest)))

theorem expects_skipCommentBlock {delimiter : Text}
    (hs : Expects commentMarker frames mode total s) (hlines : s.lines = line :: rest)
    (hshape : line.shape = .commentDelimiter delimiter)
    (hturn : turn frames mode line = .jump (· == .commentDelimiter delimiter) further next) :
    Runs (skipCommentBlock delimiter line.number) { s with lines := rest }
      (fun _ ↦ Expects commentMarker further next total) E := by
  have hread : Runs _ _ _ E := expects_readUntil hs hlines hturn
  rw [openWarning, hshape] at hread
  exact hread.bind fun _ _ h ↦ runs_pure h

theorem expects_readVerbatim {closes : Shape → Bool}
    (hs : Expects commentMarker frames mode total s) (hlines : s.lines = line :: rest)
    (hwarning : openWarning line =
      let name := if line.shape.value.isEmpty then "fenced".toList else line.shape.value
      s!"Unterminated {String.ofList name} block starting at line {line.number}")
    (hturn : turn frames mode line = .jump closes further next) :
    Runs (readVerbatim line closes) { s with lines := rest }
      (fun _ ↦ Expects commentMarker further next total) E := by
  have hread : Runs _ _ _ E := expects_readUntil hs hlines hturn
  rw [hwarning] at hread
  exact hread.bind fun _ _ h ↦ runs_pure h

/-- A verbatim block is read up to its closing line; of any other block only the opening line. -/
theorem expects_readVerbatimBlock? {kind : DelimitedKind} {delimiter : Text} (metadata : Metadata)
    (hs : Expects commentMarker frames .start total s) (hlines : s.lines = line :: rest)
    (hclose : closesBlock (terminatorOf frames) line.shape = false)
    (hshape : line.shape = .blockDelimiter kind delimiter) :
    Runs (readVerbatimBlock? metadata line kind delimiter) { s with lines := rest }
      (fun found s' ↦ match found with
        | some _ => Expects commentMarker frames (.behind false) total s'
        | none => isVerbatim kind = false ∧
          Expects commentMarker (.block line :: frames) .start total s') E := by
  have hturn : turn frames .start line = if isVerbatim kind then
      .jump (· == .blockDelimiter kind delimiter) frames (.behind false)
      else .on (.block line :: frames) .start := by
    rw [turn_start hclose, blockTurn, hshape]
  have hverbatim (h : isVerbatim kind = true) :
      Runs (readVerbatim line (· == .blockDelimiter kind delimiter)) { s with lines := rest }
        (fun _ ↦ Expects commentMarker frames (.behind false) total) E := by
    refine expects_readVerbatim hs hlines ?_ (by rw [hturn, if_pos h])
    rw [openWarning, hshape]
    cases kind <;> first | rfl | cases h
  have hother (h : isVerbatim kind = false) :
      Expects commentMarker (.block line :: frames) .start total { s with lines := rest } :=
    hs.on hlines (by rw [hturn, h]; rfl)
  cases kind with
  | listing =>
    exact (hverbatim rfl).bind fun _ _ h ↦ Runs.bind_of_eq (x := get) rfl (runs_pure h)
  | literal => exact (hverbatim rfl).bind fun _ _ h ↦ runs_pure h
  | passthrough => exact (hverbatim rfl).bind fun _ _ h ↦ runs_pure h
  | exampleBlock | sidebar | quote | openBlock => exact runs_pure ⟨rfl, hother rfl⟩

theorem expects_readFenced {language : Text} (hs : Expects commentMarker frames .start total s)
    (hlines : s.lines = line :: rest) (hshape : line.shape = .fence language)
    (hturn : turn frames .start line = .jump isFence frames (.behind false)) :
    Runs (readFenced line language) { s with lines := rest }
      (fun _ ↦ Expects commentMarker frames (.behind false) total) E := by
  have hread : Runs (readVerbatim line isFence) _ _ E :=
    expects_readVerbatim hs hlines (by rw [openWarning, hshape]; rfl) hturn
  exact hread.bind fun _ _ h ↦ runs_pure h

theorem expects_readMacro (number : Int) (name target body : Text)
    (hs : Expects commentMarker frames mode total s) :
    Runs (readMacro number name target body) s
      (fun _ ↦ Expects commentMarker frames mode total) E := by
  rw [readMacro]
  split
  · exact runs_pure hs
  · split
    · exact Runs.bind_of_eq (x := get) rfl (runs_pure hs)
    · exact runs_pure hs

/-- Where the description behind some terms ends, something may be attached to it. -/
theorem runs_readDescriptionStart_leftOpen (commentMarker : Text) (frames : List Frame)
    (run : TermRun) (s : ReadState) :
    Runs (readDescriptionStart run) s (fun start s' ↦ s' = s ∧
      run.leftOpen commentMarker frames =
        leftOpen commentMarker frames (.behind false) start.2.2) fun _ ↦ True := by
  rw [readDescriptionStart]
  cases hdescription : run.description with
  | some description =>
    obtain ⟨number, first⟩ := description
    refine runs_pure ⟨rfl, ?_⟩
    rw [TermRun.leftOpen, hdescription]
    exact leftOpen_text frames run.rest
  | none =>
    have hrun : run.leftOpen commentMarker frames =
        leftOpen commentMarker frames (.terms false) run.rest := by
      rw [TermRun.leftOpen, hdescription]
    have hfallback (h : NextIs (fun line ↦ isItemText line.shape = false) run.rest) :
        Runs (do return (← lastTermLine run.terms, none, run.rest) :
          Reading (Int × Option Text × List Line)) s (fun start s' ↦ s' = s ∧
            run.leftOpen commentMarker frames =
              leftOpen commentMarker frames (.behind false) start.2.2) fun _ ↦ True := by
      rw [lastTermLine]
      cases run.terms.getLast? with
      | none => exact runs_throw trivial
      | some term => exact runs_pure ⟨rfl, hrun.trans (leftOpen_terms_eq_behind h)⟩
    have htext {candidate : Line} {following : List Line}
        (hsignificant : significant run.rest = candidate :: following)
        (hcandidate : isItemText candidate.shape = true) :
        run.leftOpen commentMarker frames =
          leftOpen commentMarker frames (.behind false) (itemTail following).2 := by
      rw [hrun, leftOpen_terms_significant, hsignificant, ← leftOpen_text]
      refine leftOpen_on ?_
      unfold turn
      dsimp only
      rw [if_pos hcandidate]
    dsimp only
    split
    · next candidate following hsignificant =>
      split
      · next hshape => exact runs_pure ⟨rfl, htext hsignificant (by rw [hshape]; rfl)⟩
      · next hshape => exact runs_pure ⟨rfl, htext hsignificant (by rw [hshape]; rfl)⟩
      · next hplain hindented =>
        refine hfallback (nextIs_of_significant hsignificant ?_)
        unfold isItemText
        split
        · next hshape => exact absurd hshape (hplain _)
        · next hshape => exact absurd hshape (hindented _ _)
        · rfl
    · next hnone => exact hfallback (nextIs_of_nil hnone)

end Leaves

section Cells

variable {commentMarker : Text} {s : ReadState} {E : ParseError → Prop}

/-- Reading other lines in between reports what is reported of them. -/
theorem runs_withLines_log {α : Type} {lines : List Line} {reading : Reading α}
    {Q : α → ReadState → Prop} (h : Runs reading { s with lines } Q E) :
    Runs (withLines lines reading) s
      (fun result s' ↦ s'.lines = s.lines ∧ ∃ inner, Q result inner ∧ s'.log = inner.log) E := by
  rw [Runs] at h ⊢
  rw [withLines]
  cases hrun : reading { s with lines } with
  | ok result final =>
    rw [hrun] at h
    exact ⟨rfl, final, h, rfl⟩
  | error problem final =>
    rw [hrun] at h
    exact h

/-- What is reported of a cell are the blocks that its document leaves open. -/
def ReportsCell (commentMarker : Text) (s : ReadState) (raw : RawCell) (s' : ReadState) : Prop :=
  s'.lines = s.lines ∧ warningsOf s'.log =
    warningsOf s.log ++ (leftOpenIn commentMarker raw).map openWarning

theorem runs_mapM_cells {g : RawCell → Reading TableCell}
    (h : ∀ raw s, Runs (g raw) s (fun _ ↦ ReportsCell commentMarker s raw) E)
    (raws : List RawCell) (s : ReadState) :
    Runs (raws.mapM g) s (fun _ s' ↦ s'.lines = s.lines ∧ warningsOf s'.log =
      warningsOf s.log ++ (raws.flatMap (leftOpenIn commentMarker)).map openWarning) E := by
  induction raws generalizing s with
  | nil => exact runs_pure ⟨rfl, (List.append_nil _).symm⟩
  | cons raw rest ih =>
    rw [List.mapM_cons]
    refine (h raw s).bind fun cell middle hcell ↦ (ih middle).bind fun cells final hcells ↦
      runs_pure ⟨hcells.1.trans hcell.1, ?_⟩
    rw [hcells.2, hcell.2, List.flatMap_cons, List.map_append, List.append_assoc]

/-- The style of a cell tells whether it holds a document. -/
theorem runs_readCellStyle (raw : RawCell) (s : ReadState) :
    Runs (readCellStyle
        ((CellSpec.parse? raw.spec).getD { colspan := none, letter := none }).letter) s
      (fun style s' ↦ s' = s ∧ (style = some .asciidoc ↔ raw.isDocument = true)) E := by
  obtain ⟨style, hstyle⟩ := exists_readCellStyle raw.spec s
  rw [Runs, hstyle]
  refine ⟨rfl, ?_⟩
  rw [RawCell.isDocument]
  cases hspec : CellSpec.parse? raw.spec with
  | none =>
    rw [hspec] at hstyle
    cases hstyle
    simp
  | some spec =>
    rw [hspec, Option.getD_some] at hstyle
    rw [Option.bind_some]
    cases hletter : spec.letter with
    | none =>
      rw [hletter] at hstyle
      cases hstyle
      simp
    | some letter =>
      rw [hletter, readCellStyle] at hstyle
      rw [Option.bind_some]
      cases hfound : CellSpec.styleOf? letter with
      | none =>
        rw [hfound] at hstyle
        cases hstyle
      | some found =>
        rw [hfound] at hstyle
        cases hstyle
        simp

end Cells

/-- Blocks are read right inside these frames: in a body, or between the delimiters of a block. -/
inductive Encloses : List Frame → Prop
  | body : Encloses []
  | block {opening : Line} {kind : DelimitedKind} {delimiter : Text} {below : List Frame}
      (shape : opening.shape = .blockDelimiter kind delimiter)
      (container : isVerbatim kind = false) : Encloses (.block opening :: below)

section Enclosed

variable {frames : List Frame}

theorem Encloses.placeOf_ne (h : Encloses frames) : placeOf frames ≠ .attached := by
  cases h <;> simp [placeOf]

theorem Encloses.place (h : Encloses frames) :
    (if (terminatorOf frames).isNone then Place.body else Place.delimited) = placeOf frames := by
  cases h <;> rfl

/-- Where a section may end, no block is open. -/
theorem Encloses.eq_nil_of_endsSection (h : Encloses frames) {level : Option Nat} {shape : Shape}
    (hends : endsSection (terminatorOf frames) level shape = true) :
    frames = [] ∧ level.isSome = true := by
  cases h with
  | body =>
    cases level with
    | none => simp [endsSection] at hends
    | some enclosing => exact ⟨rfl, rfl⟩
  | block hshape hcontainer => simp [endsSection, terminatorOf] at hends

end Enclosed

/-- Whether something is attached to an item, given the markers of the lists that are open. -/
def itemAccepts (markers : List Text) (gap : Bool) : Shape → Bool
  | .listContinuation => !gap
  | .listItem _ marker _ _ => !markers.contains marker
  | .indentedText .. => gap
  | _ => false

/-- Whether something is attached to a description. -/
def descriptionAccepts (delimiter : Text) (gap : Bool) : Shape → Bool
  | .listContinuation => !gap
  | .listItem .. => true
  | .term _ found _ => found ≠ delimiter ∧ delimiter.length < found.length
  | _ => false

/-- The first line that matters, if there is one, is not of a kind. -/
def Past (own : Line → Prop) (lines : List Line) : Prop :=
  NextIs (fun line ↦ ¬own line) lines

section Refusals

variable {lines rest behind : List Line} {line candidate : Line}

/-- A continuation line that does not come first is behind ignorable lines. -/
theorem startsIgnorable_of_continuation (hfirst : line.shape ≠ .listContinuation)
    (h : significant (line :: rest) = candidate :: behind)
    (hcandidate : candidate.shape = .listContinuation) :
    startsIgnorable (line :: rest) = true := by
  by_contra hline
  rw [significant_cons (Bool.eq_false_iff.mpr hline)] at h
  cases h
  exact hfirst hcandidate

/-- Behind the last item of a list come lines that the lists around it do not accept either. -/
theorem Refused.of_items {ancestors : List Text} {marker : Text}
    (h : Refused (itemAccepts (ancestors ++ [marker])) lines)
    (hpast : Past (IsItem marker) lines) : Refused (itemAccepts ancestors) lines := by
  intro line rest hlines
  have hline : itemAccepts (ancestors ++ [marker]) (startsIgnorable lines) line.shape = false :=
    h line rest hlines
  cases hshape : line.shape with
  | listItem kind found text checkbox =>
    have hfound : found ≠ marker := by
      rintro rfl
      exact hpast line rest hlines ⟨kind, text, checkbox, hshape⟩
    rw [hshape] at hline
    simpa [itemAccepts, hfound] using hline
  | _ =>
    rw [hshape] at hline
    exact hline

/-- Behind the last entry of a description list come lines that the list does not accept. -/
theorem Refused.of_entries {delimiter : Text} (h : Refused (descriptionAccepts delimiter) lines)
    (hpast : Past (IsTerm delimiter) lines) : Refused (Frame.entries delimiter).accepts lines := by
  intro line rest hlines
  have hline : descriptionAccepts delimiter (startsIgnorable lines) line.shape = false :=
    h line rest hlines
  cases hshape : line.shape with
  | term text found description =>
    have hfound : found ≠ delimiter := by
      rintro rfl
      exact hpast line rest hlines ⟨text, description, hshape⟩
    rw [hshape] at hline
    simpa [descriptionAccepts, Frame.accepts, hfound] using hline
  | _ =>
    rw [hshape] at hline
    exact hline

end Refusals

/-- What a step of the reading leaves to go on with. -/
def modeBehind : Progress → Mode
  | .pending _ => .start
  | .block _ => .behind false

/-- What a list leaves goes on around the list, at a line that the list does not accept. -/
def Stops (commentMarker : Text) (frames : List Frame) (accepts : Bool → Shape → Bool)
    (total : List String) (s : ReadState) : Prop :=
  Expects commentMarker frames (.behind false) total s ∧ Refused accepts s.lines

/-- Behind the parts of a list no other part comes next, and the list stops. -/
def Finishes (commentMarker : Text) (frames : List Frame) (accepts : Bool → Shape → Bool)
    (own : Line → Prop) (total : List String) (s : ReadState) : Prop :=
  Stops commentMarker frames accepts total s ∧ Past own s.lines

section Expectations

variable {commentMarker : Text} {frames below : List Frame} {frame : Frame} {mode : Mode}
  {total : List String} {s : ReadState} {line : Line} {rest : List Line}

/-- In a body or between delimiters it is the same whether a block has been passed. -/
theorem Expects.start (hframes : placeOf frames ≠ .attached)
    (hs : Expects commentMarker frames (.behind false) total s) :
    Expects commentMarker frames .start total s :=
  hs.of_eq rfl (leftOpen_behind_eq_start hframes false)

theorem Expects.behind (hframes : placeOf frames ≠ .attached)
    (hs : Expects commentMarker frames .start total s) :
    Expects commentMarker frames (.behind false) total s :=
  hs.of_eq rfl (leftOpen_behind_eq_start hframes false).symm

theorem Expects.congr {others : List Frame} {other : Mode}
    (hs : Expects commentMarker frames mode total s) (hlines : s.lines = line :: rest)
    (hturn : turn frames mode line = turn others other line) :
    Expects commentMarker others other total s :=
  hs.of_eq rfl (by rw [hlines]; exact leftOpen_congr hturn)

theorem Expects.significant (hs : Expects commentMarker frames (.behind false) total s)
    (h : Blocks.significant s.lines = line :: rest) :
    Expects commentMarker frames (.behind (startsIgnorable s.lines)) total
      { s with lines := line :: rest } :=
  hs.of_eq rfl (by rw [leftOpen_behind_significant, h, Bool.false_or])

/-- The next item of an open list goes on with its text. -/
theorem Expects.item {marker : Text}
    (hs : Expects commentMarker (.item :: below) (.behind false) total s)
    (h : Blocks.significant s.lines = line :: rest) (hitem : IsItem marker line) :
    Expects commentMarker (.item :: below) .text total { s with lines := rest } :=
  (hs.significant h).on rfl (turn_of_isItem _ hitem)

/-- Behind a list, what is open around it goes on. -/
theorem Stops.leave (h : Stops commentMarker (frame :: below) frame.accepts total s)
    (hframe : frame.opening? = none) : Expects commentMarker below (.behind false) total s :=
  h.1.of_eq rfl (leftOpen_of_refused h.2 hframe)

/-- The end of the input leaves a block open, which is reported. -/
theorem Expects.report_open {opening : Line} {kind : DelimitedKind} {delimiter : Text}
    (hs : Expects commentMarker (.block opening :: below) mode total s) (hlines : s.lines = [])
    (hshape : opening.shape = .blockDelimiter kind delimiter)
    (hcontainer : isVerbatim kind = false) :
    Expects commentMarker below (.behind false) total
      { s with log := s.log ++ [{
          channel := .blockReading, level := .warning
          message :=
            s!"Unterminated block: expected '{String.ofList delimiter}' before end of input" }]
      } := by
  have hwarning : openWarning opening =
      s!"Unterminated block: expected '{String.ofList delimiter}' before end of input" := by
    rw [openWarning, hshape]
    exact if_neg (by rw [hcontainer]; exact Bool.false_ne_true)
  rw [Expects, hlines, leftOpen_nil] at hs ⊢
  rw [← hs, List.filterMap_cons, Frame.opening?, List.map_cons, hwarning]
  simp [warningsOf]

end Expectations

end AsciidocSpans.Blocks
