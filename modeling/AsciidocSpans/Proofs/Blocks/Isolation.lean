import AsciidocSpans.Blocks.Document
import AsciidocSpans.Proofs.Outcome

/-!
Texts that are read in turn do not influence one another. Whatever an earlier reading left behind,
also one that failed inside a cell, is lines, attributes and records. The next text has lines of its
own and starts without attributes; what remains is that no reader ever looks at the records before
it, but only adds to them. That is a statement about two runs of a reading, from a state and from a
change of it: `Commutes` says that the reading does not notice the change. It holds of every reader
and of further records before the log (`behind_readBlocks` and the theorems beside it).

So the texts make what each of them makes alone (`readInTurn_eq_map_ofText`). Inside a text, the
reading of a cell takes no notice of the lines around the cell and leaves them as they are, also
where it fails (`detached_readCell`).
-/

set_option autoImplicit false
set_option relaxedAutoImplicit false

namespace AsciidocSpans.Blocks

/-- The state in which some records stand before those of another one. -/
def ReadState.behind (log : List LogRecord) (s : ReadState) : ReadState :=
  { s with log := log ++ s.log }

/-- A reading takes no notice of a change of the state: from the changed state it comes to the same
end, with the state that it leaves changed in the same way. -/
def Commutes {α : Type} (change : ReadState → ReadState) (x : Reading α) : Prop :=
  ∀ s, outcome x (change s) = ((outcome x s).1, change (outcome x s).2)

section Closure

variable {α β : Type} {change : ReadState → ReadState} {x : Reading α}

theorem commutes_pure (value : α) : Commutes change (pure value : Reading α) :=
  fun _ ↦ rfl

theorem commutes_throw (problem : ParseError) : Commutes change (throw problem : Reading α) :=
  fun _ ↦ rfl

/-- A sequence has the outcome of its second step, if the first one comes to a result. -/
theorem outcome_bind (x : Reading α) (f : α → Reading β) (s : ReadState) :
    outcome (x >>= f) s = match outcome x s with
      | (.ok value, middle) => outcome (f value) middle
      | (.error problem, middle) => (.error problem, middle) := by
  unfold outcome
  cases h : x s with
  | ok value middle => simp only [bind_of_eq_ok h]
  | error problem middle => simp only [bind_of_eq_error h]

theorem Commutes.bind {f : α → Reading β} (hx : Commutes change x)
    (hf : ∀ value, Commutes change (f value)) : Commutes change (x >>= f) := by
  intro s
  rw [outcome_bind, outcome_bind, hx s]
  cases outcome x s with
  | mk result middle =>
    cases result with
    | ok value => exact hf value middle
    | error problem => rfl

/-- What is looked at of a state is not what is changed. -/
theorem commutes_get_bind {f : ReadState → Reading α} (hsame : ∀ s, f (change s) = f s)
    (hf : ∀ s, Commutes change (f s)) : Commutes change (get >>= f) := by
  intro s
  change outcome (f (change s)) (change s) = ((outcome (f s) s).1, _)
  rw [hsame]
  exact hf s s

theorem Commutes.mapM {f : α → Reading β} (h : ∀ item, Commutes change (f item))
    (items : List α) : Commutes change (items.mapM f) := by
  induction items with
  | nil => exact commutes_pure []
  | cons item rest ih =>
    rw [List.mapM_cons]
    exact (h item).bind fun first ↦ ih.bind fun others ↦ commutes_pure (first :: others)

theorem outcome_withLines (lines : List Line) (x : Reading α) (s : ReadState) :
    outcome (withLines lines x) s = ((outcome x { s with lines }).1,
      { (outcome x { s with lines }).2 with lines := s.lines }) := by
  unfold outcome withLines
  cases x { s with lines } with
  | ok result final => rfl
  | error problem final => rfl

/-- The present lines are of no matter to a reading that has lines of its own. -/
theorem commutes_withLines (others lines : List Line) (x : Reading α) :
    Commutes (fun s ↦ { s with lines := others }) (withLines lines x) := by
  intro s
  rw [outcome_withLines, outcome_withLines]

theorem commutes_readCellStyle (letter : Option Char) :
    Commutes change (readCellStyle letter) := by
  cases letter with
  | none => exact commutes_pure none
  | some letter =>
    rw [readCellStyle]
    split
    · exact commutes_pure _
    · exact commutes_throw _

/-- Of the state a cell only sees what its blocks and the recorded entries are. -/
theorem commutes_readCell_of_blocks {commentMarker : Text} {steps : Nat}
    (hentries : ∀ s, (change s).entries = s.entries)
    (hblocks : ∀ inner, Commutes change
      (withLines inner (readBlocks commentMarker steps none none .empty))) (raw : RawCell) :
    Commutes change (readCell commentMarker (steps + 1) raw) := by
  rw [readCell]
  dsimp only
  refine (commutes_readCellStyle _).bind fun style ↦ ?_
  have hrest {info : ElementInfo} {colspan : Nat} {text plain : Text} {inner : List Line} :
      Commutes change (if style = some .asciidoc then do
          let blocks ← withLines inner (readBlocks commentMarker steps none none .empty)
          let document :=
            { info := { info with attributes := (← get).entries }, header := none, blocks }
          return { info, text, style, colspan, inner := some document }
        else return { info, text := plain, style, colspan, inner := none } :
          Reading TableCell) := by
    split
    · refine (hblocks _).bind fun _ ↦ commutes_get_bind (fun s ↦ ?_) fun _ ↦ commutes_pure _
      rw [hentries]
    · exact commutes_pure _
  split
  · exact (commutes_throw _).bind fun _ ↦ hrest
  · exact hrest

end Closure

section Log

variable {log : List LogRecord} {commentMarker : Text}

theorem behind_setLines (lines : List Line) : Commutes (.behind log) (setLines lines) :=
  fun _ ↦ rfl

theorem behind_recordEntry (name value : Text) : Commutes (.behind log) (recordEntry name value) :=
  fun _ ↦ rfl

theorem behind_report (level : LogLevel) (message : String) :
    Commutes (.behind log) (report level message) := by
  intro s
  refine Prod.ext rfl ?_
  change ({ s with log := (log ++ s.log) ++ [_] } : ReadState) =
    { s with log := log ++ (s.log ++ [_]) }
  rw [List.append_assoc]

theorem behind_withLines {α : Type} {x : Reading α} (h : Commutes (.behind log) x)
    (lines : List Line) : Commutes (.behind log) (withLines lines x) := by
  intro s
  rw [outcome_withLines, outcome_withLines]
  have hs := h { s with lines }
  change outcome x { s.behind log with lines } = _ at hs
  rw [hs]
  rfl

theorem behind_scanHeader (opened : Option (Text × Int)) (metadata : Metadata) (lines : List Line) :
    Commutes (.behind log) (scanHeader opened metadata lines) := by
  induction lines generalizing opened metadata with
  | nil =>
    rw [scanHeader]
    refine (behind_setLines []).bind fun _ ↦ ?_
    cases opened with
    | none => exact commutes_pure metadata
    | some block => exact (behind_report _ _).bind fun _ ↦ commutes_pure metadata
  | cons line rest ih =>
    rw [scanHeader.eq_def]
    dsimp only
    cases opened with
    | some block =>
      dsimp only
      split
      · exact ih none metadata
      · exact ih _ metadata
    | none =>
      dsimp only
      split
      · exact ih none metadata
      · exact ih none metadata
      · exact ih _ metadata
      · exact (behind_recordEntry _ _).bind fun _ ↦ ih none metadata
      · split
        · exact ih none _
        · exact (behind_setLines _).bind fun _ ↦ commutes_pure metadata

theorem behind_readHeaderEntries (lines : List Line) :
    Commutes (.behind log) (readHeaderEntries lines) := by
  induction lines with
  | nil => exact behind_setLines []
  | cons line rest ih =>
    rw [readHeaderEntries]
    split
    · exact (behind_recordEntry _ _).bind fun _ ↦ ih
    · exact ih
    · exact behind_setLines _

theorem behind_readHeader : Commutes (.behind log) readHeader := by
  rw [readHeader]
  refine commutes_get_bind (fun _ ↦ rfl) fun s ↦ (behind_scanHeader _ _ _).bind fun metadata ↦
    commutes_get_bind (fun _ ↦ rfl) fun middle ↦ ?_
  split
  · exact (behind_setLines _).bind fun _ ↦ commutes_pure none
  · split
    · exact (behind_readHeaderEntries _).bind fun _ ↦ commutes_pure _
    · exact (behind_setLines _).bind fun _ ↦ commutes_pure none

theorem behind_readUntil (closes : Line → Bool) (warning : String) :
    Commutes (.behind log) (readUntil closes warning) := by
  rw [readUntil]
  refine commutes_get_bind (fun _ ↦ rfl) fun s ↦ ?_
  split
  split
  · exact (behind_setLines _).bind fun _ ↦ commutes_pure _
  · exact (behind_setLines _).bind fun _ ↦ (behind_report _ _).bind fun _ ↦ commutes_pure _

theorem behind_skipCommentBlock (delimiter : Text) (number : Int) :
    Commutes (.behind log) (skipCommentBlock delimiter number) :=
  (behind_readUntil _ _).bind fun _ ↦ commutes_pure ()

theorem behind_readVerbatim (opening : Line) (closes : Line.Shape → Bool) :
    Commutes (.behind log) (readVerbatim opening closes) :=
  (behind_readUntil _ _).bind fun _ ↦ commutes_pure _

theorem behind_readVerbatimBlock? (metadata : Metadata) (opening : Line) (kind : DelimitedKind)
    (delimiter : Text) :
    Commutes (.behind log) (readVerbatimBlock? metadata opening kind delimiter) := by
  cases kind with
  | listing =>
    exact (behind_readVerbatim opening _).bind fun _ ↦
      commutes_get_bind (fun _ ↦ rfl) fun _ ↦ commutes_pure _
  | literal => exact (behind_readVerbatim opening _).bind fun _ ↦ commutes_pure _
  | passthrough => exact (behind_readVerbatim opening _).bind fun _ ↦ commutes_pure _
  | _ => exact commutes_pure none

theorem behind_readFenced (opening : Line) (language : Text) :
    Commutes (.behind log) (readFenced opening language) :=
  (behind_readVerbatim opening _).bind fun _ ↦ commutes_pure _

theorem behind_readMacro (number : Int) (name target body : Text) :
    Commutes (.behind log) (readMacro number name target body) := by
  rw [readMacro]
  split
  · exact commutes_pure _
  · split
    · exact commutes_get_bind (fun _ ↦ rfl) fun _ ↦ commutes_pure _
    · exact commutes_pure _

theorem behind_readParagraph (attached : Bool) (metadata : Metadata) (first : Line)
    (rest : List Line) : Commutes (.behind log) (readParagraph attached metadata first rest) :=
  (behind_setLines _).bind fun _ ↦ commutes_get_bind (fun _ ↦ rfl) fun _ ↦ commutes_pure _

theorem behind_readAdmonition (attached : Bool) (style text : Text) (first : Line)
    (rest : List Line) : Commutes (.behind log) (readAdmonition attached style text first rest) :=
  (behind_setLines _).bind fun _ ↦ commutes_pure _

theorem behind_lastTermLine (terms : List ListItem) :
    Commutes (.behind log) (lastTermLine terms) := by
  rw [lastTermLine]
  split
  · exact commutes_pure _
  · exact commutes_throw _

theorem behind_readDescriptionStart (run : TermRun) :
    Commutes (.behind log) (readDescriptionStart run) := by
  rw [readDescriptionStart]
  split
  · exact commutes_pure _
  · split
    · split
      · exact commutes_pure _
      · exact commutes_pure _
      · exact (behind_lastTermLine _).bind fun _ ↦ commutes_pure _
    · exact (behind_lastTermLine _).bind fun _ ↦ commutes_pure _

mutual

/-- No reader looks at the log. The induction is on the steps. -/
theorem behind_readBlocks (steps : Nat) (terminator : Option Text) (level : Option Nat)
    (metadata : Metadata) :
    Commutes (.behind log) (readBlocks commentMarker steps terminator level metadata) := by
  match steps with
  | 0 => exact commutes_throw _
  | steps + 1 =>
    rw [readBlocks]
    refine commutes_get_bind (fun _ ↦ rfl) fun s ↦ ?_
    split
    · cases terminator with
      | none => exact commutes_pure []
      | some delimiter => exact (behind_report _ _).bind fun _ ↦ commutes_pure []
    · split
      · exact (behind_setLines _).bind fun _ ↦ commutes_pure []
      · split
        · exact commutes_pure []
        · refine (behind_readBlock steps _ metadata _ _).bind fun progress ↦ ?_
          cases progress with
          | pending waiting => exact behind_readBlocks steps terminator level waiting
          | block element =>
            exact (behind_readBlocks steps terminator level .empty).bind fun _ ↦ commutes_pure _

theorem behind_readBlock (steps : Nat) (place : Place) (metadata : Metadata) (line : Line)
    (rest : List Line) :
    Commutes (.behind log) (readBlock commentMarker steps place metadata line rest) := by
  match steps with
  | 0 => exact commutes_throw _
  | steps + 1 =>
    have hblock {x : Reading Element} (h : Commutes (.behind log) x) (f : Element → Element) :
        Commutes (.behind log) (x >>= fun element ↦ pure (Progress.block (f element))) :=
      h.bind fun _ ↦ commutes_pure _
    rw [readBlock]
    cases line.shape with
    | blank | comment | blockAnchor | blockAttributes | blockTitle =>
      exact (behind_setLines rest).bind fun _ ↦ commutes_pure _
    | commentDelimiter delimiter =>
      exact (behind_setLines rest).bind fun _ ↦ (behind_skipCommentBlock _ _).bind fun _ ↦
        commutes_pure _
    | attributeEntry name value =>
      exact (behind_recordEntry name value).bind fun _ ↦ (behind_setLines rest).bind fun _ ↦
        commutes_pure _
    | sectionTitle marker title =>
      dsimp only
      split
      · exact (behind_setLines rest).bind fun _ ↦
          hblock (behind_readSection steps metadata line.number marker title) id
      · exact hblock (behind_readParagraph _ metadata line rest) _
    | tableDelimiter separator delimiter =>
      exact (behind_setLines rest).bind fun _ ↦
        hblock (behind_readTable steps metadata line.number separator) id
    | blockDelimiter kind delimiter =>
      refine (behind_setLines rest).bind fun _ ↦
        (behind_readVerbatimBlock? metadata line kind delimiter).bind fun found ↦ ?_
      cases found with
      | some element => exact commutes_pure _
      | none =>
        exact (behind_readBlocks steps (some delimiter) none .empty).bind fun _ ↦ commutes_pure _
    | fence language =>
      exact (behind_setLines rest).bind fun _ ↦ hblock (behind_readFenced line language) _
    | blockMacro name target body =>
      exact (behind_setLines rest).bind fun _ ↦
        hblock (behind_readMacro line.number name target body) _
    | listItem kind marker text checkbox =>
      exact hblock (behind_readList steps [] line.number kind marker) _
    | term text delimiter description =>
      exact hblock (behind_readDescriptionList steps line.number delimiter) _
    | thematicBreak | pageBreak => exact (behind_setLines rest).bind fun _ ↦ commutes_pure _
    | admonition style text => exact hblock (behind_readAdmonition _ style text line rest) _
    | listContinuation | indentedText | plainText =>
      exact hblock (behind_readParagraph _ metadata line rest) _

theorem behind_readSection (steps : Nat) (metadata : Metadata) (number : Int)
    (marker title : Text) :
    Commutes (.behind log) (readSection commentMarker steps metadata number marker title) := by
  match steps with
  | 0 => exact commutes_throw _
  | steps + 1 =>
    have hrest : Commutes (.behind log) (do
        let blocks ← readBlocks commentMarker steps none (some (marker.length - 1)) .empty
        return { metadata with title := none }.attach
          (.titledSection { lineno := number, title := some title } (marker.length - 1 : Nat)
            blocks)) :=
      (behind_readBlocks steps none _ .empty).bind fun _ ↦ commutes_pure _
    rw [readSection]
    split
    · exact commutes_pure _
    · dsimp only
      split
      · exact (behind_report _ _).bind fun _ ↦ hrest
      · exact hrest

theorem behind_readList (steps : Nat) (ancestors : List Text) (number : Int) (kind : ListKind)
    (marker : Text) :
    Commutes (.behind log) (readList commentMarker steps ancestors number kind marker) := by
  match steps with
  | 0 => exact commutes_throw _
  | steps + 1 =>
    rw [readList]
    exact (behind_readItems steps (ancestors ++ [marker]) marker).bind fun _ ↦ commutes_pure _

theorem behind_readItems (steps : Nat) (markers : List Text) (marker : Text) :
    Commutes (.behind log) (readItems commentMarker steps markers marker) := by
  match steps with
  | 0 => exact commutes_throw _
  | steps + 1 =>
    rw [readItems]
    refine commutes_get_bind (fun _ ↦ rfl) fun s ↦ ?_
    split
    · exact commutes_pure []
    · split
      · split
        · exact (behind_readItem steps markers _ _ _ _).bind fun _ ↦
            (behind_readItems steps markers marker).bind fun _ ↦ commutes_pure _
        · exact commutes_pure []
      · exact commutes_pure []

theorem behind_readItem (steps : Nat) (markers : List Text) (number : Int) (first : Text)
    (checkbox : Option Checkbox) (rest : List Line) :
    Commutes (.behind log) (readItem commentMarker steps markers number first checkbox rest) := by
  match steps with
  | 0 => exact commutes_throw _
  | steps + 1 =>
    rw [readItem]
    exact (behind_setLines _).bind fun _ ↦
      (behind_readAttachments steps markers).bind fun _ ↦ commutes_pure _

theorem behind_readAttachments (steps : Nat) (markers : List Text) :
    Commutes (.behind log) (readAttachments commentMarker steps markers) := by
  match steps with
  | 0 => exact commutes_throw _
  | steps + 1 =>
    have hmore (f : List Element → List Element) :
        Commutes (.behind log) (readAttachments commentMarker steps markers >>=
          fun others ↦ pure (f others)) :=
      (behind_readAttachments steps markers).bind fun _ ↦ commutes_pure _
    rw [readAttachments]
    refine commutes_get_bind (fun _ ↦ rfl) fun s ↦ ?_
    split
    · exact commutes_pure []
    · split
      · exact (behind_setLines _).bind fun _ ↦ (behind_readAttached steps .empty).bind fun _ ↦
          hmore _
      · split
        · exact commutes_pure []
        · split
          · split
            · exact commutes_pure []
            · exact (behind_setLines _).bind fun _ ↦
                (behind_readList steps markers _ _ _).bind fun _ ↦ hmore _
          · split
            · exact (behind_setLines _).bind fun _ ↦ hmore _
            · exact commutes_pure []
          · exact commutes_pure []

theorem behind_readAttached (steps : Nat) (metadata : Metadata) :
    Commutes (.behind log) (readAttached commentMarker steps metadata) := by
  match steps with
  | 0 => exact commutes_throw _
  | steps + 1 =>
    rw [readAttached]
    refine commutes_get_bind (fun _ ↦ rfl) fun s ↦ ?_
    split
    · exact commutes_pure none
    · refine (behind_readBlock steps .attached metadata _ _).bind fun progress ↦ ?_
      cases progress with
      | pending waiting => exact behind_readAttached steps waiting
      | block element => exact commutes_pure _

theorem behind_readDescriptionList (steps : Nat) (number : Int) (delimiter : Text) :
    Commutes (.behind log) (readDescriptionList commentMarker steps number delimiter) := by
  match steps with
  | 0 => exact commutes_throw _
  | steps + 1 =>
    rw [readDescriptionList]
    exact (behind_readEntries steps delimiter).bind fun _ ↦ commutes_pure _

theorem behind_readEntries (steps : Nat) (delimiter : Text) :
    Commutes (.behind log) (readEntries commentMarker steps delimiter) := by
  match steps with
  | 0 => exact commutes_throw _
  | steps + 1 =>
    rw [readEntries]
    refine commutes_get_bind (fun _ ↦ rfl) fun s ↦ ?_
    split
    · exact commutes_pure []
    · split
      · split
        · exact (behind_readEntry steps delimiter _).bind fun _ ↦
            (behind_readEntries steps delimiter).bind fun _ ↦ commutes_pure _
        · exact commutes_pure []
      · exact commutes_pure []

theorem behind_readEntry (steps : Nat) (delimiter : Text) (lines : List Line) :
    Commutes (.behind log) (readEntry commentMarker steps delimiter lines) := by
  match steps with
  | 0 => exact commutes_throw _
  | steps + 1 =>
    rw [readEntry]
    exact (behind_readDescriptionStart _).bind fun _ ↦ (behind_setLines _).bind fun _ ↦
      (behind_readDescriptionAttachments steps delimiter).bind fun _ ↦ commutes_pure _

theorem behind_readDescriptionAttachments (steps : Nat) (delimiter : Text) :
    Commutes (.behind log) (readDescriptionAttachments commentMarker steps delimiter) := by
  match steps with
  | 0 => exact commutes_throw _
  | steps + 1 =>
    have hmore (f : List Element → List Element) :
        Commutes (.behind log) (readDescriptionAttachments commentMarker steps delimiter >>=
          fun others ↦ pure (f others)) :=
      (behind_readDescriptionAttachments steps delimiter).bind fun _ ↦ commutes_pure _
    rw [readDescriptionAttachments]
    refine commutes_get_bind (fun _ ↦ rfl) fun s ↦ ?_
    split
    · exact commutes_pure []
    · split
      · exact (behind_setLines _).bind fun _ ↦ (behind_readAttached steps .empty).bind fun _ ↦
          hmore _
      · split
        · exact commutes_pure []
        · split
          · exact (behind_setLines _).bind fun _ ↦
              (behind_readList steps [] _ _ _).bind fun _ ↦ hmore _
          · split
            · exact (behind_setLines _).bind fun _ ↦
                (behind_readDescriptionList steps _ _).bind fun _ ↦ hmore _
            · exact commutes_pure []
          · exact commutes_pure []

theorem behind_readTable (steps : Nat) (metadata : Metadata) (number : Int) (separator : Char) :
    Commutes (.behind log) (readTable commentMarker steps metadata number separator) := by
  match steps with
  | 0 => exact commutes_throw _
  | steps + 1 =>
    rw [readTable]
    refine (behind_readUntil _ _).bind fun content ↦ ?_
    split
    · exact (Commutes.mapM (fun raw ↦ behind_readCell steps raw) _).bind fun _ ↦ commutes_pure _
    · exact commutes_pure _

theorem behind_readCell (steps : Nat) (raw : RawCell) :
    Commutes (.behind log) (readCell commentMarker steps raw) := by
  match steps with
  | 0 => exact commutes_throw _
  | steps + 1 =>
    refine commutes_readCell_of_blocks ?_
      (fun inner ↦ behind_withLines (behind_readBlocks steps none none .empty) inner) raw
    exact fun _ ↦ rfl

end

theorem behind_readDocument (lineCount : Nat) :
    Commutes (.behind log) (readDocument commentMarker lineCount) := by
  rw [readDocument]
  exact behind_readHeader.bind fun head ↦
    (behind_readBlocks (stepsFor lineCount) none none .empty).bind fun blocks ↦
      commutes_get_bind (fun _ ↦ rfl) fun _ ↦ commutes_pure _

end Log

section Cells

variable {commentMarker : Text} {lines : List Line}

/-- The reading of a cell takes no notice of the lines around the cell. -/
theorem commutes_readCell (steps : Nat) (raw : RawCell) :
    Commutes (fun s ↦ { s with lines }) (readCell commentMarker steps raw) := by
  cases steps with
  | zero => exact commutes_throw _
  | succ steps =>
    refine commutes_readCell_of_blocks ?_ (fun inner ↦ commutes_withLines lines inner _) raw
    exact fun _ ↦ rfl

/-- A reading leaves the lines that are being read as they are, also where it fails, and whatever
they are it comes to the same end. -/
def Detached {α : Type} (x : Reading α) : Prop :=
  ∀ s, (outcome x s).2.lines = s.lines ∧ ∀ lines, outcome x { s with lines } =
    ((outcome x s).1, { (outcome x s).2 with lines })

theorem detached_readCell (steps : Nat) (raw : RawCell) :
    Detached (readCell commentMarker steps raw) := by
  intro s
  refine ⟨?_, fun lines ↦ commutes_readCell steps raw s⟩
  have hs : outcome (readCell commentMarker steps raw) s =
      ((outcome (readCell commentMarker steps raw) s).1,
        { (outcome (readCell commentMarker steps raw) s).2 with lines := s.lines }) :=
    commutes_readCell steps raw s
  rw [hs]

end Cells

section Texts

variable {commentMarker : Text}

/-- From any state, a text makes what it makes alone, and adds the same records to the log. -/
theorem outcome_readText (text : Text) (s : ReadState) :
    outcome (readText commentMarker text) s = ((Document.ofText commentMarker text).1,
      { lines := s.lines
        entries := (outcome (readText commentMarker text) .initial).2.entries
        log := s.log ++ (Document.ofText commentMarker text).2 }) := by
  -- the text alone is read from its own lines with an empty log; here the log goes before it
  let own : ReadState :=
    { lines := Line.classifyAll commentMarker 1 text.lines, entries := ∅, log := [] }
  let alone := outcome (readDocument commentMarker text.lines.length) own
  have hread (start : ReadState) : outcome (readText commentMarker text) start =
      ((outcome (readDocument commentMarker text.lines.length) { own with log := start.log }).1,
        { (outcome (readDocument commentMarker text.lines.length)
          { own with log := start.log }).2 with lines := start.lines }) := by
    change outcome (withLines _ _) { start with entries := ∅ } = _
    rw [outcome_withLines]
  have hinitial : outcome (readText commentMarker text) .initial =
      (alone.1, { alone.2 with lines := [] }) := hread .initial
  have hstart : ({ own with log := s.log } : ReadState) = own.behind s.log := by
    change _ = ({ own with log := s.log ++ [] } : ReadState)
    rw [List.append_nil]
  have halone : Document.ofText commentMarker text = (alone.1, alone.2.log) := by
    rw [Document.ofText, hinitial]
  rw [hread, hstart, behind_readDocument _ own, halone, hinitial]
  rfl

/-- What each of some texts that are read in turn makes, with the records that it adds to the log,
and the state that they leave. -/
def readInTurn (commentMarker : Text) (s : ReadState) :
    List Text → List (Except ParseError Document × List LogRecord) × ReadState
  | [] => ([], s)
  | text :: rest =>
    let (result, middle) := outcome (readText commentMarker text) s
    let (others, final) := readInTurn commentMarker middle rest
    ((result, middle.log.drop s.log.length) :: others, final)

/-- Texts that are read in turn, whatever was read before, make what each of them makes alone, with
the same records; they leave the lines that are being read as they are. Inside a text, so does the
reading of a cell, whether it comes to a result or fails, and it takes no notice of those lines. -/
theorem readInTurn_eq_map_ofText (commentMarker : Text) (s : ReadState) (texts : List Text) :
    (readInTurn commentMarker s texts).1 = texts.map (Document.ofText commentMarker) ∧
    (readInTurn commentMarker s texts).2.lines = s.lines ∧
    (readInTurn commentMarker s texts).2.log =
      s.log ++ texts.flatMap (fun text ↦ (Document.ofText commentMarker text).2) ∧
    readTexts commentMarker s texts =
      texts.map (fun text ↦ (Document.ofText commentMarker text).1) ∧
    ∀ (steps : Nat) (raw : RawCell), Detached (readCell commentMarker steps raw) := by
  induction texts generalizing s with
  | nil => exact ⟨rfl, rfl, (List.append_nil _).symm, rfl, detached_readCell⟩
  | cons text rest ih =>
    have htext : outcome (readText commentMarker text) s = _ := outcome_readText text s
    obtain ⟨hresults, hlines, hlog, hshort, hcells⟩ :=
      ih (outcome (readText commentMarker text) s).2
    rw [readInTurn, readTexts]
    rw [htext] at hresults hlines hlog hshort ⊢
    dsimp only at hresults hlines hlog hshort ⊢
    refine ⟨?_, hlines, ?_, ?_, hcells⟩
    · rw [hresults, List.drop_left, List.map_cons]
    · rw [hlog, List.flatMap_cons, List.append_assoc]
    · rw [hshort, List.map_cons]

end Texts

end AsciidocSpans.Blocks
