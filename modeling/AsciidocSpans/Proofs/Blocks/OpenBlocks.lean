import AsciidocSpans.Proofs.Blocks.Grammar

/-!
The blocks that some lines leave open, told without reading them into blocks. The lines are gone
through once, from the first one to the last. What is known on the way is what is open, the
innermost first (`Frame`), and what the lines go on with (`Mode`); `turn` says what a line does to
both. Lines between the delimiters of a listing, of a comment block or of a table are jumped over,
and where there is no closing line, the block is left open; the cells of a table that hold documents
are gone through on their own. At the end of the lines all blocks that are still open are left open.

Lists matter only for what may be attached to them. So the items of nested lists count as one frame,
and a frame is left at the first line that it does not accept (`Frame.accepts`).

`leftOpen_behind_significant` and the lemmas behind it say what a run of lines does: ignorable
lines, the tail of a paragraph or of an item, terms.
-/

set_option autoImplicit false
set_option relaxedAutoImplicit false

namespace AsciidocSpans.Blocks

open Line

/-- Something that is open around a line: a delimited block of other blocks with its opening line,
the items of a list, or the entries of a description list with a delimiter. -/
inductive Frame where
  | block (opening : Line)
  | item
  | entries (delimiter : Text)
  deriving DecidableEq, Repr

/-- What lines may go on with: a block, a paragraph, the text of an item, the description behind
terms, or whatever may stand behind a block. For the last two it matters whether ignorable lines
have been passed. -/
inductive Mode where
  | start
  | paragraph
  | text
  | terms (gap : Bool)
  | behind (gap : Bool)
  deriving DecidableEq, Repr

/-- What a line does: the lines behind it go on, or there is content up to a closing line first,
which is jumped over, or the content of a table. -/
inductive Turn where
  | on (frames : List Frame) (mode : Mode)
  | jump (closes : Shape → Bool) (frames : List Frame) (mode : Mode)
  | table (separator : Char) (frames : List Frame)

/-- The opening line of a delimited block that is open. -/
def Frame.opening? : Frame → Option Line
  | .block opening => some opening
  | .item | .entries _ => none

/-- Whether a line goes on with what is open. Continuation lines have to follow directly, indented
lines must not, and a description list goes on with its own terms and those of longer delimiters. -/
def Frame.accepts : Frame → (gap : Bool) → Shape → Bool
  | .block _, _, _ => true
  | .item, gap, shape =>
    match shape with
    | .listContinuation => !gap
    | .listItem .. => true
    | .indentedText .. => gap
    | _ => false
  | .entries delimiter, gap, shape =>
    match shape with
    | .listContinuation => !gap
    | .listItem .. => true
    | .term _ found _ => found = delimiter ∨ delimiter.length < found.length
    | _ => false

/-- Where a block stands, given what is open around it. -/
def placeOf : List Frame → Place
  | [] => .body
  | .block _ :: _ => .delimited
  | .item :: _ | .entries _ :: _ => .attached

/-- The delimiter that closes what is open, if a delimiter does. -/
def terminatorOf : List Frame → Option Text
  | .block opening :: _ => some opening.shape.marker
  | _ => none

/-- What is open around the text of an item: one frame is enough for the items of nested lists. -/
def withItem : List Frame → List Frame
  | .item :: below => .item :: below
  | frames => .item :: frames

/-- What follows a term: its description goes on, or it is still to come. -/
def afterTerm : Option Text → Mode
  | some _ => .text
  | none => .terms false

/-- What a line does that may start a block. -/
def blockTurn (frames : List Frame) (line : Line) : Turn :=
  match line.shape with
  | .blank | .comment _ | .attributeEntry .. | .blockAnchor .. | .blockAttributes _
  | .blockTitle _ => .on frames .start
  | .commentDelimiter delimiter => .jump (· == .commentDelimiter delimiter) frames .start
  | .sectionTitle .. =>
    if placeOf frames = .body then .on frames .start else .on frames .paragraph
  | .tableDelimiter separator _ => .table separator frames
  | .blockDelimiter kind delimiter =>
    if isVerbatim kind then .jump (· == .blockDelimiter kind delimiter) frames (.behind false)
    else .on (.block line :: frames) .start
  | .fence _ => .jump isFence frames (.behind false)
  | .blockMacro .. | .thematicBreak | .pageBreak => .on frames (.behind false)
  | .listItem .. => .on (withItem frames) .text
  | .term _ delimiter description => .on (.entries delimiter :: frames) (afterTerm description)
  | .admonition .. | .listContinuation | .indentedText .. | .plainText _ => .on frames .paragraph

/-- What a line does where a block may start: it closes the block around it, or it may start one. -/
def startTurn (frames : List Frame) (line : Line) : Turn :=
  if closesBlock (terminatorOf frames) line.shape then .on frames.tail (.behind false)
  else blockTurn frames line

/-- What a line does that goes on with what is open; elsewhere a block may start. -/
def acceptedTurn (frames : List Frame) (line : Line) : Turn :=
  if placeOf frames = .attached then
    match line.shape with
    | .listContinuation => .on frames .start
    | .listItem .. => .on (withItem frames) .text
    | .term _ delimiter description =>
      if frames.head? = some (.entries delimiter) then .on frames (afterTerm description)
      else .on (.entries delimiter :: frames) (afterTerm description)
    | _ => .on frames .paragraph
  else startTurn frames line

/-- What a line does behind a block. What does not accept it is left. -/
def behindTurn (frames : List Frame) (gap : Bool) (line : Line) : Turn :=
  if line.shape.isIgnorable then .on frames (.behind true)
  else acceptedTurn (frames.dropWhile fun frame ↦ !frame.accepts gap line.shape) line

/-- Whether a line goes on with the text of an item, comments apart. -/
def isItemText : Shape → Bool
  | .plainText _ | .indentedText .. => true
  | _ => false

/-- What a line does. -/
def turn (frames : List Frame) (mode : Mode) (line : Line) : Turn :=
  match mode with
  | .start => startTurn frames line
  | .paragraph =>
    if line.shape = .blank ∨ endsParagraph (placeOf frames == .attached) line.shape then
      behindTurn frames false line
    else .on frames .paragraph
  | .text =>
    match line.shape with
    | .plainText _ | .indentedText .. | .comment _ => .on frames .text
    | _ => behindTurn frames false line
  | .terms gap =>
    if isItemText line.shape then .on frames .text
    else if line.shape.isIgnorable then .on frames (.terms true)
    else behindTurn frames gap line
  | .behind gap => behindTurn frames gap line

/-- The opening line of a block, if none of the lines behind it closes the block. -/
def unclosed (closes : Shape → Bool) (opening : Line) (rest : List Line) : List Line :=
  if rest.any fun line ↦ closes line.shape then [] else [opening]

theorem unclosed_cons (closes : Shape → Bool) (opening line : Line) (rest : List Line) :
    unclosed closes opening (line :: rest) =
      if closes line.shape then [] else unclosed closes opening rest := by
  rw [unclosed, List.any_cons]
  cases closes line.shape <;> rfl

theorem behindClosing_cons (closes : Line → Bool) (line : Line) (rest : List Line) :
    behindClosing closes (line :: rest) =
      if closes line then rest else behindClosing closes rest := by
  rw [behindClosing, splitAtClosing]
  split <;> rfl

/-- Whether a cell holds a document of its own. -/
def RawCell.isDocument (raw : RawCell) : Bool :=
  ((CellSpec.parse? raw.spec).bind (·.letter)).bind CellSpec.styleOf? == some .asciidoc

/-- The cells of a table that are read, given the lines behind its opening line. -/
def tableCells (separator : Char) (rest : List Line) : List RawCell :=
  if separator = '|' ∨ separator = '!' then
    (gatherCells separator (tableContent separator rest)).2
  else []

section Sizes

variable {commentMarker : Text}

theorem length_behindClosing_le (closes : Line → Bool) (lines : List Line) :
    (behindClosing closes lines).length ≤ lines.length :=
  (splitAtClosing_suffix closes lines).1.length_le

theorem length_cellLines_of_mem {separator : Char} {rest : List Line} {raw : RawCell}
    (h : raw ∈ tableCells separator rest) :
    (cellLines commentMarker raw).length ≤ rest.length := by
  have hraw : raw ∈ (gatherCells separator (tableContent separator rest)).2 := by
    rw [tableCells] at h
    split at h
    · exact h
    · simp at h
  have hcontent : (tableContent separator rest).length ≤ rest.length :=
    (splitAtClosing_suffix _ rest).2.length_le
  exact Nat.le_trans (length_cellLines_le_content commentMarker hraw) hcontent

end Sizes

/-- The opening lines of the blocks that some lines leave open, given what is open around them and
what they go on with: first those that are reported first. -/
def leftOpen (commentMarker : Text) (frames : List Frame) (mode : Mode) (lines : List Line) :
    List Line :=
  match lines with
  | [] => frames.filterMap Frame.opening?
  | line :: rest =>
    match turn frames mode line with
    | .on further next => leftOpen commentMarker further next rest
    | .jump closes further next =>
      unclosed closes line rest ++ leftOpen commentMarker further next
        (behindClosing (fun other ↦ closes other.shape) rest)
    | .table separator further =>
      unclosed (closesTable separator) line rest ++
        ((tableCells separator rest).attach.flatMap fun raw ↦
          if raw.1.isDocument then leftOpen commentMarker [] .start (cellLines commentMarker raw.1)
          else []) ++
        leftOpen commentMarker further (.behind false) (behindTable separator rest)
termination_by lines.length
decreasing_by
  · exact Nat.lt_succ_self _
  · exact Nat.lt_succ_of_le (length_behindClosing_le _ _)
  · exact Nat.lt_succ_of_le (length_cellLines_of_mem raw.2)
  · exact Nat.lt_succ_of_le (length_behindClosing_le _ _)

/-- The opening lines of the blocks that the document in a cell leaves open, if there is one. -/
def leftOpenIn (commentMarker : Text) (raw : RawCell) : List Line :=
  if raw.isDocument then leftOpen commentMarker [] .start (cellLines commentMarker raw) else []

section Turns

variable {commentMarker : Text} {frames further : List Frame} {mode next : Mode} {line : Line}
  {rest : List Line}

theorem leftOpen_nil (frames : List Frame) (mode : Mode) :
    leftOpen commentMarker frames mode [] = frames.filterMap Frame.opening? := by
  rw [leftOpen]

theorem leftOpen_on (h : turn frames mode line = .on further next) :
    leftOpen commentMarker frames mode (line :: rest) =
      leftOpen commentMarker further next rest := by
  rw [leftOpen, h]

theorem leftOpen_jump {closes : Shape → Bool}
    (h : turn frames mode line = .jump closes further next) :
    leftOpen commentMarker frames mode (line :: rest) = unclosed closes line rest ++
      leftOpen commentMarker further next
        (behindClosing (fun other ↦ closes other.shape) rest) := by
  rw [leftOpen, h]

theorem leftOpen_table {separator : Char} (h : turn frames mode line = .table separator further) :
    leftOpen commentMarker frames mode (line :: rest) =
      unclosed (closesTable separator) line rest ++
        (tableCells separator rest).flatMap (leftOpenIn commentMarker) ++
        leftOpen commentMarker further (.behind false) (behindTable separator rest) := by
  rw [leftOpen, h]
  simp only [List.flatMap_subtype, List.unattach_attach]
  rfl

theorem turn_start (h : closesBlock (terminatorOf frames) line.shape = false) :
    turn frames .start line = blockTurn frames line := by
  change startTurn frames line = _
  rw [startTurn, h]
  exact if_neg Bool.false_ne_true

/-- Where a line does the same, the lines from there on leave the same open. -/
theorem leftOpen_congr {others : List Frame} {other : Mode}
    (h : turn frames mode line = turn others other line) :
    leftOpen commentMarker frames mode (line :: rest) =
      leftOpen commentMarker others other (line :: rest) := by
  rw [leftOpen, leftOpen, h]

end Turns

section Runs

variable {commentMarker : Text} {frames below : List Frame} {frame : Frame} {lines rest : List Line}
  {line : Line}

/-- Whether lines start with one that is ignorable. -/
def startsIgnorable : List Line → Bool
  | [] => false
  | line :: _ => line.shape.isIgnorable

/-- The first line that matters, if there is one, is as told. -/
def NextIs (P : Line → Prop) (lines : List Line) : Prop :=
  ∀ line rest, significant lines = line :: rest → P line

theorem nextIs_of_nil {P : Line → Prop} (h : significant lines = []) : NextIs P lines := by
  intro line rest hlines
  rw [h] at hlines
  cases hlines

theorem nextIs_of_significant {P : Line → Prop} (h : significant lines = line :: rest)
    (hline : P line) : NextIs P lines := by
  intro other others hlines
  rw [h] at hlines
  cases hlines
  exact hline

theorem isIgnorable_of_significant (h : significant lines = line :: rest) :
    line.shape.isIgnorable = false := by
  have hhead := List.head?_dropWhile_not (fun line : Line ↦ line.shape.isIgnorable) lines
  rw [show lines.dropWhile _ = line :: rest from h] at hhead
  exact hhead

/-- Where a mode stays as it is on ignorable lines, but for keeping in mind that they were there,
such lines are passed. -/
theorem leftOpen_significant {m : Bool → Mode}
    (hmode : ∀ gap line, line.shape.isIgnorable = true →
      turn frames (m gap) line = .on frames (m true))
    (gap : Bool) (lines : List Line) :
    leftOpen commentMarker frames (m gap) lines =
      leftOpen commentMarker frames (m (gap || startsIgnorable lines)) (significant lines) := by
  induction lines generalizing gap with
  | nil => rw [significant, List.dropWhile_nil, leftOpen_nil, leftOpen_nil]
  | cons line rest ih =>
    rw [significant, List.dropWhile_cons, startsIgnorable]
    cases hline : line.shape.isIgnorable with
    | true =>
      rw [leftOpen_on (hmode gap line hline), ih, Bool.true_or, Bool.or_true]
      rfl
    | false =>
      rw [Bool.or_false]
      rfl

theorem leftOpen_behind_significant (gap : Bool) (lines : List Line) :
    leftOpen commentMarker frames (.behind gap) lines =
      leftOpen commentMarker frames (.behind (gap || startsIgnorable lines)) (significant lines) :=
  leftOpen_significant (m := .behind) (fun _ _ hline ↦ if_pos hline) gap lines

theorem isItemText_of_isIgnorable (h : line.shape.isIgnorable = true) :
    isItemText line.shape = false := by
  unfold Shape.isIgnorable at h
  split at h
  · next hshape => rw [hshape]; rfl
  · next hshape => rw [hshape]; rfl
  · cases h

theorem leftOpen_terms_significant (gap : Bool) (lines : List Line) :
    leftOpen commentMarker frames (.terms gap) lines = leftOpen commentMarker frames
      (.terms (gap || startsIgnorable lines)) (significant lines) := by
  refine leftOpen_significant (m := .terms) (fun gap line hline ↦ ?_) gap lines
  unfold turn
  dsimp only
  rw [isItemText_of_isIgnorable hline, if_neg Bool.false_ne_true, if_pos hline]

/-- A line that what is open accepts goes on with it. -/
theorem turn_of_accepts {gap : Bool} (hline : line.shape.isIgnorable = false)
    (h : frame.accepts gap line.shape = true) :
    turn (frame :: below) (.behind gap) line = acceptedTurn (frame :: below) line := by
  change behindTurn (frame :: below) gap line = _
  rw [behindTurn, hline, if_neg Bool.false_ne_true, List.dropWhile_cons, h]
  rfl

/-- What is open and does not accept a line is left. -/
theorem turn_of_refuses {gap : Bool} (hline : line.shape.isIgnorable = false)
    (h : frame.accepts gap line.shape = false) :
    turn (frame :: below) (.behind gap) line = turn below (.behind gap) line := by
  change behindTurn (frame :: below) gap line = behindTurn below gap line
  rw [behindTurn, behindTurn, hline, if_neg Bool.false_ne_true, if_neg Bool.false_ne_true,
    List.dropWhile_cons, h]
  rfl

/-- The first line that matters is refused, with or without ignorable lines before it. -/
def Refused (accepts : Bool → Shape → Bool) (lines : List Line) : Prop :=
  NextIs (fun line ↦ accepts (startsIgnorable lines) line.shape = false) lines

/-- Lists are left where the lines behind them are refused. -/
theorem leftOpen_of_refused (h : Refused frame.accepts lines) (hframe : frame.opening? = none) :
    leftOpen commentMarker (frame :: below) (.behind false) lines =
      leftOpen commentMarker below (.behind false) lines := by
  rw [leftOpen_behind_significant, leftOpen_behind_significant false lines, Bool.false_or]
  cases hlines : significant lines with
  | nil => rw [leftOpen_nil, leftOpen_nil, List.filterMap_cons_none hframe]
  | cons line rest =>
    exact leftOpen_congr (turn_of_refuses (isIgnorable_of_significant hlines) (h line rest hlines))

/-- Between two blocks of a container it does not matter whether a block has been passed. -/
theorem leftOpen_behind_eq_start (h : placeOf frames ≠ .attached) (gap : Bool) :
    leftOpen commentMarker frames (.behind gap) lines =
      leftOpen commentMarker frames .start lines := by
  induction lines generalizing gap with
  | nil => rw [leftOpen_nil, leftOpen_nil]
  | cons line rest ih =>
    by_cases hline : line.shape.isIgnorable
    · have hbehind : turn frames (.behind gap) line = .on frames (.behind true) := by
        rw [turn, behindTurn, if_pos hline]
      have hstart : turn frames .start line = .on frames .start := by
        unfold Shape.isIgnorable at hline
        split at hline
        · next hshape =>
          rw [turn_start (by simp [hshape, closesBlock, Shape.isDelimiter]), blockTurn, hshape]
        · next hshape =>
          rw [turn_start (by simp [hshape, closesBlock, Shape.isDelimiter]), blockTurn, hshape]
        · cases hline
      rw [leftOpen_on hbehind, leftOpen_on hstart, ih]
    · refine leftOpen_congr ?_
      -- a block accepts every line, so nothing is left of what is open
      have hkept : (frames.dropWhile fun frame ↦ !frame.accepts gap line.shape) = frames := by
        cases frames with
        | nil => rfl
        | cons frame below =>
          cases frame with
          | block opening => rfl
          | item => exact absurd rfl h
          | entries delimiter => exact absurd rfl h
      change behindTurn frames gap line = startTurn frames line
      rw [behindTurn, if_neg hline, hkept, acceptedTurn, if_neg h]

/-- The tail of a paragraph goes on with it. -/
theorem leftOpen_paragraph (frames : List Frame) (lines : List Line) :
    leftOpen commentMarker frames .paragraph lines = leftOpen commentMarker frames (.behind false)
      (paragraphTail (placeOf frames == .attached) lines).2 := by
  induction lines with
  | nil => rw [paragraphTail, leftOpen_nil, leftOpen_nil]
  | cons line rest ih =>
    have hends (h : line.shape = .blank ∨
        endsParagraph (placeOf frames == .attached) line.shape) :
        leftOpen commentMarker frames .paragraph (line :: rest) =
          leftOpen commentMarker frames (.behind false) (line :: rest) := by
      refine leftOpen_congr ?_
      rw [turn, if_pos h]
      rfl
    have hgoes (h : ¬(line.shape = .blank ∨
        endsParagraph (placeOf frames == .attached) line.shape)) :
        leftOpen commentMarker frames .paragraph (line :: rest) =
          leftOpen commentMarker frames (.behind false)
            (paragraphTail (placeOf frames == .attached) rest).2 := by
      rw [← ih]
      refine leftOpen_on ?_
      rw [turn, if_neg h]
    rw [paragraphTail]
    split
    · next hshape => exact hends (Or.inl hshape)
    · next hshape =>
      exact hgoes (by simp [hshape, endsParagraph, Shape.isDelimiter, Shape.endsAttachedText])
    · next hblank _ =>
      split
      · next hshape => exact hends (Or.inr hshape)
      · next hshape => exact hgoes (not_or.mpr ⟨hblank, hshape⟩)

/-- The text of an item goes on with plain lines and indented ones. -/
theorem leftOpen_text (frames : List Frame) (lines : List Line) :
    leftOpen commentMarker frames .text lines =
      leftOpen commentMarker frames (.behind false) (itemTail lines).2 := by
  induction lines with
  | nil => rw [itemTail, leftOpen_nil, leftOpen_nil]
  | cons line rest ih =>
    rw [itemTail]
    split
    · next hshape => exact (leftOpen_on (by rw [turn, hshape])).trans ih
    · next hshape => exact (leftOpen_on (by rw [turn, hshape])).trans ih
    · next hshape => exact (leftOpen_on (by rw [turn, hshape])).trans ih
    · next hplain hindented hcomment =>
      -- the text ends, and the same line is looked at as one behind the text
      refine leftOpen_congr ?_
      unfold turn
      split <;> simp_all

/-- Where no text stands behind terms, whatever stands there is behind them. -/
theorem leftOpen_terms_eq_behind
    (h : NextIs (fun line ↦ isItemText line.shape = false) lines) :
    leftOpen commentMarker frames (.terms false) lines =
      leftOpen commentMarker frames (.behind false) lines := by
  rw [leftOpen_terms_significant, leftOpen_behind_significant]
  cases hlines : significant lines with
  | nil => rw [leftOpen_nil, leftOpen_nil]
  | cons line rest =>
    refine leftOpen_congr ?_
    unfold turn
    dsimp only
    rw [h line rest hlines, isIgnorable_of_significant hlines, if_neg Bool.false_ne_true,
      if_neg Bool.false_ne_true]

/-- What the terms of a run leave to be gone through: the description behind the last of them. -/
def TermRun.leftOpen (commentMarker : Text) (frames : List Frame) (run : TermRun) : List Line :=
  match run.description with
  | some _ => Blocks.leftOpen commentMarker frames .text run.rest
  | none => Blocks.leftOpen commentMarker frames (.terms false) run.rest

/-- An item goes on with the items that are open. -/
theorem turn_of_isItem {marker : Text} (gap : Bool) (h : IsItem marker line) :
    turn (.item :: below) (.behind gap) line = .on (.item :: below) .text := by
  obtain ⟨kind, text, checkbox, hshape⟩ := h
  have hplace : placeOf (.item :: below) = .attached := rfl
  rw [turn_of_accepts (by rw [hshape]; rfl) (by rw [hshape]; rfl), acceptedTurn, if_pos hplace,
    hshape]
  rfl

/-- Behind a continuation line a block is attached to what is open. -/
theorem turn_of_continuation (hplace : placeOf (frame :: below) = .attached)
    (hshape : line.shape = .listContinuation) :
    turn (frame :: below) (.behind false) line = .on (frame :: below) .start := by
  rw [turn_of_accepts (by rw [hshape]; rfl) (by rw [hshape]; cases frame <;> rfl), acceptedTurn,
    if_pos hplace, hshape]

/-- Indented lines behind ignorable ones are a paragraph that is attached to an item. -/
theorem turn_of_indented {text : Text} {width : Nat} {gap : Bool} (hgap : gap = true)
    (hshape : line.shape = .indentedText text width) :
    turn (.item :: below) (.behind gap) line = .on (.item :: below) .paragraph := by
  have hplace : placeOf (.item :: below) = .attached := rfl
  rw [turn_of_accepts (by rw [hshape]; rfl) (by rw [hshape]; exact hgap), acceptedTurn,
    if_pos hplace, hshape]

/-- An item opens a list that is attached to a description. -/
theorem turn_of_isItem_entries {marker delimiter : Text} {gap : Bool} (h : IsItem marker line) :
    turn (.entries delimiter :: below) (.behind gap) line =
      .on (.item :: .entries delimiter :: below) .text := by
  obtain ⟨kind, text, checkbox, hshape⟩ := h
  have hplace : placeOf (.entries delimiter :: below) = .attached := rfl
  rw [turn_of_accepts (by rw [hshape]; rfl) (by rw [hshape]; rfl), acceptedTurn, if_pos hplace,
    hshape]
  rfl

/-- A term with a longer delimiter opens a description list that is attached to a description. -/
theorem turn_of_longer {text delimiter found : Text} {description : Option Text} {gap : Bool}
    (hshape : line.shape = .term text found description) (hfound : found ≠ delimiter)
    (hlonger : delimiter.length < found.length) :
    turn (.entries delimiter :: below) (.behind gap) line =
      .on (.entries found :: .entries delimiter :: below) (afterTerm description) := by
  have hplace : placeOf (.entries delimiter :: below) = .attached := rfl
  rw [turn_of_accepts (by rw [hshape]; rfl) (by rw [hshape]; simp [Frame.accepts, hlonger]),
    acceptedTurn, if_pos hplace, hshape]
  refine if_neg ?_
  rw [List.head?_cons]
  simpa using fun h ↦ hfound h.symm

/-- No delimiter closes what something is attached to. -/
theorem closesBlock_of_attached (h : placeOf frames = .attached) (shape : Shape) :
    closesBlock (terminatorOf frames) shape = false := by
  unfold terminatorOf closesBlock
  split
  · cases h
  · exact Bool.and_false _

/-- The items that an item goes on with are open already, or they are opened. -/
theorem exists_withItem (frames : List Frame) :
    ∃ below, withItem frames = .item :: below ∧ (frames = .item :: below ∨ frames = below) := by
  cases frames with
  | nil => exact ⟨[], rfl, Or.inr rfl⟩
  | cons frame below =>
    cases frame with
    | item => exact ⟨below, rfl, Or.inl rfl⟩
    | block opening => exact ⟨.block opening :: below, rfl, Or.inr rfl⟩
    | entries delimiter => exact ⟨.entries delimiter :: below, rfl, Or.inr rfl⟩

/-- A term of an open description list goes on with it. -/
theorem turn_of_isTerm {text delimiter : Text} {description : Option Text} (gap : Bool)
    (hshape : line.shape = .term text delimiter description) :
    turn (.entries delimiter :: below) (.behind gap) line =
      .on (.entries delimiter :: below) (afterTerm description) := by
  have hplace : placeOf (.entries delimiter :: below) = .attached := rfl
  rw [turn_of_accepts (by rw [hshape]; rfl) (by rw [hshape]; simp [Frame.accepts]), acceptedTurn,
    if_pos hplace, hshape]
  exact if_pos rfl

theorem leftOpen_termRun (delimiter : Text) (lines : List Line) :
    leftOpen commentMarker (.entries delimiter :: below) (.terms false) lines =
      (termRun delimiter lines).leftOpen commentMarker (.entries delimiter :: below) := by
  induction lines with
  | nil => rfl
  | cons line rest ih =>
    rw [termRun]
    split
    · next text found description hshape =>
      split
      · next hfound =>
        subst hfound
        have hturn : turn (.entries found :: below) (.terms false) line =
            .on (.entries found :: below) (afterTerm description) := by
          rw [← turn_of_isTerm false hshape]
          unfold turn
          rw [hshape]
          rfl
        rw [leftOpen_on hturn]
        cases description with
        | some first => rfl
        | none => exact ih
      · rfl
    · rfl

/-- The terms at the start of some lines go on with the description list that they are of. -/
theorem leftOpen_of_isTerm {text delimiter : Text} {description : Option Text} (rest : List Line)
    (hshape : line.shape = .term text delimiter description) :
    leftOpen commentMarker (.entries delimiter :: below) (.behind false) (line :: rest) =
      (termRun delimiter (line :: rest)).leftOpen commentMarker (.entries delimiter :: below) := by
  rw [leftOpen_on (turn_of_isTerm false hshape), termRun, hshape]
  dsimp only
  rw [if_pos rfl]
  cases description with
  | some first => rfl
  | none => exact leftOpen_termRun delimiter rest

end Runs

section Openings

variable {commentMarker : Text} {frames further : List Frame} {line opening : Line}
  {rest : List Line}

/-- The blocks that are open were opened by delimiters. -/
def Delimited (frames : List Frame) : Prop :=
  ∀ opening ∈ frames.filterMap Frame.opening?, opening.shape.isDelimiter = true

/-- A line opens blocks only if it is a delimiter. -/
def Turn.Opens (line : Line) : Turn → Prop
  | .on further _ => Delimited further
  | .jump _ further _ | .table _ further => line.shape.isDelimiter = true ∧ Delimited further

theorem Delimited.of_suffix (h : Delimited frames) (hsuffix : further <:+ frames) :
    Delimited further :=
  fun opening hopening ↦ h opening ((hsuffix.sublist.filterMap _).subset hopening)

theorem Delimited.cons {frame : Frame} (h : Delimited frames) (hframe : frame.opening? = none) :
    Delimited (frame :: frames) := by
  rw [Delimited, List.filterMap_cons_none hframe]
  exact h

theorem Delimited.withItem (h : Delimited frames) : Delimited (withItem frames) := by
  obtain ⟨below, hitems, hframes⟩ := exists_withItem frames
  rw [hitems]
  rcases hframes with rfl | rfl
  · exact h
  · exact h.cons rfl

theorem opens_blockTurn (h : Delimited frames) (line : Line) :
    (blockTurn frames line).Opens line := by
  rw [blockTurn]
  cases hshape : line.shape with
  | sectionTitle =>
    dsimp only
    split <;> exact h
  | blockDelimiter kind delimiter =>
    dsimp only
    split
    · exact ⟨by rw [hshape]; rfl, h⟩
    · intro opening hopening
      rw [List.filterMap_cons, Frame.opening?, List.mem_cons] at hopening
      rcases hopening with rfl | hbelow
      · rw [hshape]
        rfl
      · exact h opening hbelow
  | commentDelimiter | tableDelimiter | fence => exact ⟨by rw [hshape]; rfl, h⟩
  | listItem => exact h.withItem
  | term => exact h.cons rfl
  | _ => exact h

theorem opens_startTurn (h : Delimited frames) (line : Line) :
    (startTurn frames line).Opens line := by
  rw [startTurn]
  split
  · exact h.of_suffix (List.tail_suffix frames)
  · exact opens_blockTurn h line

theorem opens_behindTurn (h : Delimited frames) (gap : Bool) (line : Line) :
    (behindTurn frames gap line).Opens line := by
  rw [behindTurn]
  split
  · exact h
  · have hkept := h.of_suffix
      (List.dropWhile_suffix fun frame ↦ !Frame.accepts frame gap line.shape)
    rw [acceptedTurn]
    split
    · split
      · exact hkept
      · exact hkept.withItem
      · split
        · exact hkept
        · exact hkept.cons rfl
      · exact hkept
    · exact opens_startTurn hkept line

/-- What a line does opens no block unless the line is a delimiter. -/
theorem opens_turn (h : Delimited frames) (mode : Mode) (line : Line) :
    (turn frames mode line).Opens line := by
  cases mode with
  | start => exact opens_startTurn h line
  | paragraph =>
    rw [turn]
    split
    · exact opens_behindTurn h false line
    · exact h
  | text =>
    rw [turn]
    split
    · exact h
    · exact h
    · exact h
    · exact opens_behindTurn h false line
  | terms gap =>
    rw [turn]
    split
    · exact h
    · split
      · exact h
      · exact opens_behindTurn h gap line
  | behind gap => exact opens_behindTurn h gap line

theorem eq_of_mem_unclosed {closes : Shape → Bool} (h : opening ∈ unclosed closes line rest) :
    opening = line := by
  rw [unclosed] at h
  split at h
  · cases h
  · exact List.mem_singleton.mp h

/-- Only delimiters leave blocks open. -/
theorem isDelimiter_of_mem_leftOpen (frames : List Frame) (mode : Mode) (lines : List Line)
    (h : Delimited frames) : ∀ opening ∈ leftOpen commentMarker frames mode lines,
      opening.shape.isDelimiter = true := by
  induction frames, mode, lines using leftOpen.induct commentMarker with
  | case1 frames mode =>
    rw [leftOpen_nil]
    exact h
  | case2 frames mode line rest further next hturn ih =>
    have hkept := opens_turn h mode line
    rw [hturn] at hkept
    rw [leftOpen_on hturn]
    exact ih hkept
  | case3 frames mode line rest closes further next hturn ih =>
    have hkept := opens_turn h mode line
    rw [hturn] at hkept
    rw [leftOpen_jump hturn]
    intro opening hopening
    rcases List.mem_append.mp hopening with hline | hbehind
    · rw [eq_of_mem_unclosed hline]
      exact hkept.1
    · exact ih hkept.2 opening hbehind
  | case4 frames mode line rest separator further hturn ihcells ih =>
    have hkept := opens_turn h mode line
    rw [hturn] at hkept
    rw [leftOpen_table hturn]
    intro opening hopening
    rcases List.mem_append.mp hopening with hbefore | hbehind
    · rcases List.mem_append.mp hbefore with hline | hcells
      · rw [eq_of_mem_unclosed hline]
        exact hkept.1
      · obtain ⟨raw, hraw, hcell⟩ := List.mem_flatMap.mp hcells
        rw [leftOpenIn] at hcell
        split at hcell
        · exact ihcells ⟨raw, hraw⟩ (by simp [Delimited]) opening hcell
        · cases hcell
    · exact ih hkept.2 opening hbehind

end Openings

end AsciidocSpans.Blocks
