import AsciidocSpans.Proofs.Blocks.Steps
import AsciidocSpans.Proofs.Line.Captured
import AsciidocSpans.Proofs.Span.Written
import AsciidocSpans.Proofs.Text.Lines

/-!
Where the elements of running text are written. In `Prose` there are no delimited blocks, no tables,
no macros, no admonitions and no attribute lists: only titles, paragraphs and lists, with comments,
anchors, block titles and attribute entries anywhere among them. `Laid` says of an element that it
stands on lines of its own: its text is written on the line that its number names and on the lines
behind, and what is nested in it comes behind that, each part in its turn. A description may stand
on the line of its term; therefore items are laid out between positions and not just between lines.

The lemmas of this module are about runs of lines: the lines of a paragraph
(`follows_paragraphTail`), those of the text of an item (`follows_itemTail`), and terms with their
description (`laid_termRun`).
-/

set_option autoImplicit false
set_option relaxedAutoImplicit false

namespace AsciidocSpans

/-- Whether a line may stand in running text: it opens neither a delimited block nor a table, and is
no macro, admonition or attribute list. -/
def Line.Shape.isProse : Line.Shape → Bool
  | .blockDelimiter .. | .fence _ | .tableDelimiter .. | .blockMacro .. | .blockAttributes _
  | .admonition .. => false
  | _ => true

namespace Blocks

/-- Running text, of which the comment marker can be told from the end of a line. -/
structure Prose (marker : Text) (lines : List Text) : Prop where
  noReturn : '\r' ∉ marker
  noNewline : ∀ line ∈ lines, '\n' ∉ line
  shapes : ∀ line ∈ lines, ∀ number, (Line.classify marker line number).shape.isProse = true

/-- The classified lines from an index on. -/
def linesFrom (marker : Text) (lines : List Text) (index : Nat) : List Line :=
  Line.classifyAll marker (index + 1) (lines.drop index)

/-- The lines that are left are those from an index on. -/
structure At (marker : Text) (lines : List Text) (index : Nat) (remaining : List Line) : Prop where
  eq : linesFrom marker lines index = remaining
  le : index ≤ lines.length

/-- The position at which the line with an index starts. -/
def lineStart (index : Nat) : Position :=
  ⟨index + 1, 0⟩

mutual

/-- An element that stands on one line is laid out from there up to another line. -/
def Laid (marker : Text) (lines : List Text) (own stop : Nat) : Element → Prop
  | .titledSection info _ blocks =>
    (∃ column, Written marker lines own column (own + 1) [info.title.getD []]) ∧
      LaidAll marker lines (own + 1) stop blocks
  | .container _ .preamble blocks => LaidAll marker lines own stop blocks
  | .paragraph _ _ segments => ∃ column, Written marker lines own column stop segments
  | .list _ _ _ items => LaidItems marker lines (lineStart own) (lineStart stop) items
  | .descriptionList _ _ entries =>
    LaidEntries marker lines (lineStart own) (lineStart stop) entries
  | .unhandled .. => True
  | _ => False

/-- Blocks are laid out one behind the other, each from the line that its number names on. -/
def LaidAll (marker : Text) (lines : List Text) (first stop : Nat) : List Element → Prop
  | [] => first ≤ stop
  | element :: rest => ∃ own middle, first ≤ own ∧ own < middle ∧ Kept marker lines own ∧
      element.lineno = own + 1 ∧ Laid marker lines own middle element ∧
      LaidAll marker lines middle stop rest

/-- An item is laid out behind a position: its text, and behind that what is attached to it. It ends
with a line, or with its text if that is all there is. -/
def LaidItem (marker : Text) (lines : List Text) (first stop : Position) : ListItem → Prop
  | ⟨info, text, _, blocks⟩ => ∃ own column behind last : Nat,
      info.lineno = own + 1 ∧ Kept marker lines own ∧ first ≤ ⟨own + 1, column⟩ ∧ own < behind ∧
      (∀ shown, text = some shown → shown ≠ [] →
        Written marker lines own column behind shown.lines) ∧
      LaidAll marker lines behind last blocks ∧
      (lineStart last ≤ stop ∨ ∃ shown, text = some shown ∧ shown ≠ [] ∧ shown.lines = [shown] ∧
        blocks = [] ∧ behind = own + 1 ∧ ⟨own + 1, (column + shown.length : Nat)⟩ ≤ stop)

/-- Items are laid out one behind the other. -/
def LaidItems (marker : Text) (lines : List Text) (first stop : Position) : List ListItem → Prop
  | [] => first ≤ stop
  | item :: rest => ∃ middle, LaidItem marker lines first middle item ∧
      LaidItems marker lines middle stop rest

/-- Entries are laid out one behind the other, a description behind its terms. -/
def LaidEntries (marker : Text) (lines : List Text) (first stop : Position) :
    List DescriptionEntry → Prop
  | [] => first ≤ stop
  | ⟨terms, none⟩ :: rest => ∃ middle, terms ≠ [] ∧ LaidItems marker lines first middle terms ∧
      LaidEntries marker lines middle stop rest
  | ⟨terms, some description⟩ :: rest => ∃ before middle, terms ≠ [] ∧
      LaidItems marker lines first before terms ∧
      LaidItem marker lines before middle description ∧ LaidEntries marker lines middle stop rest

end

/-- Terms are laid out from a line on. The lines that are left are behind the last term, and a
description on the line of that term stands behind it. -/
def RunLaid (marker : Text) (lines : List Text) (index : Nat) (run : TermRun) : Prop :=
  ∃ own column text, lines[own]? = some text ∧ ¬ marker <+: text ∧
    run.rest = linesFrom marker lines (own + 1) ∧
    LaidItems marker lines (lineStart index) ⟨own + 1, (column : Nat)⟩ run.terms ∧
    run.terms.getLast?.map (·.info.lineno) = some ((own : Int) + 1) ∧
    ∀ number first, run.description = some (number, first) → number = own + 1 ∧
      ∃ place, column ≤ place ∧ place ≤ text.length ∧ first <+: text.drop place

variable {marker : Text} {lines : List Text}

section Texts

theorem exists_of_mem_classifyAll {number : Int} {texts : List Text} {line : Line}
    (h : line ∈ Line.classifyAll marker number texts) :
    ∃ text ∈ texts, ∃ own, line = Line.classify marker text own := by
  induction texts generalizing number with
  | nil => cases h
  | cons text rest ih =>
    rcases List.mem_cons.mp h with rfl | hrest
    · exact ⟨text, List.mem_cons_self, number, rfl⟩
    · obtain ⟨other, hother, own, heq⟩ := ih hrest
      exact ⟨other, List.mem_cons_of_mem _ hother, own, heq⟩

theorem mem_classifyAll {texts : List Text} {line : Text} (h : line ∈ texts) (number : Int) :
    ∃ own, Line.classify marker line own ∈ Line.classifyAll marker number texts := by
  induction texts generalizing number with
  | nil => cases h
  | cons text rest ih =>
    rcases List.mem_cons.mp h with rfl | hrest
    · exact ⟨number, List.mem_cons_self⟩
    · obtain ⟨own, hmem⟩ := ih hrest (number + 1)
      exact ⟨own, List.mem_cons_of_mem _ hmem⟩

/-- The lines of a text are running text if all of them are of such shapes. -/
theorem prose_lines {text : Text} (hmarker : '\r' ∉ marker)
    (h : ∀ line ∈ Line.classifyAll marker 1 text.lines, line.shape.isProse = true) :
    Prose marker text.lines where
  noReturn := hmarker
  noNewline := fun _ hline ↦ Text.not_mem_of_mem_lines hline
  shapes := fun _ hline number ↦ by
    obtain ⟨own, hmem⟩ := mem_classifyAll hline 1
    have hprosaic := h _ hmem
    exact hprosaic

end Texts

section Positions

theorem lineStart_le_lineStart {first last : Nat} : lineStart first ≤ lineStart last ↔
    first ≤ last := by
  rw [Position.le_iff, lineStart, lineStart]
  dsimp only
  omega

theorem LaidAll.le {first stop : Nat} {blocks : List Element}
    (h : LaidAll marker lines first stop blocks) : first ≤ stop := by
  induction blocks generalizing first with
  | nil => exact h
  | cons element rest ih =>
    obtain ⟨own, middle, hfirst, hown, -, -, -, hrest⟩ := h
    have hle := ih hrest
    omega

theorem LaidAll.mono {first later stop : Nat} {blocks : List Element}
    (h : LaidAll marker lines later stop blocks) (hfirst : first ≤ later) :
    LaidAll marker lines first stop blocks := by
  cases blocks with
  | nil => exact Nat.le_trans hfirst h
  | cons element rest =>
    obtain ⟨own, middle, hlater, hrest⟩ := h
    exact ⟨own, middle, Nat.le_trans hfirst hlater, hrest⟩

theorem LaidAll.append {first middle stop : Nat} {blocks others : List Element}
    (h : LaidAll marker lines first middle blocks)
    (hothers : LaidAll marker lines middle stop others) :
    LaidAll marker lines first stop (blocks ++ others) := by
  induction blocks generalizing first with
  | nil => exact hothers.mono h
  | cons element rest ih =>
    obtain ⟨own, next, hfirst, hown, hkept, hlineno, hlaid, hrest⟩ := h
    exact ⟨own, next, hfirst, hown, hkept, hlineno, hlaid, ih hrest⟩

/-- The first blocks end where the other ones begin. -/
theorem LaidAll.exists_of_append {first stop : Nat} {blocks others : List Element}
    (h : LaidAll marker lines first stop (blocks ++ others)) :
    ∃ middle, LaidAll marker lines first middle blocks ∧
      LaidAll marker lines middle stop others := by
  induction blocks generalizing first with
  | nil => exact ⟨first, Nat.le_refl first, h⟩
  | cons element rest ih =>
    obtain ⟨own, next, hfirst, hown, hkept, hlineno, hlaid, hrest⟩ := h
    obtain ⟨middle, hblocks, hothers⟩ := ih hrest
    exact ⟨middle, ⟨own, next, hfirst, hown, hkept, hlineno, hlaid, hblocks⟩, hothers⟩

/-- An item ends behind the position from which it is laid out. -/
theorem LaidItem.le {first stop : Position} {item : ListItem}
    (h : LaidItem marker lines first stop item) : first ≤ stop := by
  obtain ⟨info, text, checkbox, blocks⟩ := item
  obtain ⟨own, column, behind, last, -, -, hfirst, hbehind, -, hblocks, hstop⟩ := h
  refine Position.le_trans hfirst ?_
  rcases hstop with hlast | ⟨shown, -, -, -, -, -, hle⟩
  · refine Position.le_trans (Position.le_of_line_lt ?_) hlast
    have hle := hblocks.le
    rw [lineStart]
    dsimp only
    omega
  · have hwidth : (⟨own + 1, (column : Nat)⟩ : Position) ≤
        ⟨own + 1, (column + shown.length : Nat)⟩ :=
      Or.inr ⟨rfl, Int.ofNat_le.mpr (Nat.le_add_right _ _)⟩
    exact Position.le_trans hwidth hle

theorem LaidItem.mono_first {first stop later : Position} {item : ListItem}
    (h : LaidItem marker lines later stop item) (hfirst : first ≤ later) :
    LaidItem marker lines first stop item := by
  obtain ⟨info, text, checkbox, blocks⟩ := item
  obtain ⟨own, column, behind, last, hlineno, hkept, hlater, hrest⟩ := h
  exact ⟨own, column, behind, last, hlineno, hkept, Position.le_trans hfirst hlater, hrest⟩

theorem LaidItems.mono_first {first stop later : Position} {items : List ListItem}
    (h : LaidItems marker lines later stop items) (hfirst : first ≤ later) :
    LaidItems marker lines first stop items := by
  cases items with
  | nil => exact Position.le_trans hfirst h
  | cons item rest =>
    obtain ⟨middle, hitem, hrest⟩ := h
    exact ⟨middle, hitem.mono_first hfirst, hrest⟩

theorem LaidItems.mono_stop {first stop later : Position} {items : List ListItem}
    (h : LaidItems marker lines first stop items) (hlater : stop ≤ later) :
    LaidItems marker lines first later items := by
  induction items generalizing first with
  | nil => exact Position.le_trans h hlater
  | cons item rest ih =>
    obtain ⟨middle, hitem, hrest⟩ := h
    exact ⟨middle, hitem, ih hrest⟩

theorem LaidEntries.mono_first {first stop later : Position} {entries : List DescriptionEntry}
    (h : LaidEntries marker lines later stop entries) (hfirst : first ≤ later) :
    LaidEntries marker lines first stop entries := by
  cases entries with
  | nil => exact Position.le_trans hfirst h
  | cons entry rest =>
    obtain ⟨terms, description⟩ := entry
    cases description with
    | none =>
      obtain ⟨middle, hterms, hitems, hrest⟩ := h
      exact ⟨middle, hterms, hitems.mono_first hfirst, hrest⟩
    | some description =>
      obtain ⟨before, middle, hterms, hitems, hrest⟩ := h
      exact ⟨before, middle, hterms, hitems.mono_first hfirst, hrest⟩

/-- Entries that are laid out behind an entry. -/
theorem LaidEntries.cons {first middle stop : Position} {entry : DescriptionEntry}
    {rest : List DescriptionEntry} (h : LaidEntries marker lines first middle [entry])
    (hrest : LaidEntries marker lines middle stop rest) :
    LaidEntries marker lines first stop (entry :: rest) := by
  obtain ⟨terms, description⟩ := entry
  cases description with
  | none =>
    obtain ⟨next, hterms, hitems, hnext⟩ := h
    exact ⟨next, hterms, hitems, hrest.mono_first hnext⟩
  | some description =>
    obtain ⟨before, next, hterms, hitems, hdescription, hnext⟩ := h
    exact ⟨before, next, hterms, hitems, hdescription, hrest.mono_first hnext⟩

end Positions

section Lines

variable {index : Nat} {line : Line} {rest : List Line}

/-- The next line is the classified one, and behind it stand the lines from the next index on. -/
theorem linesFrom_eq_cons (h : linesFrom marker lines index = line :: rest) :
    ∃ text, lines[index]? = some text ∧ line = Line.classify marker text (index + 1) ∧
      rest = linesFrom marker lines (index + 1) ∧ index + 1 ≤ lines.length := by
  rw [linesFrom] at h
  cases hdrop : lines.drop index with
  | nil =>
    rw [hdrop] at h
    cases h
  | cons text others =>
    rw [hdrop, Line.classifyAll] at h
    cases h
    have hget : lines[index]? = some text := by
      rw [← List.head?_drop, hdrop]
      rfl
    have hothers : lines.drop (index + 1) = others := by
      rw [← List.drop_drop, hdrop]
      rfl
    obtain ⟨hindex, -⟩ := List.getElem?_eq_some_iff.mp hget
    refine ⟨text, hget, rfl, ?_, hindex⟩
    rw [linesFrom, hothers]
    push_cast
    rfl

/-- What is left of the lines from an index on are the lines from a later index on. -/
theorem exists_linesFrom_of_suffix {behind : List Line} (hindex : index ≤ lines.length)
    (h : behind <:+ linesFrom marker lines index) :
    ∃ stop, index ≤ stop ∧ stop ≤ lines.length ∧ behind = linesFrom marker lines stop := by
  generalize hlines : linesFrom marker lines index = remaining at h
  induction remaining generalizing index with
  | nil => exact ⟨index, Nat.le_refl _, hindex, by rw [hlines, List.suffix_nil.mp h]⟩
  | cons line rest ih =>
    rcases List.suffix_cons_iff.mp h with heq | hsuffix
    · exact ⟨index, Nat.le_refl _, hindex, by rw [hlines, heq]⟩
    · obtain ⟨text, -, -, hrest, hnext⟩ := linesFrom_eq_cons hlines
      obtain ⟨stop, hle, hstop, hbehind⟩ := ih hnext hrest.symm hsuffix
      exact ⟨stop, Nat.le_of_succ_le hle, hstop, hbehind⟩

/-- A line that is not passed over is no comment, provided that the marker holds no carriage
return. -/
theorem kept_of_shape (hmarker : '\r' ∉ marker)
    (h : linesFrom marker lines index = line :: rest) (hshape : line.shape.isPassedOver = false) :
    Kept marker lines index := by
  obtain ⟨text, htext, rfl, -⟩ := linesFrom_eq_cons h
  exact ⟨text, htext, Line.not_isPrefix_of_not_isPassedOver hmarker hshape⟩

/-- What the shape of a line shows is written in the line. -/
theorem standsIn_of_linesFrom (h : linesFrom marker lines index = line :: rest) :
    line.shape.StandsIn marker line.input := by
  obtain ⟨text, -, rfl, -⟩ := linesFrom_eq_cons h
  exact Line.standsIn_shapeOf marker _

/-- The line as it was classified is a part of the source line. -/
theorem input_prefix_of_linesFrom {text : Text} (h : linesFrom marker lines index = line :: rest)
    (htext : lines[index]? = some text) : line.input <+: text := by
  obtain ⟨other, hother, rfl, -⟩ := linesFrom_eq_cons h
  cases htext.symm.trans hother
  exact Line.isPrefix_input_classify marker text _

/-- A text that is written in a line that is no comment is written there. -/
theorem exists_written_of_infix (h : linesFrom marker lines index = line :: rest)
    (hkept : Kept marker lines index) {shown : Text} (hshown : shown <:+: line.input) :
    ∃ column, Written marker lines index column (index + 1) [shown] := by
  obtain ⟨text, htext, hnot⟩ := hkept
  exact exists_written htext hnot
    (hshown.trans (input_prefix_of_linesFrom h htext).isInfix) (.done (Nat.le_refl _))

variable {stop : Nat} {all behind : List Line}

theorem At.tail (h : At marker lines index (line :: rest)) : At marker lines (index + 1) rest := by
  obtain ⟨_, -, -, hrest, hnext⟩ := linesFrom_eq_cons h.eq
  exact ⟨hrest.symm, hnext⟩

theorem At.number (h : At marker lines index (line :: rest)) : line.number = index + 1 := by
  obtain ⟨_, -, rfl, -⟩ := linesFrom_eq_cons h.eq
  rfl

theorem At.isProse (h : At marker lines index (line :: rest)) (hprose : Prose marker lines) :
    line.shape.isProse := by
  obtain ⟨text, htext, rfl, -⟩ := linesFrom_eq_cons h.eq
  exact hprose.shapes text (List.mem_of_getElem? htext) _

theorem At.of_suffix (h : At marker lines index all) (hsuffix : behind <:+ all) :
    ∃ stop, index ≤ stop ∧ At marker lines stop behind := by
  obtain ⟨stop, hle, hstop, hbehind⟩ := exists_linesFrom_of_suffix h.le (h.eq ▸ hsuffix)
  exact ⟨stop, hle, hbehind.symm, hstop⟩

/-- The first line that matters stands at an index of its own. -/
theorem At.of_significant (h : At marker lines index all)
    (hall : significant all = line :: rest) :
    ∃ own, index ≤ own ∧ At marker lines own (line :: rest) :=
  h.of_suffix (hall ▸ significant_suffix all)

theorem At.length (h : At marker lines index all) : index + all.length = lines.length := by
  have hle := h.le
  rw [← h.eq, linesFrom, length_classifyAll, List.length_drop]
  omega

/-- Lines that are left behind the first one are those from a later index on. -/
theorem At.lt_of_suffix (h : At marker lines index (line :: rest))
    (hstop : At marker lines stop behind) (hsuffix : behind <:+ rest) : index < stop := by
  have hall := h.length
  have hbehind := hstop.length
  have hle := hsuffix.length_le
  rw [List.length_cons] at hall
  omega

end Lines

section Runs

variable {index : Nat} {line : Line} {rest : List Line}

/-- The further lines of a paragraph follow one another up to the lines that are left. -/
theorem follows_paragraphTail (hprose : Prose marker lines) (attached : Bool)
    (hindex : index ≤ lines.length) :
    ∃ stop, stop ≤ lines.length ∧
      (paragraphTail attached (linesFrom marker lines index)).2 = linesFrom marker lines stop ∧
      Follows marker lines index stop
        (paragraphTail attached (linesFrom marker lines index)).1 := by
  generalize hlines : linesFrom marker lines index = remaining
  induction remaining generalizing index with
  | nil => exact ⟨index, hindex, hlines.symm, .done (Nat.le_refl _)⟩
  | cons line rest ih =>
    obtain ⟨text, htext, hline, hrest, hnext⟩ := linesFrom_eq_cons hlines
    obtain ⟨stop, hstop, hbehind, hfollows⟩ := ih hnext hrest.symm
    rw [paragraphTail]
    split
    · exact ⟨index, hindex, hlines.symm, .done (Nat.le_refl _)⟩
    · next shown hshape =>
      rw [hline] at hshape
      exact ⟨stop, hstop, hbehind, .passed htext (Line.isPrefix_of_comment hshape) hfollows⟩
    · next hblank hcomment =>
      split
      · exact ⟨index, hindex, hlines.symm, .done (Nat.le_refl _)⟩
      · next hends =>
        have hpassed : line.shape.isPassedOver = false := by
          cases hshape : line.shape with
          | blank => exact absurd hshape hblank
          | comment shown => exact absurd hshape (hcomment shown)
          | commentDelimiter delimiter =>
            rw [hshape] at hends
            exact absurd rfl hends
          | _ => rfl
        subst hline
        refine ⟨stop, hstop, hbehind, .taken htext
          (Line.not_isPrefix_of_not_isPassedOver hprose.noReturn hpassed) ?_ hfollows⟩
        have hinput := Line.isPrefix_input_classify marker text
        exact ((Text.isPrefix_trimRight _).trans (hinput _)).isInfix

/-- The lines of a paragraph are written on its first line and the lines up to those that are
left. -/
theorem written_paragraphLines (hprose : Prose marker lines) (attached : Bool)
    (h : linesFrom marker lines index = line :: rest) (hkept : Kept marker lines index) :
    ∃ stop column, stop ≤ lines.length ∧
      (paragraphLines attached line rest).2 = linesFrom marker lines stop ∧
      Written marker lines index column stop (paragraphLines attached line rest).1 := by
  obtain ⟨text, htext, hnot⟩ := hkept
  obtain ⟨_, -, -, hrest, hnext⟩ := linesFrom_eq_cons h
  obtain ⟨stop, hstop, hbehind, hfollows⟩ := follows_paragraphTail hprose attached hnext
  rw [← hrest] at hbehind hfollows
  have hoccurs : Text.trimRight line.input <:+: text :=
    ((Text.isPrefix_trimRight _).trans (input_prefix_of_linesFrom h htext)).isInfix
  obtain ⟨column, hwritten⟩ := exists_written htext hnot hoccurs hfollows
  exact ⟨stop, column, hstop, hbehind, hwritten⟩

/-- Lines without their common indentation are written where the lines are. -/
theorem written_dedent {own column stop : Nat} {segments : List Text}
    (h : Written marker lines own column stop segments) :
    ∃ column, Written marker lines own column stop (dedent segments) := by
  rw [dedent]
  split
  · exact h.map _ fun segment ↦ (List.drop_suffix _ segment).isInfix
  · exact ⟨column, h⟩

/-- The lines that go on with the text of an item follow one another up to the lines that are
left. -/
theorem follows_itemTail (hprose : Prose marker lines) (hindex : index ≤ lines.length) :
    ∃ stop, stop ≤ lines.length ∧
      (itemTail (linesFrom marker lines index)).2 = linesFrom marker lines stop ∧
      Follows marker lines index stop (itemTail (linesFrom marker lines index)).1 := by
  generalize hlines : linesFrom marker lines index = remaining
  induction remaining generalizing index with
  | nil => exact ⟨index, hindex, hlines.symm, .done (Nat.le_refl _)⟩
  | cons line rest ih =>
    obtain ⟨text, htext, hline, hrest, hnext⟩ := linesFrom_eq_cons hlines
    obtain ⟨stop, hstop, hbehind, hfollows⟩ := ih hnext hrest.symm
    have htaken : line.shape.isPassedOver = false →
        Follows marker lines index stop (Text.trim line.input :: (itemTail rest).1) := by
      intro hpassed
      subst hline
      refine .taken htext (Line.not_isPrefix_of_not_isPassedOver hprose.noReturn hpassed) ?_
        hfollows
      exact (Text.isInfix_trim _).trans (Line.isPrefix_input_classify marker text _).isInfix
    rw [itemTail]
    split
    · next shown hshape => exact ⟨stop, hstop, hbehind, htaken (by rw [hshape]; rfl)⟩
    · next shown indent hshape => exact ⟨stop, hstop, hbehind, htaken (by rw [hshape]; rfl)⟩
    · next shown hshape =>
      rw [hline] at hshape
      exact ⟨stop, hstop, hbehind, .passed htext (Line.isPrefix_of_comment hshape) hfollows⟩
    · exact ⟨index, hindex, hlines.symm, .done (Nat.le_refl _)⟩

/-- No segment that is written holds a newline. -/
theorem not_mem_of_follows (hprose : Prose marker lines) {first stop : Nat} {segments : List Text}
    (h : Follows marker lines first stop segments) : ∀ segment ∈ segments, '\n' ∉ segment := by
  induction h with
  | done => exact nofun
  | passed _ _ _ ih => exact ih
  | taken here _ occurs _ ih =>
    intro segment hsegment
    rcases List.mem_cons.mp hsegment with rfl | hmem
    · exact fun hnewline ↦
        hprose.noNewline _ (List.mem_of_getElem? here) (occurs.subset hnewline)
    · exact ih segment hmem

/-- The text of an item that starts at a column of a line is written there and on the lines up to
those that are left. -/
theorem written_itemText (hprose : Prose marker lines) {own column : Nat} {text first : Text}
    (htext : lines[own]? = some text) (hkept : ¬ marker <+: text) (hcolumn : column ≤ text.length)
    (hfirst : first <+: text.drop column) :
    ∃ behind, behind ≤ lines.length ∧
      (itemText first (linesFrom marker lines (own + 1))).2 = linesFrom marker lines behind ∧
      Written marker lines own column behind
        (itemText first (linesFrom marker lines (own + 1))).1.lines := by
  obtain ⟨hown, -⟩ := List.getElem?_eq_some_iff.mp htext
  obtain ⟨behind, hle, hbehind, hfollows⟩ := follows_itemTail hprose hown
  refine ⟨behind, hle, hbehind, ?_⟩
  have hoccurs : first <:+: text := hfirst.isInfix.trans (List.drop_suffix column text).isInfix
  have hall := not_mem_of_follows hprose (.taken htext hkept hoccurs hfollows)
  have hlines : (itemText first (linesFrom marker lines (own + 1))).1.lines =
      first :: (itemTail (linesFrom marker lines (own + 1))).1 :=
    Text.lines_unlines (List.cons_ne_nil _ _) hall
  rw [hlines]
  exact ⟨text, first, _, rfl, htext, hkept, hcolumn, hfirst, hfollows⟩

/-- A term is laid out on its line, and a description on that line stands behind it. -/
theorem laid_term (hprose : Prose marker lines) {shown delimiter : Text} {description : Option Text}
    (h : linesFrom marker lines index = line :: rest)
    (hshape : line.shape = .term shown delimiter description) :
    ∃ text column, lines[index]? = some text ∧ ¬ marker <+: text ∧
      LaidItem marker lines (lineStart index) ⟨index + 1, (column : Nat)⟩
        (plainItem line.number (some shown)) ∧
      ∀ described ∈ description, ∃ place, column ≤ place ∧ place ≤ text.length ∧
        described <+: text.drop place := by
  obtain ⟨text, htext, hkept⟩ := kept_of_shape hprose.noReturn h (by rw [hshape]; rfl)
  obtain ⟨_, -, hline, -⟩ := linesFrom_eq_cons h
  have hstands := standsIn_of_linesFrom h
  rw [hshape] at hstands
  obtain ⟨hshown, before, behind, hinput, hdescription⟩ := hstands
  obtain ⟨dropped, hdropped⟩ := input_prefix_of_linesFrom h htext
  rw [hinput, List.append_assoc, List.append_assoc] at hdropped
  have hlines : Text.lines shown = [shown] := by
    refine Text.cutAt_of_not_mem fun hnewline ↦
      hprose.noNewline text (List.mem_of_getElem? htext) ?_
    rw [← hdropped]
    exact List.mem_append_right _ (List.mem_append_left _ hnewline)
  have hwritten : Written marker lines index before.length (index + 1) [shown] := by
    refine ⟨text, shown, [], rfl, htext, hkept, ?_, ?_, .done (Nat.le_refl _)⟩
    · rw [← hdropped, List.length_append]
      omega
    · rw [← hdropped, List.drop_left]
      exact List.prefix_append _ _
  refine ⟨text, before.length + shown.length, htext, hkept, ?_, fun described hdescribed ↦ ?_⟩
  · refine ⟨index, before.length, index + 1, index + 1, ?_, ⟨text, htext, hkept⟩,
      Or.inr ⟨rfl, Int.natCast_nonneg _⟩, Nat.lt_succ_self _, ?_, Nat.le_refl _,
      Or.inr ⟨shown, rfl, hshown, hlines, rfl, rfl, Position.le_refl _⟩⟩
    · rw [hline]
      rfl
    · intro other hother _
      cases hother
      rw [hlines]
      exact hwritten
  · obtain ⟨column, hcolumn, hprefix⟩ :=
      Text.exists_column_of_infix (hdescription described hdescribed)
    refine ⟨before.length + shown.length + column, Nat.le_add_right _ _, ?_, ?_⟩
    · rw [← hdropped, List.length_append, List.length_append, List.length_append]
      omega
    · rw [← hdropped, ← List.append_assoc, ← List.drop_drop, ← List.length_append, List.drop_left,
        List.drop_append_of_le_length hcolumn]
      exact hprefix.trans (List.prefix_append _ _)

/-- Lines that start with no term of a list are left as they are. -/
theorem termRun_of_no_term {delimiter : Text} {remaining : List Line}
    (h : ∀ line rest, remaining = line :: rest → ∀ shown description,
      line.shape ≠ .term shown delimiter description) :
    termRun delimiter remaining = ⟨[], none, remaining⟩ := by
  cases remaining with
  | nil => rfl
  | cons line rest =>
    rw [termRun]
    split
    · next shown found description hshape =>
      rw [if_neg]
      intro hfound
      rw [hfound] at hshape
      exact h line rest rfl shown description hshape
    · rfl

/-- A term is laid out that is the last one of its run: its description follows on its line, or no
term follows on the next one. -/
theorem laid_termRun_of_last (hprose : Prose marker lines) {shown delimiter : Text}
    {description : Option Text} (h : linesFrom marker lines index = line :: rest)
    (hshape : line.shape = .term shown delimiter description)
    (hlast : description = none → termRun delimiter rest = ⟨[], none, rest⟩) :
    RunLaid marker lines index (termRun delimiter (line :: rest)) := by
  obtain ⟨text, column, htext, hkept, hterm, hdescription⟩ := laid_term hprose h hshape
  obtain ⟨_, -, hline, hrest, -⟩ := linesFrom_eq_cons h
  have hnumber : line.number = index + 1 := by
    rw [hline]
    rfl
  have hterms : LaidItems marker lines (lineStart index) ⟨index + 1, (column : Nat)⟩
      [plainItem line.number (some shown)] := ⟨_, hterm, Position.le_refl _⟩
  have hrun : termRun delimiter (line :: rest) =
      ⟨[plainItem line.number (some shown)], description.map (line.number, ·), rest⟩ := by
    rw [termRun, hshape]
    dsimp only
    rw [if_pos rfl]
    cases description with
    | some first => rfl
    | none =>
      dsimp only
      rw [hlast rfl]
      rfl
  rw [hrun]
  refine ⟨index, column, text, htext, hkept, hrest, hterms, congrArg some hnumber, ?_⟩
  intro number first hfirst
  obtain ⟨described, hdescribed, heq⟩ := Option.map_eq_some_iff.mp hfirst
  cases heq
  exact ⟨hnumber, hdescription _ hdescribed⟩

/-- The terms of a run are laid out one behind the other. -/
theorem laid_termRun (hprose : Prose marker lines) {shown delimiter : Text}
    {description : Option Text} (h : linesFrom marker lines index = line :: rest)
    (hshape : line.shape = .term shown delimiter description) :
    RunLaid marker lines index (termRun delimiter (line :: rest)) := by
  induction rest generalizing index line shown description with
  | nil =>
    exact laid_termRun_of_last hprose h hshape fun _ ↦ termRun_of_no_term nofun
  | cons next others ih =>
    by_cases hnext : description = none ∧
        ∃ further described, next.shape = .term further delimiter described
    · obtain ⟨rfl, further, described, hfurther⟩ := hnext
      obtain ⟨_, -, -, hrest, -⟩ := linesFrom_eq_cons h
      obtain ⟨_, column, _, _, hterm, -⟩ := laid_term hprose h hshape
      obtain ⟨own, last, text, htext, hkept, hbehind, hterms, hlast, hdescription⟩ :=
        ih hrest.symm hfurther
      have hrun : termRun delimiter (line :: next :: others) =
          { termRun delimiter (next :: others) with
            terms := plainItem line.number (some shown) ::
              (termRun delimiter (next :: others)).terms } := by
        rw [termRun, hshape]
        dsimp only
        rw [if_pos rfl]
      rw [hrun]
      refine ⟨own, last, text, htext, hkept, hbehind, ?_, ?_, hdescription⟩
      · have hle : (⟨index + 1, (column : Nat)⟩ : Position) ≤ lineStart (index + 1) := by
          refine Position.le_of_line_lt ?_
          rw [lineStart]
          push_cast
          omega
        exact ⟨⟨index + 1, (column : Nat)⟩, hterm, hterms.mono_first hle⟩
      · rw [List.getLast?_cons]
        cases hall : (termRun delimiter (next :: others)).terms.getLast? with
        | none =>
          rw [hall] at hlast
          cases hlast
        | some term =>
          rw [hall] at hlast
          exact hlast
    · refine laid_termRun_of_last hprose h hshape fun hnone ↦ termRun_of_no_term ?_
      intro first rest heq further described hfirst
      cases heq
      exact hnext ⟨hnone, further, described, hfirst⟩

end Runs

end Blocks

end AsciidocSpans
