import AsciidocSpans.Proofs.Span.Order
import AsciidocSpans.Proofs.Span.Written
import Mathlib.Data.List.Forall2

/-!
Passages of a source in order. A passage is some texts that stand on consecutive lines, and a first
line; it stands between two positions if its texts do (`Occupies`), the first of them behind the one
position and the last of them before the other. Passages are `LaidOut` if each stands where the one
before it ends or later. Whatever stands inside the texts of a passage stands there too, so passages
can be cut down without being rearranged (`LaidOut.refine`).

Where no line is a comment, a search that starts on the first line of a passage, no later than the
passage may start, ends no later than the passage does (`exists_find?_of_occupies`). So passages are
found one behind the other by searches that each start where the one before it ended, although the
searches may find other occurrences than the ones that were meant.
-/

set_option autoImplicit false
set_option relaxedAutoImplicit false

namespace AsciidocSpans

open Text

/-- Texts that stand on consecutive lines, and the number of the first line. -/
structure Passage where
  lineno : Int
  texts : List Text

variable {lines : List Text}

/-- A text occurs between two positions of one line. -/
def StandsBetween (lines : List Text) (start stop : Position) (text : Text) : Prop :=
  ∃ (index column : Nat) (line : Text), start.line = index + 1 ∧ stop.line = index + 1 ∧
    lines[index]? = some line ∧ 0 ≤ start.column ∧ start.column ≤ column ∧ column ≤ line.length ∧
    text <+: line.drop column ∧ column + text.length ≤ stop.column

/-- Texts occur on consecutive lines, the first one behind a position and the last one before
another position. -/
inductive Occupies (lines : List Text) : Position → Position → List Text → Prop
  | last {start stop : Position} {text : Text} (here : StandsBetween lines start stop text) :
      Occupies lines start stop [text]
  | more {start stop : Position} {column : Int} {text : Text} {others : List Text}
      (here : StandsBetween lines start ⟨start.line, column⟩ text)
      (behind : Occupies lines ⟨start.line + 1, 0⟩ stop others) :
      Occupies lines start stop (text :: others)

section Occupies

variable {start stop : Position} {text part : Text} {texts parts : List Text}

/-- A text inside another one stands wherever that one does. -/
theorem StandsBetween.inside (h : StandsBetween lines start stop text) (hpart : part <:+: text) :
    StandsBetween lines start stop part := by
  obtain ⟨index, column, line, hstart, hstop, hline, hzero, hle, hbound, hoccurs, hfits⟩ := h
  obtain ⟨offset, hoffset, hprefix⟩ := exists_column_of_infix hpart
  have hlength := hoccurs.length_le
  have hinner := hprefix.length_le
  have hthere : part <+: line.drop (column + offset) := by
    obtain ⟨rest, hrest⟩ := hoccurs
    rw [← List.drop_drop, ← hrest, List.drop_append_of_le_length hoffset]
    exact hprefix.trans (List.prefix_append _ rest)
  rw [List.length_drop] at hlength hinner
  refine ⟨index, column + offset, line, hstart, hstop, hline, hzero, ?_, ?_, hthere, ?_⟩
  all_goals
    push_cast
    omega

theorem StandsBetween.line_eq (h : StandsBetween lines start stop text) :
    stop.line = start.line := by
  obtain ⟨index, column, line, hstart, hstop, -⟩ := h
  omega

theorem StandsBetween.le (h : StandsBetween lines start stop text) : start ≤ stop := by
  have hline := h.line_eq
  obtain ⟨index, column, line, -, -, -, -, hle, -, -, hfits⟩ := h
  exact Or.inr ⟨hline.symm, by omega⟩

theorem Occupies.ne_nil (h : Occupies lines start stop texts) : texts ≠ [] := by
  cases h <;> exact List.cons_ne_nil _ _

theorem Occupies.le (h : Occupies lines start stop texts) : start ≤ stop := by
  induction h with
  | last here => exact here.le
  | more here others ih =>
    have hline := Position.line_le_of_le ih
    exact Position.le_of_line_lt (by dsimp only at hline; omega)

/-- Texts take up as many lines as there are of them. -/
theorem Occupies.stop_line (h : Occupies lines start stop texts) :
    stop.line + 1 = start.line + texts.length := by
  induction h with
  | last here =>
    rw [here.line_eq, List.length_singleton]
    rfl
  | more here others ih =>
    rw [ih, List.length_cons]
    push_cast
    omega

/-- Texts end on a line of the source. -/
theorem Occupies.stop_line_le (h : Occupies lines start stop texts) : stop.line ≤ lines.length := by
  induction h with
  | last here =>
    obtain ⟨index, _, _, -, hstop, hline, -⟩ := here
    have := (List.getElem?_eq_some_iff.mp hline).1
    omega
  | more _ _ ih => exact ih

/-- The first text stands on a line of the source, at no column below zero. -/
theorem Occupies.exists_index (h : Occupies lines start stop texts) :
    ∃ index : Nat, start.line = index + 1 ∧ index < lines.length ∧ 0 ≤ start.column := by
  cases h with
  | last here | more here others =>
    obtain ⟨index, _, _, hstart, -, hline, hzero, -⟩ := here
    exact ⟨index, hstart, (List.getElem?_eq_some_iff.mp hline).1, hzero⟩

/-- Texts that stand in a source stand in lines of it. -/
theorem Occupies.exists_isInfix (h : Occupies lines start stop texts) :
    ∀ text ∈ texts, ∃ line ∈ lines, text <:+: line := by
  have hstep : ∀ {start stop : Position} {text : Text}, StandsBetween lines start stop text →
      ∃ line ∈ lines, text <:+: line := by
    intro start stop text h
    obtain ⟨_, column, line, -, -, hline, -, -, -, hoccurs, -⟩ := h
    exact ⟨line, List.mem_of_getElem? hline,
      hoccurs.isInfix.trans (List.drop_suffix column line).isInfix⟩
  induction h with
  | last here =>
    intro text htext
    rw [List.mem_singleton.mp htext]
    exact hstep here
  | more here behind ih =>
    intro text htext
    rcases List.mem_cons.mp htext with rfl | hmem
    · exact hstep here
    · exact ih text hmem

/-- Texts inside other ones stand wherever those do. -/
theorem Occupies.inside (h : Occupies lines start stop texts)
    (hparts : List.Forall₂ (· <:+: ·) parts texts) : Occupies lines start stop parts := by
  induction h generalizing parts with
  | last here =>
    obtain _ | ⟨hpart, hnil⟩ := hparts
    cases hnil
    exact .last (here.inside hpart)
  | more here others ih =>
    obtain _ | ⟨hpart, hothers⟩ := hparts
    exact .more (here.inside hpart) (ih hothers)

/-- The first texts of some stand where these do, perhaps not as far. -/
theorem Occupies.initial (h : Occupies lines start stop texts) (hparts : parts <+: texts)
    (hsome : parts ≠ []) : ∃ earlier, earlier ≤ stop ∧ Occupies lines start earlier parts := by
  induction h generalizing parts with
  | @last start stop text here =>
    obtain ⟨part, others, rfl⟩ := List.exists_cons_of_ne_nil hsome
    obtain ⟨rfl, hothers⟩ := List.cons_prefix_cons.mp hparts
    rw [List.prefix_nil.mp hothers]
    exact ⟨stop, Position.le_refl stop, .last here⟩
  | @more start stop column text others here hbehind ih =>
    obtain ⟨part, rest, rfl⟩ := List.exists_cons_of_ne_nil hsome
    obtain ⟨rfl, hrest⟩ := List.cons_prefix_cons.mp hparts
    by_cases hnil : rest = []
    · subst hnil
      have hline := Position.line_le_of_le hbehind.le
      exact ⟨⟨start.line, column⟩, Position.le_of_line_lt (by dsimp only at hline ⊢; omega),
        .last here⟩
    · obtain ⟨earlier, hearlier, hfound⟩ := ih hrest hnil
      exact ⟨earlier, hearlier, .more here hfound⟩

/-- The texts behind the first one stand on the lines behind its own. -/
theorem Occupies.tail (h : Occupies lines start stop (text :: texts)) (hsome : texts ≠ []) :
    Occupies lines ⟨start.line + 1, 0⟩ stop texts := by
  cases h with
  | last => exact absurd rfl hsome
  | more here others => exact others

end Occupies

/-- A passage stands between two positions. -/
def Passage.Between (lines : List Text) (low high : Position) (passage : Passage) : Prop :=
  ∃ start stop, low ≤ start ∧ stop ≤ high ∧ start.line = passage.lineno ∧
    Occupies lines start stop passage.texts

/-- Passages stand one behind the other, from a position on. -/
inductive LaidOut (lines : List Text) : Position → List Passage → Prop
  | nil {low : Position} : LaidOut lines low []
  | cons {low high : Position} {passage : Passage} {others : List Passage}
      (here : passage.Between lines low high) (behind : LaidOut lines high others) :
      LaidOut lines low (passage :: others)

section LaidOut

variable {low high : Position} {passages others : List Passage}

theorem Passage.Between.mono {passage : Passage} (h : passage.Between lines high low)
    {earlier : Position} (hle : earlier ≤ high) : passage.Between lines earlier low := by
  obtain ⟨start, stop, hstart, hrest⟩ := h
  exact ⟨start, stop, Position.le_trans hle hstart, hrest⟩

theorem LaidOut.mono (h : LaidOut lines high passages) (hle : low ≤ high) :
    LaidOut lines low passages := by
  cases h with
  | nil => exact .nil
  | cons here others => exact .cons (here.mono hle) others

/-- Passages that are cut down stay laid. -/
theorem LaidOut.refine (h : LaidOut lines low passages)
    (hparts : List.Forall₂ (fun part passage ↦ ∀ low high, passage.Between lines low high →
      part.Between lines low high) others passages) : LaidOut lines low others := by
  induction h generalizing others with
  | nil =>
    cases hparts
    exact .nil
  | cons here _ ih =>
    obtain _ | ⟨hpart, hothers⟩ := hparts
    exact .cons (hpart _ _ here) (ih hothers)

/-- Each of some passages that are laid stands somewhere. -/
theorem LaidOut.exists_between (h : LaidOut lines low passages) {passage : Passage}
    (hpassage : passage ∈ passages) : ∃ first last, passage.Between lines first last := by
  induction h with
  | nil => cases hpassage
  | @cons low high _ _ here _ ih =>
    rcases List.mem_cons.mp hpassage with rfl | hmem
    · exact ⟨low, high, here⟩
    · exact ih hmem

end LaidOut

namespace Locator

variable {skipped : Text → Bool} {start stop : Position}

/-- A text that stands between two positions is found by a search that starts no later than it may
start, and then it ends no later than there. -/
theorem exists_column?_of_standsBetween {text : Text} (h : StandsBetween lines start stop text)
    {column : Int} (hzero : 0 ≤ column) (hcolumn : column ≤ start.column) :
    ∃ line found, lines[(start.line - 1).toNat]? = some line ∧
      column? text line column = some found ∧ column ≤ found ∧
      (found + text.length : Nat) ≤ stop.column := by
  obtain ⟨index, there, line, hstart, -, hline, -, hle, hlength, hoccurs, hfits⟩ := h
  have hfirst : column.toNat ≤ there := by omega
  obtain ⟨found, hfound, hbehind, hbefore⟩ := exists_column?_le hfirst hlength hoccurs
  rw [Int.toNat_of_nonneg hzero] at hfound
  have hindex : (start.line - 1).toNat = index := by omega
  exact ⟨line, found, by rw [hindex, hline], hfound, by omega, by omega⟩

/-- Where nothing is passed over, a search that starts no later than some texts may start comes to
its end on the last line of theirs, with the last text no later than they end. -/
theorem exists_lastLine?_of_occupies {segments : List Text}
    (hkept : ∀ line ∈ lines, skipped line = false) (h : Occupies lines start stop segments)
    {column : Int} (hzero : 0 ≤ column) (hcolumn : column ≤ start.column) :
    ∃ line, lastLine? skipped column start.line (lines.drop (start.line - 1).toNat) segments =
        some (stop.line, line) ∧
      ∃ found, column? (segments.getLastD []) line (if segments.length = 1 then column else 0) =
          some found ∧ (found + (segments.getLastD []).length : Nat) ≤ stop.column := by
  induction h generalizing column with
  | last here =>
    obtain ⟨line, found, hline, hfound, -, hfits⟩ :=
      exists_column?_of_standsBetween here hzero hcolumn
    have hskipped := hkept line (List.mem_of_getElem? hline)
    refine ⟨line, ?_, found, ?_, hfits⟩
    · rw [drop_eq_cons hline, lastLine?_of_not_skipped hskipped hfound, here.line_eq]
      rfl
    · rw [if_pos List.length_singleton]
      exact hfound
  | @more start stop high text others here behind ih =>
    obtain ⟨line, found, hline, hfound, -, -⟩ := exists_column?_of_standsBetween here hzero hcolumn
    obtain ⟨final, hfinal, last, hlast, hend⟩ := ih (Int.le_refl 0) (Int.le_refl 0)
    obtain ⟨index, _, _, hindex, -⟩ := here
    have hskipped := hkept line (List.mem_of_getElem? hline)
    have hnext : (start.line - 1).toNat + 1 = (start.line + 1 - 1).toNat := by omega
    obtain ⟨other, more, rfl⟩ := List.exists_cons_of_ne_nil behind.ne_nil
    have hmany : (text :: other :: more).length ≠ 1 := by
      rw [List.length_cons, List.length_cons]
      omega
    refine ⟨final, ?_, last, ?_, hend⟩
    · rw [drop_eq_cons hline, lastLine?_of_not_skipped hskipped hfound, hnext]
      exact hfinal
    · rw [if_neg hmany]
      rwa [ite_self] at hlast

variable {locator : Locator} {window : Window} {segments : List Text}

/-- Where no line is a comment, texts are found on their first line by a search that starts there,
no later than they may start, in a window that reaches as far as they do; what is found ends no
later than they do. -/
theorem exists_find?_of_occupies
    (hkept : ∀ line ∈ locator.source.lines, ¬ locator.commentMarker <+: line)
    (h : Occupies locator.source.lines start stop segments) (hminLine : window.minLine = start.line)
    (hmaxLine : stop.line ≤ window.maxLine) (hzero : 0 ≤ window.startColumn)
    (hcolumn : window.startColumn ≤ start.column) :
    ∃ location, locator.find? false segments window = some location ∧
      location.start.line = start.line ∧ window.startColumn ≤ location.start.column ∧
      location.stop ≤ stop := by
  obtain ⟨own, hown, hindex, -⟩ := h.exists_index
  have hskips : ∀ line ∈ locator.source.lines, locator.skips false line = false := fun line hmem ↦
    Bool.eq_false_iff.mpr fun hskip ↦ hkept line hmem ((skips_eq_true_iff line).mp hskip)
  obtain ⟨final, hlast, found, hfound, hend⟩ := exists_lastLine?_of_occupies hskips h hzero hcolumn
  obtain ⟨line, column, hline, hfirst, hbehind⟩ : ∃ line column,
      locator.source.lines[(start.line - 1).toNat]? = some line ∧
        column? (segments.headD []) line window.startColumn = some column ∧
        window.startColumn ≤ column := by
    cases h with
    | last here | more here behind =>
      obtain ⟨line, column, hline, hcolumn, hbehind, -⟩ :=
        exists_column?_of_standsBetween here hzero hcolumn
      exact ⟨line, column, hline, hcolumn, hbehind⟩
  have hindexEq : (start.line - 1).toNat = own := by omega
  have hroom : own + 1 ≤ locator.lastStart segments window := by
    have hlines := h.stop_line
    have hreach := h.stop_line_le
    rw [lastStart, Source.lineCount]
    omega
  rw [hindexEq, hown] at hlast
  rw [hindexEq] at hline
  refine ⟨_, find?_of_lastLine? h.ne_nil hline (hminLine.trans hown) hroom hlast, hown.symm, ?_,
    Or.inr ⟨rfl, ?_⟩⟩
  · rw [spanOf]
    dsimp only
    rw [hfirst, Option.getD_some]
    exact hbehind
  · rw [spanOf]
    dsimp only
    rw [hfound, Option.getD_some]
    exact hend

end Locator

end AsciidocSpans
