import AsciidocSpans.Proofs.Span.Order
import AsciidocSpans.Source.Basic

/-!
The offsets of positions. `Source.HasPosition` says that a position exists in a source: its line
does, and its column lies on that line or just behind it. Every such position has an offset inside
the text (`exists_offset_of_hasPosition`), and offsets are in the order of the positions
(`offset_le_offset_iff`). A span exists if both of its ends do, in this order (`Source.HasSpan`);
then its offsets lie inside the text (`range_bounds_of_hasSpan`), and such spans nest exactly as
their offsets do (`within_iff_range_within`).
-/

set_option autoImplicit false
set_option relaxedAutoImplicit false

namespace AsciidocSpans

namespace Source

/-- How many characters, newlines included, stand before the line with an index. -/
def charactersBefore : List Text → Nat → Nat
  | _, 0 => 0
  | [], _ + 1 => 0
  | line :: rest, index + 1 => line.length + 1 + charactersBefore rest index

@[simp] theorem charactersBefore_zero (lines : List Text) : charactersBefore lines 0 = 0 := by
  cases lines <;> rfl

theorem getElem?_lineStarts (start : Nat) {lines : List Text} {index : Nat}
    (h : index ≤ lines.length) :
    (lineStarts start lines)[index]? = some (start + charactersBefore lines index) := by
  induction lines generalizing start index with
  | nil =>
    rw [List.length_nil, Nat.le_zero] at h
    subst h
    rfl
  | cons line rest ih =>
    cases index with
    | zero => rfl
    | succ inner =>
      rw [List.length_cons] at h
      rw [lineStarts, List.getElem?_cons_succ, ih _ (by omega), charactersBefore]
      exact congrArg some (by omega)

theorem charactersBefore_succ {lines : List Text} {index : Nat} {line : Text}
    (h : lines[index]? = some line) :
    charactersBefore lines (index + 1) = charactersBefore lines index + line.length + 1 := by
  induction lines generalizing index with
  | nil => cases h
  | cons first rest ih =>
    cases index with
    | zero =>
      cases h
      simp only [charactersBefore]
      omega
    | succ inner =>
      rw [List.getElem?_cons_succ] at h
      rw [charactersBefore, ih h, charactersBefore]
      omega

theorem charactersBefore_mono (lines : List Text) {first last : Nat} (h : first ≤ last) :
    charactersBefore lines first ≤ charactersBefore lines last := by
  induction lines generalizing first last with
  | nil => cases first <;> cases last <;> exact Nat.le_refl _
  | cons line rest ih =>
    cases first with
    | zero => exact Nat.zero_le _
    | succ inner =>
      cases last with
      | zero => omega
      | succ other =>
        have hrest := ih (Nat.le_of_succ_le_succ h)
        simp only [charactersBefore]
        omega

/-- All lines together hold one character more than the text: the newline that would end it. -/
theorem charactersBefore_length {lines : List Text} (h : lines ≠ []) :
    charactersBefore lines lines.length = (Text.unlines lines).length + 1 := by
  induction lines with
  | nil => exact absurd rfl h
  | cons line rest ih =>
    rw [List.length_cons, charactersBefore]
    cases rest with
    | nil => rfl
    | cons next others =>
      have hjoin : Text.unlines (line :: next :: others) =
          line ++ ['\n'] ++ Text.unlines (next :: others) := rfl
      rw [ih (List.cons_ne_nil _ _), hjoin]
      simp only [List.length_append, List.length_cons, List.length_nil]
      omega

/-- Every offset up to the one behind the last line lies on one of the lines or just behind it. -/
theorem exists_line_of_lt_charactersBefore {lines : List Text} {offset : Nat}
    (h : offset < charactersBefore lines lines.length) :
    ∃ index line, lines[index]? = some line ∧ charactersBefore lines index ≤ offset ∧
      offset ≤ charactersBefore lines index + line.length := by
  induction lines generalizing offset with
  | nil => cases h
  | cons first rest ih =>
    by_cases hfirst : offset ≤ first.length
    · exact ⟨0, first, rfl, Nat.zero_le _, by rw [charactersBefore_zero]; omega⟩
    · rw [List.length_cons, charactersBefore] at h
      obtain ⟨index, line, hline, hlow, hhigh⟩ :=
        ih (show offset - (first.length + 1) < charactersBefore rest rest.length by omega)
      refine ⟨index + 1, line, hline, ?_, ?_⟩ <;> rw [charactersBefore] <;> omega

/-- Whether a position exists in a source. -/
def HasPosition (source : Source) (position : Position) : Prop :=
  1 ≤ position.line ∧ 0 ≤ position.column ∧
    ∃ line, source.line? position.line = some line ∧ position.column ≤ line.length

theorem line?_eq_getElem? (source : Source) {number : Int} (h : 1 ≤ number) :
    source.line? number = source.lines[(number - 1).toNat]? := by
  rw [line?, entryAt?, if_pos (by omega)]

/-- The line of a position that exists is one of the source's lines. -/
theorem line_le_lineCount {source : Source} {position : Position}
    (h : source.HasPosition position) : position.line ≤ source.lineCount := by
  obtain ⟨hfirst, -, line, hline, -⟩ := h
  rw [line?_eq_getElem? source hfirst] at hline
  obtain ⟨hindex, -⟩ := List.getElem?_eq_some_iff.mp hline
  rw [lineCount]
  omega

/-- Whether a span exists in a source: both of its ends do, and it ends no earlier than it
starts. -/
structure HasSpan (source : Source) (location : Location) : Prop where
  start : source.HasPosition location.start
  stop : source.HasPosition location.stop
  ordered : location.Ordered

/-- The span that covers some spans exists if they do. -/
theorem hasSpan_unionAll {source : Source} {first : Location} {others : List Location}
    (h : ∀ location ∈ first :: others, source.HasSpan location) :
    source.HasSpan (first.unionAll others) := by
  obtain ⟨earliest, hearliest, hstart⟩ := Location.exists_start_unionAll first others
  obtain ⟨latest, hlatest, hstop⟩ := Location.exists_stop_unionAll first others
  have hwithin : first.Within (first.unionAll others) :=
    Location.within_unionAll List.mem_cons_self
  have hordered := (h first List.mem_cons_self).ordered
  refine ⟨?_, ?_, Position.le_trans (Position.le_trans hwithin.1 hordered) hwithin.2⟩
  · rw [hstart]
    exact (h earliest hearliest).start
  · rw [hstop]
    exact (h latest hlatest).stop

section OfText

variable {text : Text} {a b : Position} {first last : Int}

/-- The offset of a position that exists. -/
theorem positionOffset?_of_hasPosition (h : (ofText text).HasPosition a) :
    (ofText text).positionOffset? a =
      some (charactersBefore text.lines (a.line - 1).toNat + a.column) := by
  obtain ⟨hfirst, -, line, hline, -⟩ := h
  rw [line?_eq_getElem? _ hfirst] at hline
  obtain ⟨hindex, -⟩ := List.getElem?_eq_some_iff.mp hline
  have hstart : (ofText text).starts[(a.line - 1).toNat]? =
      some (0 + charactersBefore text.lines (a.line - 1).toNat) :=
    getElem?_lineStarts 0 (Nat.le_of_lt hindex)
  rw [Nat.zero_add] at hstart
  rw [positionOffset?, offset?, entryAt?, if_pos (by omega), hstart]
  rfl

/-- A position that exists has an offset, and it lies inside the text. -/
theorem exists_offset_of_hasPosition (h : (ofText text).HasPosition a) :
    ∃ offset, (ofText text).positionOffset? a = some offset ∧ 0 ≤ offset ∧
      offset ≤ text.length := by
  refine ⟨_, positionOffset?_of_hasPosition h, ?_, ?_⟩
  · have := h.2.1
    omega
  · obtain ⟨hfirst, hcolumn, line, hline, hwidth⟩ := h
    rw [line?_eq_getElem? _ hfirst] at hline
    obtain ⟨hindex, -⟩ := List.getElem?_eq_some_iff.mp hline
    have hsucc := charactersBefore_succ (show text.lines[_]? = _ from hline)
    have hmono := charactersBefore_mono text.lines (Nat.succ_le_of_lt hindex)
    have htotal := charactersBefore_length (Text.lines_ne_nil text)
    rw [Text.unlines_lines] at htotal
    change charactersBefore text.lines ((a.line - 1).toNat + 1) ≤
      charactersBefore text.lines text.lines.length at hmono
    omega

/-- A position on an earlier line has a smaller offset. -/
theorem offset_lt_offset_of_line_lt (ha : (ofText text).HasPosition a)
    (hb : (ofText text).HasPosition b) (hline : a.line < b.line)
    (hfirst : (ofText text).positionOffset? a = some first)
    (hlast : (ofText text).positionOffset? b = some last) : first < last := by
  rw [positionOffset?_of_hasPosition ha] at hfirst
  rw [positionOffset?_of_hasPosition hb] at hlast
  cases hfirst
  cases hlast
  obtain ⟨hone, -, line, hown, hwidth⟩ := ha
  rw [line?_eq_getElem? _ hone] at hown
  have hsucc := charactersBefore_succ (show text.lines[_]? = _ from hown)
  have hmono := charactersBefore_mono text.lines
    (by omega : (a.line - 1).toNat + 1 ≤ (b.line - 1).toNat)
  have hcolumn := hb.2.1
  omega

/-- Offsets are in the order of the positions that they belong to. -/
theorem offset_le_offset_iff (ha : (ofText text).HasPosition a)
    (hb : (ofText text).HasPosition b)
    (hfirst : (ofText text).positionOffset? a = some first)
    (hlast : (ofText text).positionOffset? b = some last) : first ≤ last ↔ a ≤ b := by
  rw [Position.le_iff]
  rcases Int.lt_trichotomy a.line b.line with hlt | heq | hgt
  · have := offset_lt_offset_of_line_lt ha hb hlt hfirst hlast
    omega
  · rw [positionOffset?_of_hasPosition ha] at hfirst
    rw [positionOffset?_of_hasPosition hb] at hlast
    cases hfirst
    cases hlast
    rw [heq]
    omega
  · have := offset_lt_offset_of_line_lt hb ha hgt hlast hfirst
    omega

/-- Positions that exist are told apart by their offsets. -/
theorem eq_of_positionOffset?_eq {offset : Int} (ha : (ofText text).HasPosition a)
    (hb : (ofText text).HasPosition b) (hfirst : (ofText text).positionOffset? a = some offset)
    (hlast : (ofText text).positionOffset? b = some offset) : a = b :=
  Position.le_antisymm
    ((offset_le_offset_iff ha hb hfirst hlast).mp (Int.le_refl offset))
    ((offset_le_offset_iff hb ha hlast hfirst).mp (Int.le_refl offset))

/-- Every offset of the text belongs to a position. -/
theorem exists_hasPosition_of_offset {offset : Int} (hzero : 0 ≤ offset)
    (hlength : offset ≤ text.length) :
    ∃ position, (ofText text).HasPosition position ∧
      (ofText text).positionOffset? position = some offset := by
  have htotal := charactersBefore_length (Text.lines_ne_nil text)
  rw [Text.unlines_lines] at htotal
  obtain ⟨index, line, hline, hlow, hhigh⟩ := exists_line_of_lt_charactersBefore
    (show offset.toNat < charactersBefore text.lines text.lines.length by omega)
  let position : Position := ⟨index + 1, offset - charactersBefore text.lines index⟩
  have hindex : (position.line - 1).toNat = index := by
    change ((index : Int) + 1 - 1).toNat = index
    omega
  have hexists : (ofText text).HasPosition position := by
    have hone : 1 ≤ position.line := show (1 : Int) ≤ index + 1 by omega
    refine ⟨hone, show 0 ≤ offset - charactersBefore text.lines index by omega, line, ?_,
      show offset - charactersBefore text.lines index ≤ line.length by omega⟩
    rw [line?_eq_getElem? _ hone, hindex]
    exact hline
  refine ⟨position, hexists, ?_⟩
  rw [positionOffset?_of_hasPosition hexists, hindex]
  exact congrArg some (show (charactersBefore text.lines index : Int) +
    (offset - charactersBefore text.lines index) = offset by omega)

variable {location outer : Location} {range bounds : Int × Int}

/-- The offsets of a span are those of its ends. -/
theorem range?_eq_some_iff {source : Source} : source.range? location = some range ↔
    source.positionOffset? location.start = some range.1 ∧
      source.positionOffset? location.stop = some range.2 := by
  obtain ⟨first, last⟩ := range
  rw [range?]
  cases source.positionOffset? location.start <;> cases source.positionOffset? location.stop <;>
    simp [bind, pure]

/-- The offsets of a span that exists lie inside the text, in order. -/
theorem range_bounds_of_hasSpan (h : (ofText text).HasSpan location)
    (hrange : (ofText text).range? location = some range) :
    0 ≤ range.1 ∧ range.1 ≤ range.2 ∧ range.2 ≤ text.length := by
  obtain ⟨hfirst, hlast⟩ := range?_eq_some_iff.mp hrange
  obtain ⟨first, hstart, hzero, -⟩ := exists_offset_of_hasPosition h.start
  obtain ⟨last, hstop, -, hlength⟩ := exists_offset_of_hasPosition h.stop
  rw [hstart] at hfirst
  rw [hstop] at hlast
  cases hfirst
  cases hlast
  exact ⟨hzero, (offset_le_offset_iff h.start h.stop hstart hstop).mpr h.ordered, hlength⟩

/-- Spans that exist nest exactly as their offsets do. -/
theorem within_iff_range_within (h : (ofText text).HasSpan location)
    (houter : (ofText text).HasSpan outer)
    (hrange : (ofText text).range? location = some range)
    (hbounds : (ofText text).range? outer = some bounds) :
    location.Within outer ↔ bounds.1 ≤ range.1 ∧ range.2 ≤ bounds.2 := by
  obtain ⟨hfirst, hlast⟩ := range?_eq_some_iff.mp hrange
  obtain ⟨hlower, hupper⟩ := range?_eq_some_iff.mp hbounds
  rw [offset_le_offset_iff houter.start h.start hlower hfirst,
    offset_le_offset_iff h.stop houter.stop hlast hupper]
  rfl

end OfText

end Source

end AsciidocSpans
