import AsciidocSpans.Proofs.Span.Matched
import Mathlib

/-!
A text as its line table. Positions and offsets are two names for the same places: the positions
that exist, ordered by line and then by column, correspond one to one and in order to the offsets
from zero to the length of the text (`Source.orderIso`). What a span cuts out of the text is
`Source.excerpt`, told line by line: a piece of the only line, or else the tail of the first line,
the whole lines between and the head of the last one. `Source.positions_isomorphic` puts both
together.
-/

set_option autoImplicit false
set_option relaxedAutoImplicit false

namespace AsciidocSpans

open Text

namespace Text

/-- Characters taken off the first of several lines leave the others as they are. -/
theorem drop_unlines_cons {line : Text} {rest : List Text} {column : Nat} (hrest : rest ≠ [])
    (h : column ≤ line.length) :
    (unlines (line :: rest)).drop column = unlines (line.drop column :: rest) := by
  rw [unlines, unlines, joinWith_cons _ _ hrest, joinWith_cons _ _ hrest, List.append_assoc,
    List.drop_append_of_le_length h, List.append_assoc]

/-- An index that counts from the front is where a slice starts. -/
theorem startIndex_natCast (text : Text) (index : Nat) : text.startIndex (index : Int) = index := by
  rw [startIndex, if_pos (Int.natCast_nonneg index), Int.toNat_natCast]

end Text

namespace Source

/-! ### Heads and tails of joined lines -/

/-- Only the lines before an index count for the characters before it. -/
theorem charactersBefore_take_append {lines others : List Text} {index bound : Nat}
    (h : index ≤ bound) (hbound : bound ≤ lines.length) :
    charactersBefore (lines.take bound ++ others) index = charactersBefore lines index := by
  induction lines generalizing index bound with
  | nil =>
    obtain rfl : bound = 0 := Nat.le_zero.mp hbound
    obtain rfl : index = 0 := Nat.le_zero.mp h
    rw [charactersBefore_zero, charactersBefore_zero]
  | cons line rest ih =>
    cases index with
    | zero => rw [charactersBefore_zero, charactersBefore_zero]
    | succ inner =>
      obtain ⟨last, rfl⟩ : ∃ last, bound = last + 1 := Nat.exists_eq_add_one.mpr (by omega)
      rw [List.take_succ_cons, List.cons_append, charactersBefore, charactersBefore,
        ih (Nat.le_of_succ_le_succ h) (Nat.le_of_succ_le_succ hbound)]

/-- Up to a column of a line, joined lines are the lines before it and the head of that line. -/
theorem take_charactersBefore {lines : List Text} {line : Text} {index column : Nat}
    (hline : lines[index]? = some line) (hcolumn : column ≤ line.length) :
    (unlines lines).take (charactersBefore lines index + column) =
      unlines (lines.take index ++ [line.take column]) := by
  induction lines generalizing index with
  | nil => cases hline
  | cons first rest ih =>
    cases index with
    | zero =>
      obtain rfl : first = line := Option.some.inj hline
      obtain ⟨behind, hbehind⟩ := isPrefix_unlines_cons first rest
      rw [charactersBefore_zero, Nat.zero_add, ← hbehind, List.take_append_of_le_length hcolumn]
      rfl
    | succ inner =>
      rw [List.getElem?_cons_succ] at hline
      have hrest : rest ≠ [] := by
        rintro rfl
        cases hline
      have hhead : (first ++ ['\n']).length = first.length + 1 := by
        rw [List.length_append, List.length_singleton]
      rw [charactersBefore, unlines, joinWith_cons _ _ hrest, Nat.add_assoc, ← hhead,
        List.take_length_add_append, List.take_succ_cons, List.cons_append, unlines,
        joinWith_cons _ _ (List.append_ne_nil_of_right_ne_nil _ (List.cons_ne_nil _ _))]
      exact congrArg ((first ++ ['\n']) ++ ·) (ih hline)

/-- Between two places of joined lines stands what the line of the first one and those up to the
head of the other one make, without what comes before the first place on its line. -/
theorem drop_take_unlines {lines : List Text} {last : Text} {i j d : Nat} (c : Nat) (h : i ≤ j)
    (hj : lines[j]? = some last) (hd : d ≤ last.length) :
    ((unlines lines).take (charactersBefore lines j + d)).drop (charactersBefore lines i + c) =
      (unlines ((lines.take j ++ [last.take d]).drop i)).drop c := by
  obtain ⟨hbound, -⟩ := List.getElem?_eq_some_iff.mp hj
  have hlength : i < (lines.take j ++ [last.take d]).length := by
    rw [List.length_append, List.length_take_of_le hbound.le, List.length_singleton]
    omega
  rw [take_charactersBefore hj hd, ← List.drop_drop, ← charactersBefore_take_append h hbound.le,
    drop_charactersBefore hlength]

/-- Two places on one line have a piece of that line between them. -/
theorem drop_take_unlines_of_same {lines : List Text} {line : Text} {i c d : Nat}
    (hi : lines[i]? = some line) (hd : d ≤ line.length) :
    ((unlines lines).take (charactersBefore lines i + d)).drop (charactersBefore lines i + c) =
      (line.take d).drop c := by
  obtain ⟨hbound, -⟩ := List.getElem?_eq_some_iff.mp hi
  rw [drop_take_unlines c le_rfl hi hd,
    List.drop_left' (List.length_take_of_le hbound.le), unlines, joinWith]

/-- Two places on different lines have the tail of the first line, the whole lines between and the
head of the last line between them. -/
theorem drop_take_unlines_of_lt {lines : List Text} {first last : Text} {i j c d : Nat} (h : i < j)
    (hi : lines[i]? = some first) (hj : lines[j]? = some last) (hc : c ≤ first.length)
    (hd : d ≤ last.length) :
    ((unlines lines).take (charactersBefore lines j + d)).drop (charactersBefore lines i + c) =
      unlines (first.drop c :: ((lines.take j).drop (i + 1) ++ [last.take d])) := by
  obtain ⟨hbound, -⟩ := List.getElem?_eq_some_iff.mp hj
  have hcut : (lines.take j).drop i = first :: (lines.take j).drop (i + 1) :=
    Locator.drop_eq_cons (by rw [List.getElem?_take_of_lt h, hi])
  have hlength : i ≤ (lines.take j).length := by
    rw [List.length_take_of_le hbound.le]
    exact h.le
  rw [drop_take_unlines c h.le hj hd, List.drop_append_of_le_length hlength, hcut,
    List.cons_append, drop_unlines_cons (List.append_ne_nil_of_right_ne_nil _
      (List.cons_ne_nil _ _)) hc]

/-! ### What a span cuts out -/

/-- What a span covers, line by line: a piece of its only line, or the tail of the line where it
starts, the whole lines between and the head of the line where it stops. -/
def excerpt (source : Source) (location : Location) : Text :=
  let first := (source.line? location.start.line).getD []
  let last := (source.line? location.stop.line).getD []
  if location.start.line = location.stop.line then
    (first.take location.stop.column.toNat).drop location.start.column.toNat
  else
    unlines (first.drop location.start.column.toNat ::
      ((source.lines.take (location.stop.line - 1).toNat).drop location.start.line.toNat ++
        [last.take location.stop.column.toNat]))

variable {text : Text}

/-- A position that exists, as the index of a line and a column on that line, with the offset that
it has. -/
theorem exists_index_of_hasPosition {position : Position}
    (h : (ofText text).HasPosition position) :
    ∃ (i c : Nat) (line : Text), position = ⟨i + 1, c⟩ ∧ text.lines[i]? = some line ∧
      c ≤ line.length ∧ (ofText text).line? (i + 1) = some line ∧
      (ofText text).positionOffset? position =
        some ((charactersBefore text.lines i + c : Nat) : Int) := by
  have hoffset := positionOffset?_of_hasPosition h
  obtain ⟨number, column⟩ := position
  obtain ⟨hfirst, hzero, line, hline, hwidth⟩ := h
  obtain ⟨i, rfl⟩ : ∃ i : Nat, number = i + 1 :=
    ⟨(number - 1).toNat, by dsimp only at hfirst; omega⟩
  obtain ⟨c, rfl⟩ := Int.eq_ofNat_of_zero_le hzero
  have hindex : (((i : Int) + 1) - 1).toNat = i := by omega
  refine ⟨i, c, line, rfl, ?_, Int.ofNat_le.mp hwidth, hline, ?_⟩
  · rw [line?_eq_getElem? _ hfirst] at hline
    rw [← hindex]
    exact hline
  · rw [hoffset, Int.natCast_add]
    dsimp only
    rw [hindex]

/-- The part of a text between two positions, told by the lines they are on. -/
theorem slice_eq_excerpt {location : Location} {range : Int × Int}
    (h : (ofText text).HasSpan location) (hrange : (ofText text).range? location = some range) :
    text.slice range.1 range.2 = (ofText text).excerpt location := by
  obtain ⟨start, stop⟩ := location
  obtain ⟨hfirst, hlast⟩ := range?_eq_some_iff.mp hrange
  obtain ⟨i, c, first, hstart, hi, hc, hfirst?, hoffset⟩ := exists_index_of_hasPosition h.start
  obtain ⟨j, d, last, hstop, hj, hd, hlast?, hbehind⟩ := exists_index_of_hasPosition h.stop
  have hordered := h.ordered
  obtain ⟨place, upTo⟩ := range
  obtain rfl : ((charactersBefore text.lines i + c : Nat) : Int) = place :=
    Option.some.inj (hoffset.symm.trans hfirst)
  obtain rfl : ((charactersBefore text.lines j + d : Nat) : Int) = upTo :=
    Option.some.inj (hbehind.symm.trans hlast)
  dsimp only at hstart hstop
  subst hstart hstop
  rw [Location.Ordered, Position.le_iff] at hordered
  dsimp only at hordered
  have htext : text = unlines text.lines := (unlines_lines text).symm
  have hindex : (((j : Int) + 1) - 1).toNat = j := by omega
  rw [slice, startIndex_natCast, startIndex_natCast, excerpt]
  simp only [hfirst?, hlast?, Option.getD_some, Int.toNat_natCast]
  rcases (by omega : i < j ∨ i = j) with hlt | rfl
  · rw [if_neg (by omega), hindex, Int.toNat_natCast_add_one]
    exact (congrArg (fun whole ↦ List.drop _ (List.take _ whole)) htext).trans
      (drop_take_unlines_of_lt hlt hi hj hc hd)
  · obtain rfl : first = last := Option.some.inj (hi.symm.trans hj)
    rw [if_pos rfl]
    exact (congrArg (fun whole ↦ List.drop _ (List.take _ whole)) htext).trans
      (drop_take_unlines_of_same hi hd)

/-! ### Positions and offsets -/

/-- The offset of a position that exists, among those of the text. -/
theorem exists_offset_mem_Icc (position : {p : Position // (ofText text).HasPosition p}) :
    ∃ offset : Set.Icc (0 : Int) text.length,
      (ofText text).positionOffset? position.1 = some offset.1 := by
  obtain ⟨offset, hoffset, hzero, hlength⟩ := exists_offset_of_hasPosition position.2
  exact ⟨⟨offset, hzero, hlength⟩, hoffset⟩

/-- The positions of a text and its offsets are the same order. -/
theorem orderIso (text : Text) :
    ∃ iso : {p : Position // (ofText text).HasPosition p} ≃o Set.Icc (0 : Int) text.length,
      ∀ position, (ofText text).positionOffset? position.1 = some (iso position).1 := by
  choose toOffset htoOffset using
    fun position : {p : Position // (ofText text).HasPosition p} ↦ exists_offset_mem_Icc position
  have hinjective : Function.Injective toOffset := fun a b hab ↦
    Subtype.ext (eq_of_positionOffset?_eq a.2 b.2 (htoOffset a) (hab ▸ htoOffset b))
  have hsurjective : Function.Surjective toOffset := by
    rintro ⟨offset, hzero, hlength⟩
    obtain ⟨position, hposition, hoffset⟩ := exists_hasPosition_of_offset hzero hlength
    refine ⟨⟨position, hposition⟩, Subtype.ext ?_⟩
    exact Option.some.inj ((htoOffset ⟨position, hposition⟩).symm.trans hoffset)
  refine ⟨⟨Equiv.ofBijective toOffset ⟨hinjective, hsurjective⟩, fun {a b} ↦ ?_⟩, htoOffset⟩
  exact offset_le_offset_iff a.2 b.2 (htoOffset a) (htoOffset b)

/-- The line table of a text. Its lines make the text when they are joined; its positions, ordered
by line and then by column, are isomorphic to the offsets from zero to the length of the text; and
the offsets of a span cut out of the text what the span covers line by line. -/
theorem positions_isomorphic (text : Text) :
    unlines (ofText text).lines = text ∧
    (∃ iso : {p : Position // (ofText text).HasPosition p} ≃o Set.Icc (0 : Int) text.length,
      ∀ position, (ofText text).positionOffset? position.1 = some (iso position).1) ∧
    ∀ location, (ofText text).HasSpan location →
      ∃ range, (ofText text).range? location = some range ∧
        text.slice range.1 range.2 = (ofText text).excerpt location := by
  refine ⟨unlines_lines text, orderIso text, fun location h ↦ ?_⟩
  obtain ⟨first, hfirst, -⟩ := exists_offset_of_hasPosition h.start
  obtain ⟨last, hlast, -⟩ := exists_offset_of_hasPosition h.stop
  have hrange : (ofText text).range? location = some (first, last) :=
    range?_eq_some_iff.mpr ⟨hfirst, hlast⟩
  exact ⟨(first, last), hrange, slice_eq_excerpt h hrange⟩

example : (ofText "ab\n\ncd\n".toList).excerpt ⟨⟨1, 1⟩, ⟨4, 0⟩⟩ = "b\n\ncd\n".toList := by decide

end Source

end AsciidocSpans
