import AsciidocSpans.Proofs.Span.Search

/-!
Text that is written in a source is found there. Segments are `Written` at a column of a line if the
first one occurs there, on a line that is no comment, and the others follow on the next lines, with
nothing but comments in between. A search that starts on that line, at that column or before, finds
them on that line (`exists_find?_of_written`): comments neither hide the segments nor carry the
search beyond the lines on which they are written.
-/

set_option autoImplicit false
set_option relaxedAutoImplicit false

namespace AsciidocSpans

open Text

variable {marker : Text} {lines segments : List Text}

/-- A line is there and is no comment. Lines are counted from zero. -/
def Kept (marker : Text) (lines : List Text) (index : Nat) : Prop :=
  ∃ line, lines[index]? = some line ∧ ¬ marker <+: line

/-- Segments occur on consecutive lines from one line on and before another one, with nothing but
comments in between. -/
inductive Follows (marker : Text) (lines : List Text) : Nat → Nat → List Text → Prop
  | done {first stop : Nat} (le : first ≤ stop) : Follows marker lines first stop []
  | passed {first stop : Nat} {line : Text} {segments : List Text}
      (here : lines[first]? = some line) (comment : marker <+: line)
      (others : Follows marker lines (first + 1) stop segments) :
      Follows marker lines first stop segments
  | taken {first stop : Nat} {line segment : Text} {segments : List Text}
      (here : lines[first]? = some line) (kept : ¬ marker <+: line) (occurs : segment <:+: line)
      (others : Follows marker lines (first + 1) stop segments) :
      Follows marker lines first stop (segment :: segments)

/-- The first segment occurs at a column of a line that is no comment, and the others follow it
before another line. -/
def Written (marker : Text) (lines : List Text) (own column stop : Nat) (segments : List Text) :
    Prop :=
  ∃ line segment others, segments = segment :: others ∧ lines[own]? = some line ∧
    ¬ marker <+: line ∧ column ≤ line.length ∧ segment <+: line.drop column ∧
    Follows marker lines (own + 1) stop others

section Follows

variable {first stop : Nat}

theorem Follows.le (h : Follows marker lines first stop segments) : first ≤ stop := by
  induction h with
  | done le => exact le
  | passed _ _ _ ih => omega
  | taken _ _ _ _ ih => omega

theorem Follows.length_le (h : Follows marker lines first stop segments) :
    first + segments.length ≤ stop := by
  induction h with
  | done le => exact le
  | passed _ _ _ ih => omega
  | taken _ _ _ _ ih =>
    rw [List.length_cons]
    omega

/-- Segments do not reach beyond the lines that there are. -/
theorem Follows.length_le_length (h : Follows marker lines first stop segments)
    (hfirst : first ≤ lines.length) : first + segments.length ≤ lines.length := by
  induction h with
  | done => exact hfirst
  | passed here _ _ ih =>
    obtain ⟨hindex, -⟩ := List.getElem?_eq_some_iff.mp here
    have := ih hindex
    omega
  | taken here _ _ _ ih =>
    obtain ⟨hindex, -⟩ := List.getElem?_eq_some_iff.mp here
    have := ih hindex
    rw [List.length_cons]
    omega

/-- Parts of segments follow one another as the segments do. -/
theorem Follows.map (h : Follows marker lines first stop segments) (part : Text → Text)
    (hpart : ∀ segment, part segment <:+: segment) :
    Follows marker lines first stop (segments.map part) := by
  induction h with
  | done le => exact .done le
  | passed here comment _ ih => exact .passed here comment ih
  | taken here kept occurs _ ih => exact .taken here kept ((hpart _).trans occurs) ih

end Follows

section Written

variable {own column stop : Nat}

theorem Written.lt (h : Written marker lines own column stop segments) : own < stop := by
  obtain ⟨_, _, _, _, _, _, _, _, hothers⟩ := h
  exact hothers.le

theorem Written.kept (h : Written marker lines own column stop segments) :
    Kept marker lines own := by
  obtain ⟨line, _, _, _, hline, hkept, _⟩ := h
  exact ⟨line, hline, hkept⟩

/-- A segment that occurs on a line, and others behind it, are written. -/
theorem exists_written {line segment : Text} {others : List Text} (hline : lines[own]? = some line)
    (hkept : ¬ marker <+: line) (hoccurs : segment <:+: line)
    (hothers : Follows marker lines (own + 1) stop others) :
    ∃ column, Written marker lines own column stop (segment :: others) := by
  obtain ⟨column, hcolumn, hprefix⟩ := exists_column_of_infix hoccurs
  exact ⟨column, line, segment, others, rfl, hline, hkept, hcolumn, hprefix, hothers⟩

/-- Parts of segments are written where the segments are, though perhaps at another column. -/
theorem Written.map (h : Written marker lines own column stop segments) (part : Text → Text)
    (hpart : ∀ segment, part segment <:+: segment) :
    ∃ column, Written marker lines own column stop (segments.map part) := by
  obtain ⟨line, segment, others, rfl, hline, hkept, -, hoccurs, hothers⟩ := h
  refine exists_written hline hkept ?_ (hothers.map part hpart)
  exact ((hpart segment).trans hoccurs.isInfix).trans (List.drop_suffix _ line).isInfix

end Written

namespace Locator

variable {skipped : Text → Bool} {first stop : Nat} {start : Int}

theorem drop_eq_cons {line : Text} (h : lines[first]? = some line) :
    lines.drop first = line :: lines.drop (first + 1) := by
  obtain ⟨hindex, rfl⟩ := List.getElem?_eq_some_iff.mp h
  exact List.drop_eq_getElem_cons hindex

/-- A search passes over a line, whatever it looks for. -/
theorem lastLine?_of_skipped {line : Text} {rest : List Text} {number : Int}
    (h : skipped line = true) :
    lastLine? skipped start number (line :: rest) segments =
      lastLine? skipped start (number + 1) rest segments := by
  cases segments with
  | nil => rfl
  | cons segment more => rw [lastLine?, lastLine?, nextLine?, if_pos h]

/-- A search goes on behind a line that it does not pass over if the first segment occurs there and
is not the last one. -/
theorem lastLine?_cons_of_not_skipped {line segment : Text} {rest more : List Text} {number : Int}
    (h : skipped line = false) :
    lastLine? skipped start number (line :: rest) (segment :: more) =
      if (column? segment line start).isNone then none
      else if more.isEmpty then some (number, line)
      else lastLine? skipped 0 (number + 1) rest more := by
  rw [lastLine?, nextLine?, h]
  rfl

/-- A search takes a line that it does not pass over. -/
theorem lastLine?_of_not_skipped {line segment : Text} {rest more : List Text} {number : Int}
    {column : Nat} (h : skipped line = false) (hcolumn : column? segment line start = some column) :
    lastLine? skipped start number (line :: rest) (segment :: more) =
      if more.isEmpty then some (number, line)
      else lastLine? skipped 0 (number + 1) rest more := by
  rw [lastLine?_cons_of_not_skipped h, hcolumn]
  rfl

/-- Segments that follow one another are found, and the last one on a line before the line where
they stop. -/
theorem exists_lastLine?_of_follows
    (hskipped : ∀ line, skipped line = true ↔ marker <+: line)
    (h : Follows marker lines first stop segments) (hsegments : segments ≠ []) :
    ∃ last, lastLine? skipped 0 ((first : Int) + 1) (lines.drop first) segments = some last ∧
      last.1 ≤ stop := by
  induction h with
  | done => exact absurd rfl hsegments
  | passed here comment _ ih =>
    obtain ⟨last, hlast, hstop⟩ := ih hsegments
    refine ⟨last, ?_, hstop⟩
    rw [drop_eq_cons here, lastLine?_of_skipped ((hskipped _).mpr comment), ← hlast]
    push_cast
    rfl
  | @taken first stop line segment more here kept occurs others ih =>
    obtain ⟨index, hindex, hprefix⟩ := exists_column_of_infix occurs
    obtain ⟨column, hfound, -⟩ := exists_column?_le (Nat.zero_le index) hindex hprefix
    have hcolumn : column? segment line 0 = some column := by exact_mod_cast hfound
    have hline : skipped line = false := Bool.eq_false_iff.mpr fun hskip ↦
      kept ((hskipped line).mp hskip)
    rw [drop_eq_cons here, lastLine?_of_not_skipped hline hcolumn]
    by_cases hmore : more = []
    · subst hmore
      have hle := others.le
      exact ⟨(first + 1, line), rfl, by dsimp only; omega⟩
    · obtain ⟨last, hlast, hstop⟩ := ih hmore
      have hempty : more.isEmpty = false := Bool.eq_false_iff.mpr fun hnil ↦
        hmore (List.isEmpty_iff.mp hnil)
      refine ⟨last, ?_, hstop⟩
      rw [hempty, ← hlast]
      push_cast
      rfl

variable {locator : Locator} {window : Window} {own column : Nat}

theorem skips_eq_true_iff (line : Text) :
    locator.skips false line = true ↔ locator.commentMarker <+: line := by
  rw [skips, Bool.not_false, Bool.true_and, List.isPrefixOf_iff_prefix]

/-- Segments that come to an end from the first line of a window on are found there. -/
theorem find?_of_lastLine? {verbatim : Bool} {line : Text} {last : Int × Text}
    (hsegments : segments ≠ []) (hline : locator.source.lines[own]? = some line)
    (hminLine : window.minLine = own + 1) (hroom : own + 1 ≤ locator.lastStart segments window)
    (hlast : lastLine? (locator.skips verbatim) window.startColumn ((own : Int) + 1)
      (locator.source.lines.drop own) segments = some last) :
    locator.find? verbatim segments window =
      some (spanOf segments window.startColumn (own + 1) line last) := by
  have hempty : segments.isEmpty = false := Bool.eq_false_iff.mpr fun hnil ↦
    hsegments (List.isEmpty_iff.mp hnil)
  have hfirst : firstStart window = own + 1 := by
    rw [firstStart, hminLine]
    omega
  obtain ⟨count, hcount⟩ : ∃ count : Nat,
      (locator.lastStart segments window - ((own : Int) + 1) + 1).toNat = count + 1 :=
    ⟨(locator.lastStart segments window - (own + 1)).toNat, by omega⟩
  have hown : ((own : Int) + 1 - 1).toNat = own := by omega
  rw [find?, hempty, hfirst]
  dsimp only
  rw [if_neg Bool.false_ne_true, hcount, hown, drop_eq_cons hline, scan?, ← drop_eq_cons hline,
    hlast]

/-- Segments that are written are found on their line by a search that starts there, no later than
at their column, in a window that reaches as far as they do. A single segment is found no later than
it is written. -/
theorem exists_find?_of_written
    (h : Written locator.commentMarker locator.source.lines own column stop segments)
    (hminLine : window.minLine = own + 1) (hmaxLine : stop ≤ window.maxLine) {start : Nat}
    (hstart : window.startColumn = start) (hcolumn : start ≤ column) :
    ∃ location, locator.find? false segments window = some location ∧
      location.start.line = own + 1 ∧ start ≤ location.start.column ∧
      location.stop.line ≤ stop ∧
      ∀ segment, segments = [segment] →
        location.stop.line = own + 1 ∧ location.stop.column ≤ column + segment.length := by
  obtain ⟨line, segment, others, rfl, hline, hkept, hlength, hoccurs, hothers⟩ := h
  obtain ⟨found, hfound, hle, hbefore⟩ := exists_column?_le hcolumn hlength hoccurs
  have hdrop := drop_eq_cons hline
  have hskip : locator.skips false line = false := Bool.eq_false_iff.mpr fun hskip ↦
    hkept ((skips_eq_true_iff line).mp hskip)
  obtain ⟨last, hlast, hstop, hsingle⟩ : ∃ last,
      lastLine? (locator.skips false) start ((own : Int) + 1) (locator.source.lines.drop own)
        (segment :: others) = some last ∧ last.1 ≤ stop ∧
      (others = [] → last = ((own : Int) + 1, line)) := by
    rw [hdrop, lastLine?_of_not_skipped hskip hfound]
    by_cases hothersNil : others = []
    · subst hothersNil
      have hlt := hothers.le
      exact ⟨((own : Int) + 1, line), rfl, by dsimp only; omega, fun _ ↦ rfl⟩
    · obtain ⟨last, hlast, hstop⟩ := exists_lastLine?_of_follows
        (skips_eq_true_iff : ∀ line, locator.skips false line = true ↔ _) hothers hothersNil
      have hempty : others.isEmpty = false := Bool.eq_false_iff.mpr fun hnil ↦
        hothersNil (List.isEmpty_iff.mp hnil)
      refine ⟨last, ?_, hstop, fun hnil ↦ absurd hnil hothersNil⟩
      rw [hempty, ← hlast]
      push_cast
      rfl
  refine ⟨spanOf (segment :: others) window.startColumn ((own : Int) + 1) line last,
    find?_of_lastLine? (List.cons_ne_nil _ _) hline hminLine ?_ (by rw [hstart]; exact hlast), rfl,
    ?_, hstop, ?_⟩
  · obtain ⟨hindex, -⟩ := List.getElem?_eq_some_iff.mp hline
    have hreach := hothers.length_le
    have hthere := hothers.length_le_length hindex
    rw [lastStart, Source.lineCount, List.length_cons]
    omega
  · rw [spanOf, hstart]
    dsimp only [List.headD_cons]
    rw [hfound, Option.getD_some]
    omega
  · intro single heq
    cases heq
    simp only [hsingle rfl, spanOf, hstart, List.getLastD_cons, List.getLastD_nil,
      List.length_singleton, if_true, hfound, Option.getD_some, true_and]
    omega

/-- A single text that is found from a line on ends no later than the next line that is no comment,
wherever the window ends. -/
theorem stop_line_le_of_find? {segment : Text} {location : Location}
    (h : locator.find? false [segment] window = some location)
    (hkept : Kept locator.commentMarker locator.source.lines own)
    (hmaxLine : window.maxLine ≤ own + 1) : location.stop.line ≤ own + 1 := by
  obtain ⟨number, line, rest, last, -, hfirst, hlastStart, hdrop, hlast, rfl⟩ :=
    exists_hit_of_find? h
  have hone : (1 : Int) ≤ number := Int.le_trans (Int.le_max_left _ _) hfirst
  have hnumber : number ≤ own + 1 := by
    rw [lastStart, List.length_singleton] at hlastStart
    omega
  generalize (if number = firstStart window then window.startColumn else 0) = start at hlast ⊢
  rw [lastLine?] at hlast
  split at hlast
  · cases hlast
  · next found taken behind hnext =>
    obtain ⟨count, rfl, -, -, hpassed⟩ := nextLine?_eq_some hnext
    have hstop : last.1 = number + count := by
      split at hlast
      · cases hlast
      · cases hlast
        rfl
    rw [spanOf]
    dsimp only
    rw [hstop]
    -- Otherwise the line that is kept would be among those that were passed over.
    by_contra hbeyond
    obtain ⟨keptLine, hline, hnot⟩ := hkept
    refine hnot ((skips_eq_true_iff keptLine).mp (hpassed keptLine ?_))
    have hget : (line :: rest)[(own + 1 - number).toNat]? = some keptLine := by
      rw [← hdrop, List.getElem?_drop, ← hline]
      exact congrArg (fun index ↦ locator.source.lines[index]?) (by omega)
    refine List.mem_of_getElem? (i := (own + 1 - number).toNat) ?_
    rw [List.getElem?_take_of_lt (by omega), hget]

end Locator

end AsciidocSpans
