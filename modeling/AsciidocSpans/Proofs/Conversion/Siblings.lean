import AsciidocSpans.Proofs.Conversion.Elements
import AsciidocSpans.Proofs.Conversion.PlainText
import AsciidocSpans.Proofs.Span.Placement

/-!
Paragraphs that are looked for all over a window. Each of them is searched from the end of the one
before it and takes the first place there is; no search is ever taken back. `FoundInTurn` says this
of some texts and their spans. If the texts can be placed one below the other in the window at all,
each of them is found so (`exists_foundInTurn`): what is found ends no later than in the placement,
and so leaves room for the placement of the texts behind it.

`convertBlocks_of_placed` says what becomes of such paragraphs, in a window that does not narrow and
in the blocks that open one: a node for each of them, at spans in order that do not overlap.
-/

set_option autoImplicit false
set_option relaxedAutoImplicit false

namespace AsciidocSpans.Converter

open Text

variable {settings : Settings} {text : Text} {locator : Locator} {window : Window}
  {lastEnd : Option Position}

/-- An element is a paragraph of some lines that has no title. -/
inductive UntitledParagraph : Element → List Text → Prop
  | mk {info : ElementInfo} {literal : Bool} {segments : List Text}
      (untitled : info.title.getD [] = []) (nonempty : segments ≠ []) :
      UntitledParagraph (.paragraph info literal segments) segments

/-- Texts are found in a window one after the other, each of them by a search that starts where the
text before it ended, and no earlier. -/
inductive FoundInTurn (locator : Locator) (window : Window) :
    Option Position → List (List Text) → List Location → Prop
  | nil {lastEnd : Option Position} : FoundInTurn locator window lastEnd [] []
  | cons {lastEnd : Option Position} {segments : List Text} {others : List (List Text)}
      {location : Location} {locations : List Location}
      (found : locator.find? false segments (afterSibling (window.fromColumn 0) lastEnd) =
        some location)
      (behind : ∀ stop ∈ lastEnd, stop ≤ location.start)
      (rest : FoundInTurn locator window (some location.stop) others locations) :
      FoundInTurn locator window lastEnd (segments :: others) (location :: locations)

section Turns

variable {segments : List (List Text)} {locations : List Location}

/-- The sibling located last ended in a window, on a line that searches take above another one. -/
structure EndsAbove (locator : Locator) (window : Window) (low : Int) (stop : Position) : Prop where
  inside : max 1 window.minLine ≤ stop.line
  taken : locator.Takes false stop.line
  column : 0 ≤ stop.column
  above : stop.line < low

/-- A window starts where the sibling located last ended, and no later than a line which it searches
as a whole. -/
structure OpensBelow (window inner : Window) (lastEnd : Option Position) (first : Int) : Prop where
  starts : ∀ stop ∈ lastEnd, stop = ⟨max 1 inner.minLine, inner.startColumn⟩
  column : 0 ≤ inner.startColumn
  inside : max 1 window.minLine ≤ max 1 inner.minLine
  reaches : max 1 inner.minLine ≤ first
  whole : Locator.startColumnOn inner first = 0
  maxLine : inner.maxLine = window.maxLine

theorem opensBelow_afterSibling {low first : Int}
    (hends : ∀ stop ∈ lastEnd, EndsAbove locator window low stop)
    (hlow : max 1 window.minLine ≤ low) (hfirst : low ≤ first) (hmax : first ≤ window.maxLine) :
    OpensBelow window (afterSibling (window.fromColumn 0) lastEnd) lastEnd first := by
  cases lastEnd with
  | none => exact ⟨by simp, Int.le_refl 0, Int.le_refl _, hlow.trans hfirst, ite_self 0, rfl⟩
  | some stop =>
    obtain ⟨hinside, -, hcolumn, habove⟩ := hends stop rfl
    have hone : max 1 stop.line = stop.line := by omega
    have hopen : (window.fromColumn 0).minLine ≤ stop.line ∧
        stop.line ≤ (window.fromColumn 0).maxLine := by
      change window.minLine ≤ stop.line ∧ stop.line ≤ window.maxLine
      omega
    have hwindow : afterSibling (window.fromColumn 0) (some stop) =
        ((window.fromColumn 0).narrowed stop.line none).fromColumn stop.column := if_pos hopen
    rw [hwindow]
    refine ⟨?_, hcolumn, ?_, ?_, ?_, rfl⟩
    · intro other hother
      cases hother
      change stop = ⟨max 1 stop.line, stop.column⟩
      rw [hone]
    · change max 1 window.minLine ≤ max 1 stop.line
      omega
    · change max 1 stop.line ≤ first
      omega
    · change (if first = max 1 stop.line then stop.column else 0) = 0
      exact if_neg (by omega)

/-- Texts that can be placed one below the other behind the sibling located last are found. -/
theorem exists_foundInTurn {low : Int} (hlow : max 1 window.minLine ≤ low)
    (hplaced : locator.PlacedFrom window.maxLine low segments)
    (hends : ∀ stop ∈ lastEnd, EndsAbove locator window low stop) :
    ∃ locations, FoundInTurn locator window lastEnd segments locations := by
  induction hplaced generalizing lastEnd with
  | nil => exact ⟨[], .nil⟩
  | @cons low first last segments others numbers hle _ hroom hstands hlast _ ih =>
    have hlength : 0 < segments.length := by
      cases hstands with
      | nil => simp at hlast
      | cons => exact Nat.succ_pos _
    have hopens := opensBelow_afterSibling hends hlow hle (by omega)
    obtain ⟨location, hlocation, hstop⟩ := Locator.exists_find?_of_standsOn hopens.column
      hopens.reaches hopens.whole (by rw [hopens.maxLine]; exact hroom) hstands hlast
    obtain ⟨hinside, htaken⟩ := Locator.takes_stop_of_find? hopens.column hlocation
    have hcolumn := (Locator.hasSpan_of_find? hlocation).stop.2.1
    -- What is found leaves the lines below the placement to the texts behind it.
    have hlength := hstands.length_le hlast
    have hnext : ∀ stop ∈ some location.stop, EndsAbove locator window (last + 1) stop := by
      intro stop heq
      cases heq
      exact ⟨hopens.inside.trans hinside, htaken, hcolumn, by omega⟩
    obtain ⟨locations, hlocations⟩ := ih (by omega) hnext
    refine ⟨location :: locations, .cons hlocation ?_ hlocations⟩
    intro stop heq
    have hlastTaken := (hends stop heq).taken
    rw [hopens.starts stop heq] at hlastTaken ⊢
    exact Locator.le_start_of_find? hopens.column hlocation hlastTaken

/-- Texts that are found in turn stand where their spans say. -/
theorem FoundInTurn.matched (h : FoundInTurn locator window lastEnd segments locations) :
    List.Forall₂ (locator.source.Matched (locator.skips false)) segments locations := by
  induction h with
  | nil => exact .nil
  | cons found behind rest ih => exact .cons (Locator.matched_of_find? found) ih

theorem FoundInTurn.hasSpan (h : FoundInTurn locator window lastEnd segments locations) :
    ∀ location ∈ locations, locator.source.HasSpan location := by
  induction h with
  | nil => exact List.forall_mem_nil _
  | cons found behind rest ih =>
    exact List.forall_mem_cons.mpr ⟨Locator.hasSpan_of_find? found, ih⟩

/-- None of the texts that are found in turn starts before the sibling located last ended. -/
theorem FoundInTurn.le_start (h : FoundInTurn locator window lastEnd segments locations) :
    ∀ stop ∈ lastEnd, ∀ location ∈ locations, stop ≤ location.start := by
  induction h with
  | nil =>
    intro stop hstop
    exact List.forall_mem_nil _
  | cons found behind rest ih =>
    intro stop hstop
    refine List.forall_mem_cons.mpr ⟨behind stop hstop, fun other hother ↦ ?_⟩
    have hordered := (Locator.hasSpan_of_find? found).ordered
    exact Position.le_trans (behind stop hstop)
      (Position.le_trans hordered (ih _ rfl other hother))

/-- The spans of texts that are found in turn are in order and do not overlap. -/
theorem FoundInTurn.pairwise (h : FoundInTurn locator window lastEnd segments locations) :
    locations.Pairwise fun above below ↦ above.stop ≤ below.start := by
  induction h with
  | nil => exact .nil
  | cons found behind rest ih =>
    exact .cons (fun other hother ↦ rest.le_start _ rfl other hother) ih

/-- Paragraphs that are found in turn become their nodes, and there is nothing to report. -/
theorem convertBlocks_of_foundInTurn {blocks : List Element} (hwindow : window.narrows = false)
    (hblocks : List.Forall₂ UntitledParagraph blocks segments)
    (h : FoundInTurn (ofText settings.loosen text).locator window lastEnd segments locations)
    (log : List LogRecord) :
    (ofText settings.loosen text).convertBlocks window lastEnd blocks log =
      .ok (List.zipWith (paragraphAt text) segments locations) log := by
  induction h generalizing blocks with
  | nil =>
    cases hblocks
    rw [convertBlocks]
    rfl
  | @cons lastEnd segments others location locations found behind rest ih =>
    cases hblocks with
    | @cons element _ elements _ helement hrest =>
      obtain ⟨huntitled, -⟩ := helement
      have hsibling (lineno following : Int) : siblingWindow window lineno following lastEnd =
          afterSibling (window.fromColumn 0) lastEnd := by
        rw [siblingWindow, hwindow]
        rfl
      rw [convertBlocks_cons, hsibling,
        bind_of_eq_ok (convertElement_of_found _ huntitled found log),
        bind_of_eq_ok (show reportOmission _ [_] log = .ok () log from rfl)]
      change ((ofText settings.loosen text).convertBlocks window (some location.stop) elements >>=
        _) log = _
      rw [bind_of_eq_ok (ih hrest)]
      rfl

/-- The nodes of paragraphs stand where the paragraphs were found. -/
theorem location_mem_of_mem_zipWith {node : Node}
    (h : node ∈ List.zipWith (paragraphAt text) segments locations) :
    node.location ∈ locations := by
  rw [← List.map_uncurry_zip_eq_zipWith, List.mem_map] at h
  obtain ⟨⟨segment, location⟩, hmem, rfl⟩ := h
  exact (List.of_mem_zip hmem).2

end Turns

section Containers

variable {blocks : List Element} {segments : List (List Text)}

/-- Paragraphs without titles that can be placed one below the other in a window which does not
narrow are all located in it, at spans in order that do not overlap, each of them by a search from
the end of the one before it. So are they in an example block and in a quote, which gets a node of
its own, whether or not the window around these narrows. -/
theorem convertBlocks_of_placed (hwindow : window.narrows = false)
    (hblocks : List.Forall₂ UntitledParagraph blocks segments)
    (hplaced : (ofText settings.loosen text).locator.PlacedFrom window.maxLine
      (max 1 window.minLine) segments) :
    ∃ locations, FoundInTurn (ofText settings.loosen text).locator window none segments locations ∧
      List.Forall₂ ((Source.ofText text).Matched
        ((ofText settings.loosen text).locator.skips false)) segments locations ∧
      (∀ location ∈ locations, (Source.ofText text).HasSpan location) ∧
      (locations.Pairwise fun above below ↦ above.stop ≤ below.start) ∧
      ∀ log, (ofText settings.loosen text).convertBlocks window none blocks log =
          .ok (List.zipWith (paragraphAt text) segments locations) log ∧
        ∀ info narrows,
          (ofText settings.loosen text).convertElement (window.withNarrowing narrows)
              (.container info .exampleBlock blocks) log =
            .ok (List.zipWith (paragraphAt text) segments locations) log ∧
          (blocks ≠ [] → ∃ location range,
            (ofText settings.loosen text).convertElement (window.withNarrowing narrows)
                (.container info .quote blocks) log =
              .ok [.mk .blockQuote [] location range
                (List.zipWith (paragraphAt text) segments locations)] log) := by
  have hnone : ∀ stop ∈ (none : Option Position), EndsAbove (ofText settings.loosen text).locator
      window (max 1 window.minLine) stop := by simp
  obtain ⟨locations, hfound⟩ := exists_foundInTurn (Int.le_refl _) hplaced hnone
  have hspans := hfound.hasSpan
  refine ⟨locations, hfound, hfound.matched, hspans, hfound.pairwise, fun log ↦ ?_⟩
  have hblocksLog := convertBlocks_of_foundInTurn hwindow hblocks hfound log
  have hwindowOff (narrows : Bool) :
      (window.withNarrowing narrows).withNarrowing false = window := by
    rw [← hwindow]
    rfl
  refine ⟨hblocksLog, fun info narrows ↦ ⟨?_, fun hnonempty ↦ ?_⟩⟩
  · rw [convertElement, hwindowOff]
    exact hblocksLog
  · have hnodes : List.zipWith (paragraphAt text) segments locations ≠ [] := by
      cases hblocks with
      | nil => exact absurd rfl hnonempty
      | cons =>
        cases hfound with
        | cons => exact List.cons_ne_nil _ _
    obtain ⟨location, range, hnode, -⟩ := exists_around hnodes
      (fun node hnode ↦ hspans _ (location_mem_of_mem_zipWith hnode)) .blockQuote []
    refine ⟨location, range, ?_⟩
    rw [convertElement, hwindowOff, bind_of_eq_ok hblocksLog, wrapped,
      if_neg (mt List.isEmpty_iff.mp hnodes)]
    change (assembled (Node.around (Source.ofText text) .blockQuote [] _) >>= _) log = _
    rw [hnode]
    rfl

/-- A text that says the same twice, the second time below a comment that says it too. -/
def twinText : Text :=
  "a\n\n// a\na\nb".toList

/-- A paragraph of that text, whatever its line. -/
def twinParagraph (lineno : Int) : Element :=
  .paragraph { lineno } false [['a']]

/-- Both paragraphs in a quote are located, the second one from the comment on. -/
theorem convertBlocks_of_placed_twins :
    (Window.mk 1 5 false 0).narrows = false ∧
    List.Forall₂ UntitledParagraph [twinParagraph 1, twinParagraph 1] [[['a']], [['a']]] ∧
    (ofText Settings.default.loosen twinText).locator.PlacedFrom 5 1 [[['a']], [['a']]] ∧
    ∃ location range, (ofText Settings.default.loosen twinText).convertElement
        ((Window.mk 1 5 false 0).withNarrowing true)
        (.container { lineno := 1 } .quote [twinParagraph 1, twinParagraph 1]) [] =
      .ok [.mk .blockQuote [] location range
        [paragraphAt twinText [['a']] ⟨⟨1, 0⟩, ⟨1, 1⟩⟩,
          paragraphAt twinText [['a']] ⟨⟨3, 3⟩, ⟨4, 1⟩⟩]] [] := by
  have hblocks : List.Forall₂ UntitledParagraph [twinParagraph 1, twinParagraph 1]
      [[['a']], [['a']]] :=
    .cons (.mk rfl (List.cons_ne_nil _ _)) (.cons (.mk rfl (List.cons_ne_nil _ _)) .nil)
  let locator := (ofText Settings.default.loosen twinText).locator
  have hfirst : locator.TakesNext false ((0 : Nat) + 1) 1 ∧ locator.source.line? 1 = some ['a'] ∧
      locator.source.lines.drop 1 = locator.source.lines.drop (1 : Int).toNat :=
    Locator.nextLine?_eq_some_iff.mp (by decide)
  have hsecond : locator.TakesNext false ((3 : Nat) + 1) 4 ∧
      locator.source.line? 4 = some ['a'] ∧
      locator.source.lines.drop 4 = locator.source.lines.drop (4 : Int).toNat :=
    Locator.nextLine?_eq_some_iff.mp (by decide)
  have hplaced : locator.PlacedFrom 5 1 [[['a']], [['a']]] :=
    .cons (Int.le_refl 1) hfirst.1.1.2 (by decide)
      (.cons hfirst.1 hfirst.2.1 (List.infix_refl _) .nil) rfl
      (.cons (by decide) hsecond.1.1.2 (by decide)
        (.cons hsecond.1 hsecond.2.1 (List.infix_refl _) .nil) rfl .nil)
  refine ⟨rfl, hblocks, hplaced, ?_⟩
  have hnarrows : (Window.mk 1 5 false 0).narrows = false := rfl
  obtain ⟨locations, hfound, -, -, -, hnodes⟩ := convertBlocks_of_placed hnarrows hblocks hplaced
  obtain ⟨location, range, hquote⟩ := ((hnodes []).2 { lineno := 1 } true).2 (List.cons_ne_nil _ _)
  refine ⟨location, range, hquote.trans ?_⟩
  cases hfound with
  | cons found behind rest =>
    rw [show locator.find? false [['a']] _ = some ⟨⟨1, 0⟩, ⟨1, 1⟩⟩ by decide] at found
    cases found
    cases rest with
    | cons found behind rest =>
      rw [show locator.find? false [['a']] _ = some ⟨⟨3, 3⟩, ⟨4, 1⟩⟩ by decide] at found
      cases found
      cases rest
      rfl

end Containers

end AsciidocSpans.Converter
