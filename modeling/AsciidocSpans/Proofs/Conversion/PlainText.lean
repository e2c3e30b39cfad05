import AsciidocSpans.Proofs.Blocks.LineNumbers
import AsciidocSpans.Proofs.Blocks.PlainText
import AsciidocSpans.Proofs.Conversion.Located
import AsciidocSpans.Proofs.Conversion.RunningText

/-!
The tree of plain text. `plainTree` is the tree that a text of white space, comments and text has,
said of its lines alone: a paragraph around a leaf for each of its runs, from the first line of the
run to the end of the last one, and a document around the paragraphs. `locateText_of_plain` says
that this is the tree which the text has.
-/

set_option autoImplicit false
set_option relaxedAutoImplicit false

namespace AsciidocSpans

open Text Blocks

/-- The offset of a position in a text. -/
def Source.offsetIn (text : Text) (position : Position) : Int :=
  charactersBefore text.lines (position.line - 1).toNat + position.column

/-- The offsets of the ends of a span in a text. -/
def Source.rangeIn (text : Text) (location : Location) : Int × Int :=
  (offsetIn text location.start, offsetIn text location.stop)

namespace Blocks.Run

/-- The span of a run: from the start of its first line to the end of its last one. -/
def location (run : Run) : Location :=
  ⟨⟨run.first.number, 0⟩, ⟨run.last.number, ((trimRight run.last.input).length : Nat)⟩⟩

/-- The node of a run. -/
def node (text : Text) (run : Run) : Node :=
  let raw := unlines run.segments
  let range := Source.rangeIn text run.location
  .mk .paragraph raw run.location range [.mk .str raw run.location range []]

end Blocks.Run

/-- The tree of plain text. -/
def plainTree (marker text : Text) : Node :=
  match plainRuns marker text with
  | [] => Node.emptyDocument
  | first :: others =>
    let location : Location := ⟨first.location.start, (others.getLastD first).location.stop⟩
    let range := Source.rangeIn text location
    .mk .document (text.slice range.1 range.2) location range
      ((first :: others).map (Run.node text))

/-- A span that exists has its offsets in the text. -/
theorem Source.range?_eq_rangeIn {text : Text} {location : Location}
    (h : (ofText text).HasSpan location) :
    (ofText text).range? location = some (rangeIn text location) :=
  range?_eq_some_iff.mpr
    ⟨positionOffset?_of_hasPosition h.start, positionOffset?_of_hasPosition h.stop⟩

/-- What a line starts with is found at its start. -/
theorem Text.column?_of_isPrefix {needle line : Text} (h : needle <+: line) :
    column? needle line 0 = some 0 := by
  have hdrop : needle <+: line.drop 0 := by rwa [List.drop_zero]
  obtain ⟨found, hfound, -, hle⟩ := exists_column?_le (Nat.le_refl 0) (Nat.zero_le _) hdrop
  rw [Nat.le_zero.mp hle] at hfound
  exact_mod_cast hfound

namespace Blocks

variable {marker : Text} {texts : List Text}

section Places

/-- Lines that are no comments are the ones from the place of the first of them on. -/
theorem exists_index_of_suffix {number : Int} {line : Line} {more : List Line}
    (h : line :: more <:+ withoutComments (Line.classifyAll marker number texts)) :
    ∃ (own : Nat) (source : Text), texts[own]? = some source ∧
      line = Line.classify marker source (number + own) ∧
      line :: more =
        withoutComments (Line.classifyAll marker (number + own) (texts.drop own)) := by
  induction texts generalizing number with
  | nil => cases List.suffix_nil.mp h
  | cons first rest ih =>
    have hrest (hsuffix : line :: more <:+
        withoutComments (Line.classifyAll marker (number + 1) rest)) :
        ∃ (own : Nat) (source : Text), (first :: rest)[own]? = some source ∧
          line = Line.classify marker source (number + own) ∧ line :: more = withoutComments
            (Line.classifyAll marker (number + own) ((first :: rest).drop own)) := by
      obtain ⟨own, source, hsource, hline, hmore⟩ := ih hsuffix
      have hnumber : number + 1 + (own : Int) = number + ((own + 1 : Nat) : Int) := by
        push_cast
        omega
      rw [hnumber] at hline hmore
      exact ⟨own + 1, source, hsource, hline, hmore⟩
    rw [Line.classifyAll, withoutComments, List.filter_cons] at h
    split at h
    · next hkept =>
      rcases List.suffix_cons_iff.mp h with heq | hsuffix
      · refine ⟨0, first, rfl, ?_, ?_⟩
        · cases heq
          rw [Int.natCast_zero, Int.add_zero]
        · rw [heq, Int.natCast_zero, Int.add_zero, List.drop_zero, Line.classifyAll,
            withoutComments, List.filter_cons, if_pos hkept]
      · exact hrest hsuffix
    · exact hrest h

/-- Lines that are classified have increasing numbers. -/
theorem pairwise_number_classifyAll (number : Int) (texts : List Text) :
    (Line.classifyAll marker number texts).Pairwise
      fun above below ↦ above.number < below.number := by
  induction texts generalizing number with
  | nil => exact .nil
  | cons first rest ih =>
    refine .cons (fun below hbelow ↦ ?_) (ih (number + 1))
    obtain ⟨before, behind, heq⟩ := List.append_of_mem hbelow
    exact Int.lt_of_add_one_le (number_of_suffix_classifyAll ⟨before, heq.symm⟩).1

theorem number_le_of_mem_classifyAll {line : Line} (h : line ∈ Line.classifyAll marker 1 texts) :
    line.number ≤ texts.length := by
  obtain ⟨before, behind, heq⟩ := List.append_of_mem h
  have hnumber := (number_of_suffix_classifyAll ⟨before, heq.symm⟩).2
  omega

end Places

section Searches

variable {locator : Locator}

/-- A search for the lines of a run takes them one after the other and ends on the last one. -/
theorem exists_lastLine?_of_run {number : Int} {run : Run} (hmarker : '\r' ∉ locator.commentMarker)
    (hplain : ∀ line ∈ run.lines, line.shape.isPlain = true ∧ line.shape ≠ .blank)
    (hrun : run.lines <+: withoutComments (Line.classifyAll locator.commentMarker number texts)) :
    ∃ source, Locator.lastLine? (locator.skips false) 0 number texts run.segments =
        some (run.last.number, source) ∧ trimRight run.last.input <+: source := by
  induction texts generalizing number run with
  | nil => cases List.prefix_nil.mp hrun
  | cons source rest ih =>
    rw [Line.classifyAll, withoutComments, List.filter_cons] at hrun
    split at hrun
    · next hkept =>
      obtain ⟨first, others⟩ := run
      obtain ⟨rfl, hothers⟩ := List.cons_prefix_cons.mp hrun
      obtain ⟨⟨hshape, htext⟩, hrest⟩ := List.forall_mem_cons.mp hplain
      have hpassed : (Line.classify locator.commentMarker source number).shape.isPassedOver =
          false := by
        generalize (Line.classify locator.commentMarker source number).shape = shape at *
        cases shape with
        | blank => exact absurd rfl htext
        | comment => cases hkept
        | plainText => rfl
        | _ => cases hshape
      have hskip : locator.skips false source = false := Bool.eq_false_iff.mpr fun hskip ↦
        Line.not_isPrefix_of_not_isPassedOver hmarker hpassed
          ((Locator.skips_eq_true_iff source).mp hskip)
      have hstart :
          trimRight (Line.classify locator.commentMarker source number).input <+: source :=
        (isPrefix_trimRight _).trans (Line.isPrefix_input_classify _ source number)
      rw [Run.segments, Run.lines, List.map_cons,
        Locator.lastLine?_of_not_skipped hskip (column?_of_isPrefix hstart)]
      cases others with
      | nil => exact ⟨source, rfl, hstart⟩
      | cons next more =>
        rw [List.map_cons, List.isEmpty_cons, if_neg Bool.false_ne_true, Run.last_cons]
        exact @ih _ ⟨next, more⟩ hrest hothers
    · next hcomment =>
      have hskip : locator.skips false source = true := by
        obtain ⟨shown, hshown⟩ := Line.Shape.exists_of_isComment (by simpa using hcomment)
        exact (Locator.skips_eq_true_iff source).mpr (Line.isPrefix_of_comment hshown)
      rw [Locator.lastLine?_of_skipped hskip]
      exact ih hplain hrun

theorem getLastD_segments (run : Run) : run.segments.getLastD [] = trimRight run.last.input := by
  obtain ⟨first, others⟩ := run
  induction others generalizing first with
  | nil => rfl
  | cons next more ih =>
    rw [Run.last_cons, ← ih next, Run.segments, Run.segments, Run.lines, Run.lines, List.map_cons,
      List.map_cons, List.getLastD_cons, List.getLastD_cons, List.getLastD_cons]

/-- A run is found at its span, from its first line on in a window that reaches its last one. -/
theorem find?_of_run {window : Window} {run : Run} {rest : List Line}
    (hmarker : '\r' ∉ locator.commentMarker)
    (hplain : ∀ line ∈ run.lines, line.shape.isPlain = true ∧ line.shape ≠ .blank)
    (hsuffix : run.lines ++ rest <:+
      withoutComments (Line.classifyAll locator.commentMarker 1 locator.source.lines))
    (hminLine : window.minLine = run.first.number) (hstart : window.startColumn = 0)
    (hmaxLine : run.last.number ≤ window.maxLine) :
    locator.find? false run.segments window = some run.location := by
  obtain ⟨own, source, hsource, hfirst, hlines⟩ := exists_index_of_suffix
    (show run.first :: (run.others ++ rest) <:+ _ from hsuffix)
  rw [Int.add_comm] at hfirst hlines
  have hnumber : run.first.number = own + 1 := by rw [hfirst]; rfl
  have hrun : run.lines <+: withoutComments
      (Line.classifyAll locator.commentMarker (own + 1) (locator.source.lines.drop own)) := by
    rw [← hlines]
    exact List.prefix_append run.lines rest
  obtain ⟨last, hlast, hends⟩ := exists_lastLine?_of_run hmarker hplain hrun
  have hsegments : run.segments ≠ [] := List.cons_ne_nil _ _
  obtain ⟨count, hcount, hlength, hget, -⟩ := Locator.lastLine?_eq_some hsegments hlast
  rw [List.getElem?_drop] at hget
  obtain ⟨hreach, -⟩ := List.getElem?_eq_some_iff.mp hget
  dsimp only at hcount
  rw [Locator.find?_of_lastLine? hsegments hsource (hminLine.trans hnumber) ?_
    (by rw [hstart]; exact hlast)]
  · have hhead : trimRight run.first.input <+: source := by
      rw [hfirst]
      exact (isPrefix_trimRight _).trans (Line.isPrefix_input_classify _ source _)
    have hheadD : run.segments.headD [] = trimRight run.first.input := rfl
    rw [Locator.spanOf, hstart, ite_self, getLastD_segments, hheadD, column?_of_isPrefix hhead,
      column?_of_isPrefix hends, Run.location, hnumber]
    simp
  · rw [Locator.lastStart, Source.lineCount]
    omega

end Searches

end Blocks

namespace Converter

variable {settings : Settings} {text : Text}

section Nodes

/-- The node of a paragraph without a title. -/
def paragraphAt (text : Text) (segments : List Text) (location : Location) : Node :=
  let raw := unlines segments
  let range := Source.rangeIn text location
  .mk .paragraph raw location range [.mk .str raw location range []]

/-- A paragraph without a title that is found becomes its node, and there is nothing to report. -/
theorem convertElement_of_found {segments : List Text} {window : Window} {location : Location}
    {info : ElementInfo} (literal : Bool) (htitle : info.title.getD [] = [])
    (hfound : (ofText settings.loosen text).locator.find? false segments window = some location)
    (log : List LogRecord) :
    (ofText settings.loosen text).convertElement window (.paragraph info literal segments) log =
      .ok [paragraphAt text segments location] log := by
  have hrange := Source.range?_eq_rangeIn
    (show (Source.ofText text).HasSpan location from Locator.hasSpan_of_find? hfound)
  let leaf : Node := .mk .str (unlines segments) location (Source.rangeIn text location) []
  have hleaf : Node.str (Source.ofText text) (unlines segments) location = .ok leaf := by
    rw [Node.str, Node.located, hrange]
  have hnode : Node.around (Source.ofText text) .paragraph (unlines segments) [leaf] =
      .ok (paragraphAt text segments location) := by
    change Node.located (Source.ofText text) .paragraph (unlines segments) location [leaf] = _
    rw [Node.located, hrange]
    rfl
  have hlocated : (ofText settings.loosen text).find false segments window log =
      .ok (some location) log := by
    rw [← hfound]
    exact bind_of_eq_ok (needMarker_loosen _ log)
  have huntitled : (ofText settings.loosen text).convertBlockTitle info window log =
      .ok none log := by
    rw [convertBlockTitle]
    cases hinfo : info.title with
    | none => rfl
    | some title =>
      rw [hinfo] at htitle
      rw [show title = [] from htitle]
      rfl
  rw [convertElement, convertParagraph, bind_of_eq_ok hlocated]
  dsimp only
  rw [bind_of_eq_ok huntitled, bind_of_eq_ok (show assembled (Node.str _ _ _) log = .ok leaf log by
    rw [show (ofText settings.loosen text).source = Source.ofText text from rfl, hleaf]
    rfl)]
  change (assembled (Node.around (Source.ofText text) .paragraph _ [leaf]) >>= _) log = _
  rw [hnode]
  rfl

/-- A run that is found becomes its node. -/
theorem succeeds_convertParagraph_of_found {run : Run} {window : Window}
    (hfound : (ofText settings.loosen text).locator.find? false run.segments window =
      some run.location) :
    Succeeds ((ofText settings.loosen text).convertElement window run.paragraph)
      (· = [run.node text]) :=
  fun log ↦ ⟨_, log, convertElement_of_found false rfl hfound log, rfl⟩

end Nodes

section Siblings

variable {lines : List Line} {runs : List Run}

theorem mem_of_splits (h : Splits lines runs) : ∀ run ∈ runs, ∀ line ∈ run.lines, line ∈ lines := by
  induction h with
  | done => exact nofun
  | blank _ _ ih => exact fun run hrun line hline ↦ List.mem_cons_of_mem _ (ih run hrun line hline)
  | run _ _ _ ih =>
    intro other hother line hline
    rcases List.mem_cons.mp hother with rfl | hrest
    · exact List.mem_append_left _ hline
    · exact List.mem_append_right _ (ih other hrest line hline)

/-- The window of a sibling starts with its own line if the siblings before it ended above. -/
theorem siblingWindow_of_above {window : Window} {own following : Int} {lastEnd : Option Position}
    (hnarrows : window.narrows = true) (h : ∀ stop ∈ lastEnd, stop.line < own) :
    siblingWindow window own following lastEnd = window.narrowed own (some following) := by
  rw [siblingWindow, if_pos hnarrows]
  cases lastEnd with
  | none => rfl
  | some stop =>
    have habove := h stop rfl
    rw [afterSibling]
    exact if_neg fun hinside ↦ absurd hinside.1 (Int.not_le.mpr habove)

/-- The paragraphs of runs become the nodes of the runs. -/
theorem succeeds_convertBlocks_of_splits (hmarker : '\r' ∉ settings.commentMarker)
    (hsplits : Splits lines runs)
    (hplain : ∀ line ∈ lines, line.shape.isPlain = true)
    (hsuffix : lines <:+
      withoutComments (Line.classifyAll settings.commentMarker 1 text.lines))
    {window : Window} (hnarrows : window.narrows = true)
    (hmaxLine : window.maxLine = text.lines.length) {lastEnd : Option Position}
    (hlast : ∀ stop ∈ lastEnd, ∀ line ∈ lines, stop.line < line.number) :
    Succeeds ((ofText settings.loosen text).convertBlocks window lastEnd (runs.map Run.paragraph))
      fun nodes ↦ nodes = runs.map (Run.node text) ∧
        ∀ run ∈ runs, (Source.ofText text).HasSpan run.location := by
  induction hsplits generalizing lastEnd with
  | done => exact succeeds_pure ⟨rfl, nofun⟩
  | blank here others ih =>
    exact ih (fun line hline ↦ hplain line (List.mem_cons_of_mem _ hline))
      ((List.suffix_cons _ _).trans hsuffix)
      fun stop hstop line hline ↦ hlast stop hstop line (List.mem_cons_of_mem _ hline)
  | @run run rest runs here ends others ih =>
    have hsorted : (run.lines ++ rest).Pairwise fun above below ↦ above.number < below.number :=
      ((pairwise_number_classifyAll 1 text.lines).sublist List.filter_sublist).sublist
        hsuffix.sublist
    obtain ⟨-, -, hbelow⟩ := List.pairwise_append.mp hsorted
    rw [List.map_cons, convertBlocks_cons, show run.paragraph.lineno = run.first.number from rfl,
      siblingWindow_of_above hnarrows fun stop hstop ↦
        hlast stop hstop run.first (List.mem_append_left _ List.mem_cons_self)]
    have hfound : (ofText settings.loosen text).locator.find? false run.segments
        (window.narrowed run.first.number
          (some (((runs.map Run.paragraph).map (·.lineno)).headD window.maxLine))) =
        some run.location := by
      refine find?_of_run hmarker
        (fun line hline ↦ ⟨hplain line (List.mem_append_left _ hline), here line hline⟩) hsuffix rfl
        rfl ?_
      change run.last.number ≤ ((runs.map Run.paragraph).map (·.lineno)).headD window.maxLine
      cases hruns : runs with
      | nil =>
        change run.last.number ≤ window.maxLine
        rw [hmaxLine]
        refine number_le_of_mem_classifyAll (List.mem_of_mem_filter (hsuffix.subset ?_))
        exact List.mem_append_left _ run.last_mem
      | cons next more =>
        refine Int.le_of_lt (hbelow run.last run.last_mem next.first ?_)
        rw [hruns] at others
        exact mem_of_splits others next List.mem_cons_self next.first List.mem_cons_self
    refine (succeeds_convertParagraph_of_found hfound).bind fun nodes hnodes ↦
      (succeeds_reportOmission _ nodes).bind fun _ _ ↦ ?_
    rw [hnodes]
    refine (ih (fun line hline ↦ hplain line (List.mem_append_right _ hline))
      ((List.suffix_append _ _).trans hsuffix) ?_).bind fun others hothers ↦ succeeds_pure ?_
    · intro stop hstop line hline
      cases hstop
      exact hbelow run.last run.last_mem line hline
    · rw [hothers.1]
      exact ⟨rfl, List.forall_mem_cons.mpr ⟨Locator.hasSpan_of_find? hfound, hothers.2⟩⟩

/-- The runs of lines with increasing numbers stand one behind the other. -/
theorem pairwise_of_splits (hsplits : Splits lines runs)
    (hsorted : lines.Pairwise fun above below ↦ above.number < below.number) :
    runs.Pairwise fun before behind ↦
      ∀ line ∈ before.lines, ∀ other ∈ behind.lines, line.number < other.number := by
  induction hsplits with
  | done => exact .nil
  | blank _ _ ih => exact ih (List.pairwise_cons.mp hsorted).2
  | run _ _ others ih =>
    obtain ⟨-, hrest, hbelow⟩ := List.pairwise_append.mp hsorted
    exact .cons (fun behind hbehind line hline other hother ↦
      hbelow line hline other (mem_of_splits others behind hbehind other hother)) (ih hrest)

end Siblings

section Documents

/-- The span that covers spans in order reaches from the start of the first to the end of the
last. -/
theorem unionAll_of_pairwise {first : Location} {others : List Location}
    (h : (first :: others).Pairwise fun before behind ↦
      before.start ≤ behind.start ∧ before.stop ≤ behind.stop) :
    first.unionAll others = ⟨first.start, (others.getLastD first).stop⟩ := by
  induction others generalizing first with
  | nil => rfl
  | cons next rest ih =>
    obtain ⟨hfirst, hrest⟩ := List.pairwise_cons.mp h
    obtain ⟨hnext, hothers⟩ := List.pairwise_cons.mp hrest
    obtain ⟨hstart, hstop⟩ := hfirst next List.mem_cons_self
    have hunion : first.union next = ⟨first.start, next.stop⟩ := by
      rw [Location.union, Position.earlier, if_pos hstart, Position.later]
      split
      · next hle => rw [Position.le_antisymm hstop hle]
      · rfl
    have hcovered : (⟨first.start, next.stop⟩ :: rest : List Location).Pairwise
        fun before behind ↦ before.start ≤ behind.start ∧ before.stop ≤ behind.stop :=
      .cons (fun behind hbehind ↦
        ⟨(hfirst behind (.tail _ hbehind)).1, (hnext behind hbehind).2⟩) hothers
    change (first.union next).unionAll rest = _
    rw [hunion, ih hcovered, List.getLastD_cons]
    cases rest <;> rfl

/-- The spans of runs that stand one behind the other are in order. -/
theorem pairwise_location {runs : List Run}
    (h : runs.Pairwise fun before behind ↦
      ∀ line ∈ before.lines, ∀ other ∈ behind.lines, line.number < other.number) :
    (runs.map Run.location).Pairwise fun before behind ↦
      before.start ≤ behind.start ∧ before.stop ≤ behind.stop := by
  rw [List.pairwise_map]
  refine h.imp fun hbehind ↦ ⟨Position.le_of_line_lt ?_, Position.le_of_line_lt ?_⟩
  · exact hbehind _ List.mem_cons_self _ List.mem_cons_self
  · exact hbehind _ (Run.last_mem _) _ (Run.last_mem _)

/-- The document around the nodes of runs that stand one behind the other. -/
theorem succeeds_documentAround {marker : Text}
    (hordered : (plainRuns marker text).Pairwise fun before behind ↦
      ∀ line ∈ before.lines, ∀ other ∈ behind.lines, line.number < other.number)
    (hspans : ∀ run ∈ plainRuns marker text, (Source.ofText text).HasSpan run.location) :
    Succeeds (do
      let children := (plainRuns marker text).map (Run.node text)
      if children.isEmpty then return []
      else return [← assembled (Node.documentAround (Source.ofText text) children)] :
        Conversion (List Node)) (·.headD Node.emptyDocument = plainTree marker text) := by
  rw [plainTree]
  cases hruns : plainRuns marker text with
  | nil => exact succeeds_pure rfl
  | cons first others =>
    rw [hruns] at hordered hspans
    let location : Location := ⟨first.location.start, (others.getLastD first).location.stop⟩
    have hcovers : Node.coveringSpan (((first :: others).map (Run.node text)).map (·.location)) =
        .ok location := by
      have hlocations : (first.location :: others.map Run.location).Pairwise _ :=
        pairwise_location hordered
      change Except.ok (first.location.unionAll ((others.map (Run.node text)).map (·.location))) = _
      rw [List.map_map,
        show (fun node : Node ↦ node.location) ∘ Run.node text = Run.location from rfl,
        unionAll_of_pairwise hlocations, List.getLastD_map]
    have hspan : (Source.ofText text).HasSpan location := by
      refine hasSpan_of_coveringSpan hcovers fun child hchild ↦ ?_
      obtain ⟨run, hrun, rfl⟩ := List.mem_map.mp hchild
      exact hspans run hrun
    have hdocument : Node.documentAround (Source.ofText text)
        ((first :: others).map (Run.node text)) = .ok (.mk .document
          (text.slice (Source.rangeIn text location).1 (Source.rangeIn text location).2) location
          (Source.rangeIn text location) ((first :: others).map (Run.node text))) := by
      simp only [Node.documentAround, hcovers, bind, Except.bind, Source.range?_eq_rangeIn hspan]
      rfl
    exact (succeeds_assembled (Q := (· = _)) ⟨_, hdocument, rfl⟩).bind fun node hnode ↦
      succeeds_pure hnode

theorem succeeds_convertRoot_of_plain {document : Document}
    (hmarker : '\r' ∉ settings.commentMarker)
    (hplain : ∀ line ∈ Line.classifyAll settings.commentMarker 1 text.lines,
      line.shape.isPlain = true)
    (hheader : document.header = none)
    (hblocks : document.blocks = (plainRuns settings.commentMarker text).map Run.paragraph) :
    Succeeds ((ofText settings.loosen text).convertRoot document)
      (· = plainTree settings.commentMarker text) := by
  obtain ⟨info, header, blocks⟩ := document
  dsimp only at hheader hblocks
  subst hheader hblocks
  have hsplits : Splits _ (plainRuns settings.commentMarker text) := splits_runsOf _
  have hsorted : (withoutComments (Line.classifyAll settings.commentMarker 1 text.lines)).Pairwise
      fun above below ↦ above.number < below.number :=
    (pairwise_number_classifyAll 1 text.lines).sublist List.filter_sublist
  rw [convertRoot, convertDocument]
  refine Succeeds.bind (Q := fun nodes : List Node ↦
    nodes.headD Node.emptyDocument = plainTree settings.commentMarker text) ?_ fun nodes hnodes ↦
      (succeeds_report _ _).bind fun _ _ ↦ succeeds_pure hnodes
  refine (succeeds_convertBlocks_of_splits hmarker hsplits
    (fun line hline ↦ hplain line (List.mem_of_mem_filter hline)) List.suffix_rfl rfl rfl
    fun _ hstop ↦ by cases hstop).bind fun nodes hnodes ↦ ?_
  obtain ⟨rfl, hspans⟩ := hnodes
  refine Succeeds.bind (Q := (· = [])) (succeeds_pure rfl) fun head hhead ↦ ?_
  rw [hhead]
  exact succeeds_documentAround (pairwise_of_splits hsplits hsorted) hspans

/-- Plain text has the tree of its runs. -/
theorem locateText_of_plain (text : Text)
    (h : ∀ line ∈ Line.classifyAll "//".toList 1 text.lines, line.shape.isPlain = true) :
    (locateText Settings.default.loosen text).1 = .ok (plainTree "//".toList text) := by
  have hmarker : Settings.default.commentMarker = "//".toList := rfl
  obtain ⟨document, hdocument, hheader, hblocks⟩ := blocks_of_plain h
  have hrun : Succeeds ((Converter.ofText Settings.default.loosen text).convertRoot document)
      (· = plainTree "//".toList text) :=
    succeeds_convertRoot_of_plain (by decide) h hheader hblocks
  obtain ⟨root, log, hroot, rfl⟩ := hrun []
  rw [locateText, Settings.marker?_loosen, hmarker]
  dsimp only
  rw [← Prod.eta (Document.ofText "//".toList text), hdocument]
  dsimp only
  rw [locateDocument, hroot]
  rfl

/-- Two runs of the same text, the first of which has a comment and a carriage return in it, with
comments and white space around them. -/
def commentedText : Text :=
  "// c\n\na \r\n//\nb\n \t\na\n// d\nb\n".toList

theorem locateText_commentedText :
    (∀ line ∈ Line.classifyAll "//".toList 1 commentedText.lines, line.shape.isPlain = true) ∧
    (locateText Settings.default.loosen commentedText).1 =
      .ok (plainTree "//".toList commentedText) := by
  have hplain : ∀ line ∈ Line.classifyAll "//".toList 1 commentedText.lines,
      line.shape.isPlain = true := by decide +kernel
  exact ⟨hplain, locateText_of_plain commentedText hplain⟩

end Documents

end Converter

end AsciidocSpans
