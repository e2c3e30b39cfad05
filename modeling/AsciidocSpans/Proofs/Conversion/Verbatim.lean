import AsciidocSpans.Proofs.Blocks.Verbatim
import AsciidocSpans.Proofs.Conversion.Elements
import AsciidocSpans.Proofs.Span.Verbatim

/-!
Where verbatim blocks are located. A verbatim block directly under a document, a preamble or a
section is looked for from its opening line on, unless a sibling was located beyond that line. A
listing, a fenced block or a literal block is located on just the lines of its content, unless its
content slides up: each line of it stands in the line above, the first one in the opening line. Then
it is located one line too early. Literal blocks are looked for with comment lines passed over,
although they keep them, so this only goes for those without any; and paragraphs that are listings
drop their comment lines, which the search for them does not pass over.

`VerbatimLocated` says this of one block and its nodes, and `BodyLocated` of all blocks of a body,
with the end of the sibling that was located last. A section is left out only if something before it
was located on the line of its title or beyond. `bodyLocated_of_locateText` says so of the tree of
every text; `mislocated_verbatim` has texts for which the provisions fail, and where they are
located instead.
-/

set_option autoImplicit false
set_option relaxedAutoImplicit false

namespace AsciidocSpans

open Blocks

/-- Each line of some content stands in the line above it, the first one in the opening line. -/
def SlidesUp (opening : Line) (content : List Line) : Prop :=
  (opening :: content).IsChain fun above line ↦ line.input <:+: above.input

/-- What was located last, if anything, ended on a line or before it. -/
def EndsBy (lastEnd : Option Position) (line : Int) : Prop :=
  ∀ stop ∈ lastEnd, stop.line ≤ line

/-- What was located last, if anything, ended before a line. -/
def EndsBefore (lastEnd : Option Position) (line : Int) : Prop :=
  ∀ stop ∈ lastEnd, stop.line < line

theorem EndsBefore.endsBy {lastEnd : Option Position} {line : Int} (h : EndsBefore lastEnd line) :
    EndsBy lastEnd line :=
  fun stop hstop ↦ Int.le_of_lt (h stop hstop)

/-- Some nodes are a code block of some lines, which are located at a span; a block title may extend
the block beyond that. -/
def ShowsCode (texts : List Text) (language : Option Text) (span : Location) (nodes : List Node) :
    Prop :=
  ∃ (title : Option Node) (range : Int × Int), (∀ node ∈ title, node.kind = .blockTitle) ∧
    nodes = [.mk (.codeBlock language) (Text.unlines texts)
      (span.unionAll (title.toList.map (·.location))) range title.toList]

/-- Some nodes are a paragraph around a leaf of some lines, which is located at a span, and around a
block title if there is one. -/
def ShowsParagraph (texts : List Text) (span : Location) (nodes : List Node) : Prop :=
  ∃ (title : Option Node) (location : Location) (range inner : Int × Int),
    (∀ node ∈ title, node.kind = .blockTitle) ∧
      Node.coveringSpan ((title.toList.map (·.location)) ++ [span]) = .ok location ∧
      nodes = [.mk .paragraph (Text.unlines texts) location range
        (title.toList ++ [.mk .str (Text.unlines texts) span inner []])]

/-- A span is the one of the content behind an opening line, unless that slides up: then the span
starts on the opening line, provided that nothing was located there. -/
structure SpansContent (lastEnd : Option Position) (opening : Line) (content : List Line)
    (span : Location) : Prop where
  exact_of_not_slides : ¬ SlidesUp opening content →
    span = linesSpan (opening.number + 1) (content.map (·.input))
  early_of_slides : SlidesUp opening content → EndsBefore lastEnd opening.number →
    span.start.line = opening.number

/-- How the element that was read from an opening line and the lines behind it is located, given the
end of the sibling located last, if it is verbatim. -/
structure VerbatimLocated (marker : Text) (lastEnd : Option Position) (opening : Line)
    (behind : List Line) (element : Element) (nodes : List Node) : Prop where
  /-- A listing or a fenced block with content. -/
  code : ∀ content ∈ codeContent? opening behind, content ≠ [] → EndsBy lastEnd opening.number →
    ∃ info language span, element = .listing info (content.map (·.input)) language ∧
      ShowsCode (content.map (·.input)) language span nodes ∧
      SpansContent lastEnd opening content span
  /-- A literal block with content and without comment lines. -/
  literal : ∀ content ∈ literalContent? opening behind, content ≠ [] →
    (∀ line ∈ opening :: content, ¬ marker <+: line.input) → EndsBy lastEnd opening.number →
    ∃ info span, element = .paragraph info true (content.map (·.input)) ∧
      ShowsParagraph (content.map (·.input)) span nodes ∧
      SpansContent lastEnd opening content span
  /-- A paragraph that is a listing, without comment lines. -/
  styled : ∀ info texts language, codeContent? opening behind = none →
    element = .listing info texts language → texts = (paragraphLines false opening behind).1 ∧
      ((∀ line ∈ paragraphRun behind, line.shape.isComment = false) →
        EndsBefore lastEnd opening.number →
        ShowsCode texts language (linesSpan opening.number texts) nodes)

mutual

/-- An element of a body and its nodes. A section is left out only if something was located on the
line of its title or beyond. -/
def PartLocated (marker : Text) (lines : List Text) (lastEnd : Option Position) :
    Element → List Node → Prop
  | .titledSection info _ blocks, nodes =>
    (nodes = [] ∧ ¬ EndsBefore lastEnd info.lineno) ∨
      ∃ head inner, nodes = head ++ inner ∧ BodyLocated marker lines none blocks inner
  | .container _ .preamble blocks, nodes => BodyLocated marker lines none blocks nodes
  | element, nodes => ∃ (own : Nat) (opening : Line) (behind : List Line),
      element.lineno = own + 1 ∧ linesFrom marker lines own = opening :: behind ∧
      VerbatimLocated marker lastEnd opening behind element nodes

/-- The elements of a body and their nodes, side by side, given the end of the sibling located last.
-/
def BodyLocated (marker : Text) (lines : List Text) (lastEnd : Option Position) :
    List Element → List Node → Prop
  | [], nodes => nodes = []
  | element :: rest, nodes => ∃ own others, nodes = own ++ others ∧
      PartLocated marker lines lastEnd element own ∧
      BodyLocated marker lines (Converter.endOf lastEnd own) rest others

end

namespace Converter

variable {settings : LooseSettings} {marker text : Text}

section Contents

/-- The first of some classified lines are the first of the lines, classified. -/
theorem exists_append_of_prefix_classifyAll {content : List Line} {number : Int}
    {texts : List Text} (h : content <+: Line.classifyAll marker number texts) :
    ∃ here behind, texts = here ++ behind ∧ content = Line.classifyAll marker number here := by
  induction texts generalizing number content with
  | nil => exact ⟨[], [], rfl, List.prefix_nil.mp h⟩
  | cons text rest ih =>
    cases content with
    | nil => exact ⟨[], text :: rest, rfl, rfl⟩
    | cons line others =>
      obtain ⟨rfl, hothers⟩ := List.cons_prefix_cons.mp h
      obtain ⟨here, behind, rfl, rfl⟩ := ih hothers
      exact ⟨text :: here, behind, rfl, rfl⟩

/-- What counts of a line is the line without carriage returns at its end. -/
theorem map_input_classifyAll (number : Int) (texts : List Text) :
    (Line.classifyAll marker number texts).map (·.input) =
      texts.map (Text.dropRightWhile (· == '\r')) := by
  induction texts generalizing number with
  | nil => rfl
  | cons text rest ih =>
    rw [Line.classifyAll, List.map_cons, ih]
    rfl

/-- Classified lines slide up where the lines do. -/
theorem slidesUp_classifyAll_iff (number : Int) (opening : Text) (texts : List Text) :
    SlidesUp (Line.classify marker opening number) (Line.classifyAll marker (number + 1) texts) ↔
      Slides (Text.dropRightWhile (· == '\r')) (opening :: texts) := by
  induction texts generalizing number opening with
  | nil => exact iff_of_true (.singleton _) (.singleton _)
  | cons text rest ih =>
    rw [SlidesUp, Slides, Line.classifyAll, List.isChain_cons_cons, List.isChain_cons_cons]
    exact and_congr Line.isInfix_input_iff (ih (number + 1) text)

variable {lastEnd : Option Position} {opening : Line} {content behind : List Line}
  {window : Window} {verbatim : Bool} {own : Nat}

/-- The line that an opening line and the first lines behind it are classified from. -/
theorem exists_here_of_linesFrom (hlines : linesFrom marker text.lines own = opening :: behind)
    (hcontent : content <+: behind) :
    ∃ raw here rest, text.lines.drop own = raw :: (here ++ rest) ∧
      opening = Line.classify marker raw (own + 1) ∧
      content = Line.classifyAll marker (own + 1 + 1) here := by
  obtain ⟨raw, hraw, hopening, hbehind, -⟩ := linesFrom_eq_cons hlines
  rw [hbehind, linesFrom] at hcontent
  obtain ⟨here, rest, hdrop, hhere⟩ := exists_append_of_prefix_classifyAll hcontent
  refine ⟨raw, here, rest, ?_, hopening, ?_⟩
  · rw [Locator.drop_eq_cons hraw, hdrop]
  · rw [hhere]
    push_cast
    rfl

/-- A search does not pass over lines that are no comments. -/
theorem skips_eq_false (hmarker : settings.marker? = some marker) (hreturn : '\r' ∉ marker)
    (number : Int) {texts : List Text} (hplain : verbatim = true ∨
      ∀ line ∈ Line.classifyAll marker number texts, ¬ marker <+: line.input) :
    ∀ line ∈ texts, (ofText settings text).locator.skips verbatim line = false := by
  intro line hline
  rcases hplain with rfl | hplain
  · rfl
  · obtain ⟨own, hown⟩ := mem_classifyAll hline number
    have hshort : ¬ marker <+: line :=
      fun h ↦ hplain _ hown (Line.isPrefix_input_of_isPrefix hreturn h)
    exact skips_of_not_isPrefix hmarker hshort verbatim

/-- The content behind an opening line is found from that line on. -/
theorem exists_find?_of_content (hmarker : settings.marker? = some marker)
    (hreturn : '\r' ∉ marker) (hlines : linesFrom marker text.lines own = opening :: behind)
    (hcontent : content <+: behind) (hsome : content ≠ [])
    (hplain : verbatim = true ∨ ∀ line ∈ opening :: content, ¬ marker <+: line.input)
    (hminLine : window.minLine = opening.number)
    (hmaxLine : own + 1 + content.length ≤ window.maxLine)
    (hcolumn : EndsBefore lastEnd opening.number → window.startColumn = 0) :
    ∃ span, (ofText settings text).locator.find? verbatim (content.map (·.input)) window =
      some span ∧ SpansContent lastEnd opening content span := by
  obtain ⟨raw, here, rest, hdrop, rfl, rfl⟩ := exists_here_of_linesFrom hlines hcontent
  rw [length_classifyAll] at hmaxLine
  have hhere : here ≠ [] := by
    rintro rfl
    exact hsome rfl
  have hkept : ∀ line ∈ raw :: here, (ofText settings text).locator.skips verbatim line = false :=
    skips_eq_false hmarker hreturn (own + 1) hplain
  obtain ⟨span, hfound, hexact, hearly⟩ := Locator.exists_find?_of_partsBelow
    (Text.isPrefix_dropRightWhile (· == '\r')) hdrop hhere hkept hminLine hmaxLine
  rw [map_input_classifyAll]
  refine ⟨span, hfound, fun hslides ↦ ?_, fun hslides hbefore ↦ ?_⟩
  · rw [slidesUp_classifyAll_iff] at hslides
    rw [hexact hslides, map_input_classifyAll]
    exact congrArg (linesSpan · _) (show (own : Int) + 2 = own + 1 + 1 by omega)
  · rw [slidesUp_classifyAll_iff] at hslides
    exact hearly hslides (hcolumn hbefore)

/-- The lines of a paragraph are found from its first line on, if there are no comments among them.
-/
theorem find?_of_paragraphLines (hlines : linesFrom marker text.lines own = opening :: behind)
    (hplain : ∀ line ∈ paragraphRun behind, line.shape.isComment = false)
    (hminLine : window.minLine = opening.number)
    (hmaxLine : own + 1 + (paragraphRun behind).length ≤ window.maxLine)
    (hcolumn : window.startColumn = 0) :
    (ofText settings text).locator.find? true (paragraphLines false opening behind).1 window =
      some (linesSpan opening.number (paragraphLines false opening behind).1) := by
  obtain ⟨raw, here, rest, hdrop, hopening, hrun⟩ :=
    exists_here_of_linesFrom hlines (List.takeWhile_prefix (goesOn ·.shape))
  change paragraphRun behind = _ at hrun
  have htexts : (paragraphLines false opening behind).1 =
      (raw :: here).map (Text.trimRight ∘ Text.dropRightWhile (· == '\r')) := by
    rw [paragraphLines, paragraphTail_eq, List.filter_eq_self.mpr fun line hline ↦ by
      rw [hplain line hline, Bool.not_false], hrun, hopening]
    change _ :: (Line.classifyAll marker _ here).map (Text.trimRight ∘ (·.input)) = _
    rw [← List.map_map, map_input_classifyAll, List.map_map]
    rfl
  rw [hrun, length_classifyAll] at hmaxLine
  rw [htexts, hopening]
  refine Locator.find?_of_parts (fun line ↦ (Text.isPrefix_trimRight _).trans
    (Text.isPrefix_dropRightWhile _ line)) hdrop (List.cons_ne_nil raw here) (fun _ _ ↦ rfl) ?_ ?_
    hcolumn
  · rw [hminLine, hopening]
    rfl
  · rw [List.length_cons]
    omega

end Contents

section Nodes

variable {converter : Converter} {info : ElementInfo} {texts : List Text}
  {language : Option Text} {window : Window} {span : Location}

/-- A listing whose lines are found becomes a code block at their span. -/
theorem yields_showsCode (h : converter.locator.find? true texts window = some span) :
    Yields (converter.convertListing info texts language window)
      (ShowsCode texts language span) := by
  rw [convertListing]
  refine (yields_find converter true texts window).bind fun found hfound ↦ ?_
  rw [h] at hfound
  subst hfound
  refine (yields_kind_convertBlockTitle info window).bind fun title htitle ↦
    (yields_assembled fun node hnode ↦ hnode).bind fun node hnode ↦ yields_pure ?_
  obtain ⟨range, -, rfl⟩ := located_eq_ok hnode
  exact ⟨title, range, htitle, rfl⟩

/-- A literal block whose lines are found becomes a paragraph around a leaf at their span. -/
theorem yields_showsParagraph (h : converter.locator.find? false texts window = some span) :
    Yields (converter.convertParagraph info texts window) (ShowsParagraph texts span) := by
  rw [convertParagraph]
  refine (yields_find converter false texts window).bind fun found hfound ↦ ?_
  rw [h] at hfound
  subst hfound
  refine (yields_kind_convertBlockTitle info window).bind fun title htitle ↦
    (yields_assembled fun leaf hleaf ↦ hleaf).bind fun leaf hleaf ↦
      (yields_assembled fun node hnode ↦ hnode).bind fun node hnode ↦ yields_pure ?_
  obtain ⟨inner, -, rfl⟩ := located_eq_ok hleaf
  obtain ⟨location, range, hcovers, -, rfl⟩ := around_eq_ok hnode
  refine ⟨title, location, range, inner, htitle, ?_, rfl⟩
  rwa [List.map_append] at hcovers

/-- A title that is found has a node. -/
theorem yields_convertTitle_ne_none {title : Text} {level : Int}
    (h : converter.locator.find? false [title] window = some span) :
    Yields (converter.convertTitle title level window) (· ≠ none) := by
  rw [convertTitle, convertText?]
  refine (yields_find converter false [title] window).bind fun found hfound ↦ ?_
  rw [h] at hfound
  subst hfound
  exact (yields_trivial _).bind fun _ _ ↦ yields_pure (Option.some_ne_none _)

end Nodes

section Siblings

variable {window : Window} {lineno following : Int} {lastEnd : Option Position}

/-- A sibling is looked for up to the line of the next one. -/
theorem maxLine_siblingWindow (hnarrows : window.narrows = true) (lineno following : Int)
    (lastEnd : Option Position) :
    (siblingWindow window lineno following lastEnd).maxLine = following := by
  rw [siblingWindow, if_pos hnarrows, afterSibling.eq_def]
  split
  · split <;> rfl
  · rfl

theorem narrows_siblingWindow (hnarrows : window.narrows = true) :
    (siblingWindow window lineno following lastEnd).narrows = true := by
  rw [siblingWindow, if_pos hnarrows, afterSibling.eq_def]
  split
  · split <;> exact hnarrows
  · exact hnarrows

/-- A sibling is looked for from its own line on, unless another one was located beyond that. -/
theorem minLine_siblingWindow (hnarrows : window.narrows = true) (h : EndsBy lastEnd lineno) :
    (siblingWindow window lineno following lastEnd).minLine = lineno := by
  rw [siblingWindow, if_pos hnarrows, afterSibling.eq_def]
  split
  · next stop =>
    split
    · next hinside => exact Int.le_antisymm (h stop rfl) hinside.1
    · rfl
  · rfl

/-- A sibling is looked for from the start of its line on, unless another one was located there. -/
theorem startColumn_siblingWindow (hnarrows : window.narrows = true)
    (h : EndsBefore lastEnd lineno) :
    (siblingWindow window lineno following lastEnd).startColumn = 0 := by
  rw [siblingWindow, if_pos hnarrows, afterSibling.eq_def]
  split
  · next stop =>
    split
    · next hinside => exact absurd (h stop rfl) (Int.not_lt.mpr hinside.1)
    · rfl
  · rfl

end Siblings

section Bodies

variable {window : Window} {following : Int} {lastEnd : Option Position} {own stop : Nat}
  {opening : Line} {behind : List Line} {element : Element}

/-- What was read from an opening line and the lines behind it is located as verbatim text is. -/
theorem verbatimLocated_convertElement (hmarker : settings.marker? = some marker)
    (hreturn : '\r' ∉ marker) (hlines : linesFrom marker text.lines own = opening :: behind)
    (hread : ReadFrom opening behind (linesFrom marker text.lines stop) element)
    (hstop : stop ≤ text.lines.length) (hfollowing : stop ≤ following)
    (hnarrows : window.narrows = true) :
    Yields ((ofText settings text).convertElement
      (siblingWindow window element.lineno following lastEnd) element)
      (VerbatimLocated marker lastEnd opening behind element) := by
  have hroom : ∀ count, count + (linesFrom marker text.lines stop).length ≤ behind.length →
      (own : Int) + 1 + count ≤ following := by
    intro count hcount
    have hlength := congrArg List.length hlines
    rw [linesFrom, length_classifyAll, List.length_drop, List.length_cons] at hlength
    rw [linesFrom, length_classifyAll, List.length_drop] at hcount
    omega
  intro log nodes further hrun
  rw [hread.lineno] at hrun
  have hmaxLine := maxLine_siblingWindow hnarrows opening.number following lastEnd
  refine ⟨fun content hcontent hsome hends ↦ ?_, fun content hcontent hsome hplain hends ↦ ?_,
    fun info texts language hcode heq ↦ ?_⟩
  · obtain ⟨hlength, info, language, rfl⟩ := hread.code content hcontent
    obtain ⟨span, hfound, hspan⟩ := exists_find?_of_content hmarker hreturn hlines
      (isPrefix_of_codeContent? hcontent) hsome (.inl rfl) (minLine_siblingWindow hnarrows hends)
      (by rw [hmaxLine]; exact hroom _ hlength) (startColumn_siblingWindow hnarrows)
    rw [convertElement] at hrun
    exact ⟨info, language, span, rfl, yields_showsCode hfound log nodes further hrun, hspan⟩
  · obtain ⟨hlength, info, rfl⟩ := hread.literal content hcontent
    obtain ⟨span, hfound, hspan⟩ := exists_find?_of_content hmarker hreturn hlines
      (isPrefix_of_literalContent? hcontent) hsome (.inr hplain)
      (minLine_siblingWindow hnarrows hends) (by rw [hmaxLine]; exact hroom _ hlength)
      (startColumn_siblingWindow hnarrows)
    rw [convertElement] at hrun
    exact ⟨info, span, rfl, yields_showsParagraph hfound log nodes further hrun, hspan⟩
  · subst heq
    have hparagraph := hread.styled info texts language hcode rfl
    obtain rfl : (paragraphLines false opening behind).1 = texts := by rw [hparagraph]
    have hlength := length_paragraphRun_add opening behind
    rw [congrArg Prod.snd hparagraph] at hlength
    rw [convertElement] at hrun
    exact ⟨rfl, fun hplain hbefore ↦ yields_showsCode (find?_of_paragraphLines hlines hplain
      (minLine_siblingWindow hnarrows hbefore.endsBy)
      (by rw [hmaxLine]; exact hroom _ (Nat.le_of_eq hlength))
      (startColumn_siblingWindow hnarrows hbefore)) log nodes further hrun⟩

/-- A section title without a node stands on a line on which something was located, or before
that. -/
theorem not_endsBefore_convertTitle (hmarker : settings.marker? = some marker) {title : Text}
    {level : Int} {column : Nat}
    (hwritten : Written marker text.lines own column (own + 1) [title])
    (hfollowing : (own : Int) + 1 ≤ following) (hnarrows : window.narrows = true) :
    Yields ((ofText settings text).convertTitle title level
        (siblingWindow window (own + 1) following lastEnd)) fun result ↦
      result = none → ¬ EndsBefore lastEnd (own + 1) := by
  intro log result further hrun hnone hbefore
  rw [← commentMarker_ofText hmarker] at hwritten
  have hmaxLine := maxLine_siblingWindow hnarrows (own + 1) following lastEnd
  obtain ⟨span, hfound, -⟩ := Locator.exists_find?_of_written hwritten
    (minLine_siblingWindow hnarrows hbefore.endsBy) (hmaxLine ▸ hfollowing)
    (startColumn_siblingWindow hnarrows hbefore) (Nat.zero_le column)
  exact yields_convertTitle_ne_none hfound log result further hrun hnone

/-- An element that does not hold the blocks of a body is located as verbatim text is. -/
theorem partLocated_of_holdsBody_eq_false {nodes : List Node} (hbody : element.holdsBody = false)
    (hlineno : element.lineno = own + 1)
    (hlines : linesFrom marker text.lines own = opening :: behind)
    (h : VerbatimLocated marker lastEnd opening behind element nodes) :
    PartLocated marker text.lines lastEnd element nodes := by
  cases element with
  | titledSection => cases hbody
  | container info kind blocks =>
    cases kind with
    | preamble => cases hbody
    | _ => exact ⟨own, opening, behind, hlineno, hlines, h⟩
  | _ => exact ⟨own, opening, behind, hlineno, hlines, h⟩

mutual

/-- An element that stands in a text is located as its opening line and the lines behind it say. -/
theorem partLocated_convertElement (hmarker : settings.marker? = some marker)
    (hreturn : '\r' ∉ marker) (element : Element) (window : Window) (following : Int)
    (lastEnd : Option Position) (own stop : Nat) (hlineno : element.lineno = own + 1)
    (hstands : Stands marker text.lines own stop element) (hstop : stop ≤ text.lines.length)
    (hfollowing : stop ≤ following) (hnarrows : window.narrows = true) :
    Yields ((ofText settings text).convertElement
      (siblingWindow window element.lineno following lastEnd) element)
      (PartLocated marker text.lines lastEnd element) := by
  have hother : element.holdsBody = false → (∃ opening behind,
      linesFrom marker text.lines own = opening :: behind ∧
        ReadFrom opening behind (linesFrom marker text.lines stop) element) →
      Yields ((ofText settings text).convertElement
        (siblingWindow window element.lineno following lastEnd) element)
        (PartLocated marker text.lines lastEnd element) := by
    intro hbody ⟨opening, behind, hlines, hread⟩ log nodes further hrun
    exact partLocated_of_holdsBody_eq_false hbody hlineno hlines (verbatimLocated_convertElement
      hmarker hreturn hlines hread hstop hfollowing hnarrows log nodes further hrun)
  have hinner := fun lineno ↦ maxLine_siblingWindow hnarrows lineno following lastEnd
  match element with
  | .titledSection info level blocks =>
    obtain ⟨⟨column, hwritten⟩, hblocks⟩ := hstands
    have hbehind := hblocks.le
    rw [convertElement, hlineno]
    refine (not_endsBefore_convertTitle hmarker hwritten (by omega) hnarrows).bind
      fun title htitle ↦ ?_
    cases title with
    | none =>
      have hline : info.lineno = own + 1 := hlineno
      exact yields_pure (.inl ⟨rfl, by rw [hline]; exact htitle rfl⟩)
    | some title =>
      refine (yields_trivial _).bind fun id _ ↦
        (bodyLocated_convertBlocks hmarker hreturn blocks _ none (own + 1) stop hblocks hstop
          (by rw [hinner]; exact hfollowing) (narrows_siblingWindow hnarrows)).bind
            fun inner hbody ↦ yields_pure (.inr ⟨id.toList ++ [title], inner, ?_, hbody⟩)
      rw [List.append_assoc]
      rfl
  | .container info .preamble blocks =>
    rw [convertElement]
    exact bodyLocated_convertBlocks hmarker hreturn blocks _ none own stop hstands hstop
      (by rw [hinner]; exact hfollowing) (narrows_siblingWindow hnarrows)
  | .container _ .exampleBlock _ | .container _ .quote _ | .container _ .sidebar _ | .document _
  | .header _ | .author _ | .paragraph _ _ _ | .list _ _ _ _ | .listItem _ | .descriptionList _ _ _
  | .listing _ _ _ | .admonition _ _ _ _ | .table _ _ _ _ | .tableCell _ | .image _ _
  | .tableOfContents _ | .unhandled _ _ => exact hother rfl hstands

/-- Blocks that stand in a text one behind the other are located each for itself, given the end of
the one located before. -/
theorem bodyLocated_convertBlocks (hmarker : settings.marker? = some marker)
    (hreturn : '\r' ∉ marker) (blocks : List Element) (window : Window)
    (lastEnd : Option Position) (first stop : Nat)
    (hstand : StandAll marker text.lines first stop blocks)
    (hstop : stop ≤ text.lines.length) (hmaxLine : stop ≤ window.maxLine)
    (hnarrows : window.narrows = true) :
    Yields ((ofText settings text).convertBlocks window lastEnd blocks)
      (BodyLocated marker text.lines lastEnd blocks) := by
  match blocks with
  | [] => exact yields_pure rfl
  | element :: rest =>
    obtain ⟨own, middle, hfirst, hown, hlineno, hstands, hrest⟩ := hstand
    have hbehind := hrest.le
    have hfollowing : (middle : Int) ≤ (rest.map (·.lineno)).headD window.maxLine := by
      cases rest with
      | nil => exact Int.le_trans (by omega) hmaxLine
      | cons next others =>
        obtain ⟨place, behind, hplace, -, hnext, -⟩ := hrest
        rw [List.map_cons, List.headD_cons, hnext]
        omega
    rw [convertBlocks_cons]
    refine (partLocated_convertElement hmarker hreturn element window _ lastEnd own middle hlineno
      hstands (hbehind.trans hstop) hfollowing hnarrows).bind fun nodes hnodes ↦
        (yields_trivial _).bind fun _ _ ↦ ?_
    exact (bodyLocated_convertBlocks hmarker hreturn rest window _ middle stop hrest hstop hmaxLine
      hnarrows).bind fun others hothers ↦ yields_pure ⟨nodes, others, rfl, hnodes, hothers⟩

end

end Bodies

section Trees

/-- In the located tree of a text, the children of the document are those of its header and the
nodes of its blocks, which are located as verbatim text is. -/
theorem bodyLocated_of_locateText {root : Node}
    (hreturn : ∀ marker ∈ settings.marker?, '\r' ∉ marker)
    (h : (locateText settings text).1 = .ok root) :
    ∃ marker document head nodes, settings.marker? = some marker ∧
      (Document.ofText marker text).1 = .ok document ∧ root.children = head ++ nodes ∧
      BodyLocated marker text.lines none document.blocks nodes := by
  obtain ⟨marker, document, hmarker, hread, hdocument⟩ := exists_document_of_locateText h
  obtain ⟨log, hroot⟩ := exists_convertRoot_of_locateDocument hdocument
  obtain ⟨first, stop, hstop, hstand⟩ := standAll_of_ofText (hreturn marker hmarker) hread
  have hbody := bodyLocated_convertBlocks hmarker (hreturn marker hmarker) document.blocks
    { minLine := 1, maxLine := (ofText settings text).source.lineCount } none first stop hstand
    hstop (Int.ofNat_le.mpr hstop) rfl
  have hchildren : Yields ((ofText settings text).convertRoot document) fun root ↦
      ∃ head nodes, root.children = head ++ nodes ∧
        BodyLocated marker text.lines none document.blocks nodes :=
    (yields_children_convertDocument hbody).bind fun roots hroots ↦
      (yields_trivial _).bind fun _ _ ↦ yields_pure hroots
  obtain ⟨head, nodes, heq, hnodes⟩ := hchildren [] root log hroot
  exact ⟨marker, document, head, nodes, hmarker, hread, heq, hnodes⟩

/-- The spans of the code blocks and the paragraphs in the located tree of a text. -/
def shownSpans (text : Text) : Option (List Location) :=
  (locateText Settings.default.loosen text).1.toOption.map fun root ↦
    (root.nodes.filter fun node ↦ node.kind matches .codeBlock _ | .paragraph).map (·.location)

/-- A listing in a section, which keeps its comment lines, and a literal block behind it. -/
def listingInSection : Text :=
  "== a\n\n.b\n----\n// c\nc\n----\n\n....\nd\n....".toList

theorem bodyLocated_listingInSection :
    (∀ marker ∈ Settings.default.loosen.marker?, '\r' ∉ marker) ∧
    shownSpans listingInSection = some [⟨⟨3, 0⟩, ⟨6, 1⟩⟩, ⟨⟨10, 0⟩, ⟨10, 1⟩⟩] ∧
    ∃ root, (locateText Settings.default.loosen listingInSection).1 = .ok root ∧
      ∃ marker document head nodes, Settings.default.loosen.marker? = some marker ∧
        (Document.ofText marker listingInSection).1 = .ok document ∧
        root.children = head ++ nodes ∧
        BodyLocated marker listingInSection.lines none document.blocks nodes := by
  have hreturn : ∀ marker ∈ Settings.default.loosen.marker?, '\r' ∉ marker := by decide
  obtain ⟨root, hroot, -⟩ := exists_of_okAnd (show okAnd
    (locateText Settings.default.loosen listingInSection).1 (fun _ ↦ true) = true
      by decide +kernel)
  exact ⟨hreturn, by decide +kernel, root, hroot, bodyLocated_of_locateText hreturn hroot⟩

/-- Verbatim text that is not located exactly: content that slides up is located a line early; a
literal block with a comment line is left out, and so is a paragraph that is a listing and drops
one; and what is located too far down makes a listing behind it start late, or a section with its
listing be left out. -/
theorem mislocated_verbatim :
    shownSpans "----\n--\n----".toList = some [⟨⟨1, 0⟩, ⟨1, 2⟩⟩] ∧
    shownSpans "```ruby\nruby\n```".toList = some [⟨⟨1, 3⟩, ⟨1, 7⟩⟩] ∧
    shownSpans "....\n// x\n....".toList = some [] ∧
    shownSpans "[source]\na\n// c\nb".toList = some [] ∧
    shownSpans "....\n--\n// foo\n....\n\n// c\n----\nbar // foo\n----".toList =
      some [⟨⟨6, 0⟩, ⟨8, 10⟩⟩] ∧
    shownSpans "....\n// x\n....\n\n[source]\na // x".toList = some [⟨⟨6, 2⟩, ⟨6, 6⟩⟩] ∧
    shownSpans "....\n// x\n....\n\n== a // x\n\n----\ny\n----".toList =
      some [⟨⟨5, 5⟩, ⟨5, 9⟩⟩] := by
  decide +kernel

end Trees

end Converter

end AsciidocSpans
