import AsciidocSpans.Proofs.Blocks.Adequacy
import AsciidocSpans.Proofs.Blocks.Layout

/-!
What is read from running text is laid out in it. Whatever is made of the lines from an index on is
laid out from there up to the lines that are left (`BlocksMade.laid` and the theorems beside it, by
one induction on what was read). That a document is read at all is what `exists_document_of_ofText`
says.
-/

set_option autoImplicit false
set_option relaxedAutoImplicit false

namespace AsciidocSpans.Blocks

variable {marker : Text} {lines : List Text}

/-- Blocks are laid out from an index on, up to the lines that are left. -/
def BlocksLaid (marker : Text) (lines : List Text) (first : Nat) (blocks : List Element)
    (behind : List Line) : Prop :=
  ∃ stop, At marker lines stop behind ∧ LaidAll marker lines first stop blocks

/-- An element that stands on the line with an index is laid out up to the lines that are left. -/
def ElementLaid (marker : Text) (lines : List Text) (own : Nat) (element : Element)
    (behind : List Line) : Prop :=
  ∃ stop, own < stop ∧ At marker lines stop behind ∧ Kept marker lines own ∧
    element.lineno = own + 1 ∧ Laid marker lines own stop element

/-- A text, or the place where one would stand, is laid out behind a position, on the line that a
number names and those up to the lines that are left. -/
def TextLaid (marker : Text) (lines : List Text) (first : Position) (number : Int)
    (text : Option Text) (behind : List Line) : Prop :=
  ∃ own column stop : Nat, number = own + 1 ∧ Kept marker lines own ∧
    first ≤ ⟨own + 1, column⟩ ∧ own < stop ∧ At marker lines stop behind ∧
    ∀ shown, text = some shown → shown ≠ [] → Written marker lines own column stop shown.lines

section Blocks

variable {own first middle : Nat} {element : Element} {blocks others : List Element}
  {behind : List Line} {metadata : Metadata}

/-- Blocks that are laid out from an index on are so from an earlier one on. -/
theorem BlocksLaid.mono (h : BlocksLaid marker lines middle blocks behind)
    (hfirst : first ≤ middle) : BlocksLaid marker lines first blocks behind := by
  obtain ⟨stop, hat, hblocks⟩ := h
  exact ⟨stop, hat, hblocks.mono hfirst⟩

/-- Blocks that are laid out behind other blocks. -/
theorem BlocksLaid.append (hothers : BlocksLaid marker lines middle others behind)
    (h : LaidAll marker lines first middle blocks) :
    BlocksLaid marker lines first (blocks ++ others) behind := by
  obtain ⟨stop, hat, hlaid⟩ := hothers
  exact ⟨stop, hat, h.append hlaid⟩

/-- Blocks that are laid out behind an element. -/
theorem ElementLaid.cons {left : List Line} (h : ElementLaid marker lines own element left)
    (hfirst : first ≤ own) (hothers : ∀ middle, At marker lines middle left →
      BlocksLaid marker lines middle others behind) :
    BlocksLaid marker lines first (element :: others) behind := by
  obtain ⟨middle, hown, hat, hkept, hlineno, hlaid⟩ := h
  obtain ⟨stop, hstop, hall⟩ := hothers middle hat
  exact ⟨stop, hstop, own, middle, hfirst, hown, hkept, hlineno, hlaid, hall⟩

/-- Metadata that is attached to an element leaves it where it is. A section has its title from its
own line. -/
theorem ElementLaid.attach (h : ElementLaid marker lines own element behind)
    (hsection : element.isSection = false) :
    ElementLaid marker lines own (metadata.attach element) behind := by
  obtain ⟨stop, hown, hat, hkept, hlineno, hlaid⟩ := h
  refine ⟨stop, hown, hat, hkept, (lineno_attach metadata element).trans hlineno, ?_⟩
  cases element with
  | titledSection => cases hsection
  | container info kind blocks => cases kind <;> exact hlaid
  | _ => exact hlaid

end Blocks

section Leaves

variable {own : Nat} {line : Line} {rest behind : List Line} {metadata : Metadata}
  {place : Place} {element : Element}

theorem style_eq_none (h : metadata.attributes = ∅) : metadata.style = none := by
  rw [Metadata.style, h]
  rfl

/-- Without a style the lines of a paragraph make a paragraph. -/
theorem makeParagraph_of_style (h : metadata.style = none) (entries : Attributes) (first : Line)
    (segments : List Text) :
    ∃ isLiteral shown, makeParagraph entries metadata first segments =
        .paragraph { lineno := first.number } isLiteral shown ∧
      (shown = segments ∨ shown = dedent segments) := by
  have hsource : ([] : Text) ≠ "source".toList := by decide
  have hlisting : ([] : Text) ≠ "listing".toList := by decide
  have hquote : ([] : Text) ≠ "quote".toList := by decide
  have hverse : ([] : Text) ≠ "verse".toList := by decide
  have hliteral : ([] : Text) ≠ "literal".toList := by decide
  have hnormal : ([] : Text) ≠ "normal".toList := by decide
  rw [makeParagraph, h]
  simp only [admonitionStyle?, Option.filter_none, Option.getD_none, hsource, hlisting, hquote,
    hverse, hliteral, hnormal, or_self, false_or, if_false, ne_eq, not_false_eq_true, and_true]
  cases first.shape.isIndented with
  | true => exact ⟨true, dedent segments, rfl, Or.inr rfl⟩
  | false => exact ⟨false, segments, rfl, Or.inl rfl⟩

/-- A line that starts a paragraph is no comment. -/
theorem isPassedOver_of_startsParagraph {shape : Line.Shape} (h : shape.startsParagraph place) :
    shape.isPassedOver = false := by
  cases shape with
  | blank | comment | commentDelimiter => cases h
  | _ => rfl

theorem isPassedOver_of_isUnmarked {shape : Line.Shape} (h : shape.isUnmarked) :
    shape.isPassedOver = false :=
  isPassedOver_of_startsParagraph (Line.Shape.startsParagraph_of_isUnmarked h .body)

/-- The lines of a paragraph, as they are or without their common indentation, are laid out from its
first line on. -/
theorem elementLaid_paragraph (hprose : Prose marker lines) (attached : Bool)
    (hall : At marker lines own (line :: rest)) (hshape : line.shape.isPassedOver = false)
    {isLiteral : Bool} {shown : List Text}
    (hshown : shown = (paragraphLines attached line rest).1 ∨
      shown = dedent (paragraphLines attached line rest).1) :
    ElementLaid marker lines own (.paragraph { lineno := line.number } isLiteral shown)
      (paragraphLines attached line rest).2 := by
  have hkept := kept_of_shape hprose.noReturn hall.eq hshape
  obtain ⟨stop, column, hstop, hbehind, hwritten⟩ :=
    written_paragraphLines hprose attached hall.eq hkept
  refine ⟨stop, hwritten.lt, ⟨hbehind.symm, hstop⟩, hkept, hall.number, ?_⟩
  rcases hshown with rfl | rfl
  · exact ⟨column, hwritten⟩
  · exact written_dedent hwritten

/-- What is laid out from a line on is so up to lines behind that line, if these are left. -/
theorem elementLaid_of_suffix (hprose : Prose marker lines)
    (hall : At marker lines own (line :: rest)) (hshape : line.shape.isPassedOver = false)
    (hlineno : element.lineno = line.number) (hbehind : behind <:+ rest)
    (h : ∃ stop, At marker lines stop behind ∧ Laid marker lines own stop element) :
    ElementLaid marker lines own element behind := by
  obtain ⟨stop, hat, hlaid⟩ := h
  exact ⟨stop, hall.lt_of_suffix hat hbehind, hat, kept_of_shape hprose.noReturn hall.eq hshape,
    hlineno.trans hall.number, hlaid⟩

/-- Of a block that is left out nothing is laid out but its own line. -/
theorem elementLaid_unhandled (hprose : Prose marker lines)
    (hall : At marker lines own (line :: rest)) (hshape : line.shape.isPassedOver = false)
    (hbehind : behind <:+ rest) (context : Text) :
    ElementLaid marker lines own (.unhandled { lineno := line.number } context) behind := by
  obtain ⟨stop, -, hat⟩ := hall.tail.of_suffix hbehind
  exact elementLaid_of_suffix hprose hall hshape rfl hbehind ⟨stop, hat, trivial⟩

/-- Running text has no other leaves than paragraphs and what is left out. -/
theorem LeafMade.laid (hprose : Prose marker lines)
    (h : LeafMade place metadata line rest element behind)
    (hall : At marker lines own (line :: rest)) (hmetadata : metadata.attributes = ∅) :
    ElementLaid marker lines own (metadata.attach element) behind := by
  have hprosaic := hall.isProse hprose
  have hsuffix := h.suffix
  cases h with
  | paragraph entries starts =>
    obtain ⟨isLiteral, shown, hparagraph, hshown⟩ := makeParagraph_of_style
      (style_eq_none hmetadata) entries line (paragraphLines (place == .attached) line rest).1
    rw [hparagraph]
    exact (elementLaid_paragraph hprose _ hall (isPassedOver_of_startsParagraph starts)
      hshown).attach rfl
  | floating shape | thematicBreak shape | pageBreak shape =>
    exact (elementLaid_unhandled hprose hall (by rw [shape]; rfl) hsuffix _).attach rfl
  | admonition shape | listing _ shape | literal shape | passthrough shape | fenced shape
  | image _ shape | contents shape | otherMacro shape | otherTable shape =>
    rw [shape] at hprosaic
    cases hprosaic

/-- In running text no line gives attributes to the next block. -/
theorem Passes.laid (hprose : Prose marker lines) {waiting : Metadata}
    (h : Passes metadata line rest waiting behind) (hall : At marker lines own (line :: rest))
    (hmetadata : metadata.attributes = ∅) :
    waiting.attributes = ∅ ∧ ∃ stop, own < stop ∧ At marker lines stop behind := by
  have hprosaic := hall.isProse hprose
  cases h with
  | line waits =>
    refine ⟨?_, own + 1, Nat.lt_succ_self own, hall.tail⟩
    rw [Metadata.after, List.foldl_cons, List.foldl_nil]
    cases hshape : line.shape with
    | blockAttributes =>
      rw [hshape] at hprosaic
      cases hprosaic
    | _ => exact hmetadata
  | commentBlock => exact ⟨hmetadata, hall.tail.of_suffix (splitAtClosing_suffix _ rest).1⟩

end Leaves

section Items

variable {own column : Nat} {text first : Text} {line : Line} {rest behind left : List Line}
  {start : Position} {number : Int} {blocks : List Element}

/-- The text of an item is laid out from a column of its line on. -/
theorem textLaid_itemText (hprose : Prose marker lines) (hnumber : number = own + 1)
    (htext : lines[own]? = some text) (hkept : ¬ marker <+: text)
    (hrest : At marker lines (own + 1) rest) (hstart : start ≤ ⟨own + 1, (column : Nat)⟩)
    (hcolumn : column ≤ text.length) (hfirst : first <+: text.drop column) :
    TextLaid marker lines start number (some (itemText first rest).1) (itemText first rest).2 := by
  obtain ⟨stop, hstop, hbehind, hwritten⟩ := written_itemText hprose htext hkept hcolumn hfirst
  rw [hrest.eq] at hbehind hwritten
  refine ⟨own, column, stop, hnumber, ⟨text, htext, hkept⟩, hstart, hwritten.lt,
    ⟨hbehind.symm, hstop⟩, fun shown hshown _ ↦ ?_⟩
  cases hshown
  exact hwritten

/-- The text of an item that a line shows is laid out from that line on. -/
theorem textLaid_of_infix (hprose : Prose marker lines) (hall : At marker lines own (line :: rest))
    (hshape : line.shape.isPassedOver = false) (hfirst : first <:+: line.input)
    (hstart : start ≤ lineStart own) :
    TextLaid marker lines start line.number (some (itemText first rest).1)
      (itemText first rest).2 := by
  obtain ⟨text, htext, hkept⟩ := kept_of_shape hprose.noReturn hall.eq hshape
  obtain ⟨column, hcolumn, hprefix⟩ := Text.exists_column_of_infix
    (hfirst.trans (input_prefix_of_linesFrom hall.eq htext).isInfix)
  refine textLaid_itemText hprose hall.number htext hkept hall.tail
    (Position.le_trans hstart ?_) hcolumn hprefix
  exact Or.inr ⟨rfl, Int.natCast_nonneg column⟩

/-- An item is laid out with what is attached to it behind its text. -/
theorem TextLaid.item {shown : Option Text} (h : TextLaid marker lines start number shown left)
    (hblocks : ∀ index, At marker lines index left → BlocksLaid marker lines index blocks behind)
    (checkbox : Option Checkbox) :
    ∃ stop, At marker lines stop behind ∧ LaidItem marker lines start (lineStart stop)
      { info := { lineno := number }, text := shown, checkbox, blocks } := by
  obtain ⟨own, column, middle, hnumber, hkept, hstart, hown, hat, hwritten⟩ := h
  obtain ⟨stop, hstop, hlaid⟩ := hblocks middle hat
  exact ⟨stop, hstop, own, column, middle, stop, hnumber, hkept, hstart, hown, hwritten, hlaid,
    Or.inl (Position.le_refl _)⟩

/-- The description of some terms may stand behind the last of them on its line, on a later line, or
nowhere; then it counts as standing on the line of the last term. -/
theorem DescriptionMade.laid (hprose : Prose marker lines) {run : TermRun} {shown : Option Text}
    (h : DescriptionMade run number shown behind) (hrun : RunLaid marker lines own run) :
    ∃ last, LaidItems marker lines (lineStart own) last run.terms ∧
      TextLaid marker lines last number shown behind := by
  obtain ⟨last, column, text, htext, hkept, hleft, hterms, hlast, hdescription⟩ := hrun
  obtain ⟨hnext, -⟩ := List.getElem?_eq_some_iff.mp htext
  have hrest : At marker lines (last + 1) run.rest := ⟨hleft.symm, hnext⟩
  refine ⟨_, hterms, ?_⟩
  cases h with
  | onTerm given =>
    obtain ⟨hnumber, place, hplace, hlength, hprefix⟩ := hdescription _ _ given
    refine textLaid_itemText hprose hnumber htext hkept hrest ?_ hlength hprefix
    exact Or.inr ⟨rfl, Int.ofNat_le.mpr hplace⟩
  | below here shape =>
    obtain ⟨there, hthere, hcandidate⟩ := hrest.of_significant here
    refine textLaid_of_infix hprose hcandidate ?_ (Text.isInfix_trim _)
      (Position.le_of_line_lt ?_)
    · exact isPassedOver_of_isUnmarked shape
    · rw [lineStart]
      dsimp only
      omega
  | missing term =>
    rw [term] at hlast
    refine ⟨last, column, last + 1, Option.some_inj.mp hlast, ⟨text, htext, hkept⟩,
      Position.le_refl _, Nat.lt_succ_self last, hrest, fun _ hnone ↦ ?_⟩
    cases hnone

/-- An entry is laid out: its terms, and behind them the description if it is kept. -/
theorem exists_laidEntry {terms : List ListItem} {shown : Option Text} (hsome : terms ≠ [])
    (hterms : LaidItems marker lines (lineStart own) start terms)
    (htext : TextLaid marker lines start number shown left)
    (hblocks : ∀ index, At marker lines index left → BlocksLaid marker lines index blocks behind)
    (isKept : Bool) :
    ∃ stop, At marker lines stop behind ∧ LaidEntries marker lines (lineStart own) (lineStart stop)
      [{ terms
         description :=
           if isKept then some { plainItem number shown with blocks } else none }] := by
  obtain ⟨stop, hat, hitem⟩ := htext.item hblocks none
  refine ⟨stop, hat, ?_⟩
  cases isKept with
  | true => exact ⟨_, _, hsome, hterms, hitem, Position.le_refl _⟩
  | false => exact ⟨_, hsome, hterms.mono_stop hitem.le, Position.le_refl _⟩

/-- A list is laid out from its first item on, which is consumed. -/
theorem elementLaid_makeList (hprose : Prose marker lines) {markers : List Text}
    {kind : ListKind} {itemMarker : Text} {checkbox : Option Checkbox} {items : List ListItem}
    (hall : At marker lines own (line :: rest))
    (hshape : line.shape = .listItem kind itemMarker text checkbox)
    (read : ItemsMade marker markers itemMarker (line :: rest) items behind)
    (hitems : ∃ stop, At marker lines stop behind ∧
      LaidItems marker lines (lineStart own) (lineStart stop) items) :
    ElementLaid marker lines own (makeList line.number kind itemMarker items) behind :=
  elementLaid_of_suffix hprose hall (by rw [hshape]; rfl) rfl
    (read.suffix.2 line rest rfl ⟨kind, text, checkbox, hshape⟩) hitems

/-- A description list is laid out from its first term on, which is consumed. -/
theorem elementLaid_descriptionList (hprose : Prose marker lines) {delimiter : Text}
    {onTerm : Option Text} {entries : List DescriptionEntry}
    (hall : At marker lines own (line :: rest))
    (hshape : line.shape = .term text delimiter onTerm)
    (read : EntriesMade marker delimiter (line :: rest) entries behind)
    (hentries : ∃ stop, At marker lines stop behind ∧
      LaidEntries marker lines (lineStart own) (lineStart stop) entries) :
    ElementLaid marker lines own (.descriptionList { lineno := line.number } delimiter entries)
      behind :=
  elementLaid_of_suffix hprose hall (by rw [hshape]; rfl) rfl
    (read.suffix.2 line rest rfl ⟨text, onTerm, hshape⟩) hentries

end Items

mutual

/-- The blocks that are read are laid out one behind the other. -/
theorem BlocksMade.laid (hprose : Prose marker lines) {terminator : Option Text}
    {level : Option Nat} {metadata : Metadata} {all behind : List Line} {blocks : List Element}
    {index : Nat} (h : BlocksMade marker terminator level metadata all blocks behind)
    (hall : At marker lines index all) (hmetadata : metadata.attributes = ∅) :
    BlocksLaid marker lines index blocks behind := by
  match h with
  | .ended => exact ⟨index, hall, Nat.le_refl index⟩
  | .closed _ => exact ⟨index + 1, hall.tail, Nat.le_succ index⟩
  | .left _ => exact ⟨index, hall, Nat.le_refl index⟩
  | .passed passes others =>
    obtain ⟨hwaiting, next, hlt, hat⟩ := passes.laid hprose hall hmetadata
    exact (others.laid hprose hat hwaiting).mono (Nat.le_of_lt hlt)
  | .block _ first others =>
    exact (first.laid hprose hall hmetadata).cons (Nat.le_refl index)
      fun middle hat ↦ others.laid hprose hat rfl
termination_by structural h

theorem BlockMade.laid (hprose : Prose marker lines) {place : Place} {metadata : Metadata}
    {line : Line} {rest behind : List Line} {element : Element} {own : Nat}
    (h : BlockMade marker place metadata line rest element behind)
    (hall : At marker lines own (line :: rest)) (hmetadata : metadata.attributes = ∅) :
    ElementLaid marker lines own element behind := by
  have hprosaic := hall.isProse hprose
  match h with
  | .leaf made => exact made.laid hprose hall hmetadata
  | .opened shape _ _ read =>
    have hkept := kept_of_shape hprose.noReturn hall.eq (by rw [shape]; rfl)
    have hstands := standsIn_of_linesFrom hall.eq
    rw [shape] at hstands
    obtain ⟨stop, hat, hblocks⟩ := read.laid hprose hall.tail rfl
    exact ⟨stop, hblocks.le, hat, hkept, (lineno_attach _ _).trans hall.number,
      exists_written_of_infix hall.eq hkept hstands, hblocks⟩
  | .list shape read =>
    exact (elementLaid_makeList hprose hall shape read (read.laid hprose hall)).attach rfl
  | .descriptionList shape read =>
    exact (elementLaid_descriptionList hprose hall shape read (read.laid hprose hall)).attach rfl
  | .delimited shape _ _ =>
    rw [shape] at hprosaic
    cases hprosaic
  | .table shape _ _ =>
    rw [shape] at hprosaic
    cases hprosaic
termination_by structural h

theorem ItemsMade.laid (hprose : Prose marker lines) {markers : List Text} {itemMarker : Text}
    {all behind : List Line} {items : List ListItem} {index : Nat}
    (h : ItemsMade marker markers itemMarker all items behind) (hall : At marker lines index all) :
    ∃ stop, At marker lines stop behind ∧
      LaidItems marker lines (lineStart index) (lineStart stop) items := by
  match h with
  | .ended _ => exact ⟨index, hall, Position.le_refl _⟩
  | .item here shape attached others =>
    obtain ⟨own, hown, hhere⟩ := hall.of_significant here
    have hstands := standsIn_of_linesFrom hhere.eq
    rw [shape] at hstands
    have htext := textLaid_of_infix hprose hhere (by rw [shape]; rfl) hstands
      (lineStart_le_lineStart.mpr hown)
    obtain ⟨next, hnext, hitem⟩ := htext.item (fun _ hat ↦ attached.laid hprose hat) _
    obtain ⟨stop, hat, hitems⟩ := others.laid hprose hnext
    exact ⟨stop, hat, lineStart next, hitem, hitems⟩
termination_by structural h

/-- What is attached to an item is laid out like other blocks. -/
theorem AttachmentsMade.laid (hprose : Prose marker lines) {markers : List Text}
    {all behind : List Line} {blocks : List Element} {index : Nat}
    (h : AttachmentsMade marker markers all blocks behind) (hall : At marker lines index all) :
    BlocksLaid marker lines index blocks behind := by
  match h with
  | .ended _ => exact ⟨index, hall, Nat.le_refl index⟩
  | .attached _ block others =>
    obtain ⟨middle, hat, hblock⟩ := block.laid hprose hall.tail rfl
    exact (others.laid hprose hat).append (hblock.mono (Nat.le_succ index))
  | .list here shape _ read others =>
    obtain ⟨own, hown, hhere⟩ := hall.of_significant here
    exact (elementLaid_makeList hprose hhere shape read (read.laid hprose hhere)).cons hown
      fun _ hat ↦ others.laid hprose hat
  | .paragraph here shape others =>
    obtain ⟨own, hown, hhere⟩ := hall.of_significant here
    have hpassed := isPassedOver_of_isUnmarked (Line.Shape.isUnmarked_of_isIndented shape)
    exact (elementLaid_paragraph hprose true hhere hpassed (Or.inr rfl)).cons hown
      fun _ hat ↦ others.laid hprose hat
termination_by structural h

theorem AttachedMade.laid (hprose : Prose marker lines) {metadata : Metadata}
    {all behind : List Line} {found : Option Element} {index : Nat}
    (h : AttachedMade marker metadata all found behind) (hall : At marker lines index all)
    (hmetadata : metadata.attributes = ∅) :
    BlocksLaid marker lines index found.toList behind := by
  match h with
  | .ended => exact ⟨index, hall, Nat.le_refl index⟩
  | .passed passes more =>
    obtain ⟨hwaiting, next, hlt, hat⟩ := passes.laid hprose hall hmetadata
    exact (more.laid hprose hat hwaiting).mono (Nat.le_of_lt hlt)
  | .block block =>
    exact (block.laid hprose hall hmetadata).cons (Nat.le_refl index)
      fun middle hat ↦ ⟨middle, hat, Nat.le_refl middle⟩
termination_by structural h

theorem EntriesMade.laid (hprose : Prose marker lines) {delimiter : Text}
    {all behind : List Line} {entries : List DescriptionEntry} {index : Nat}
    (h : EntriesMade marker delimiter all entries behind) (hall : At marker lines index all) :
    ∃ stop, At marker lines stop behind ∧
      LaidEntries marker lines (lineStart index) (lineStart stop) entries := by
  match h with
  | .ended _ => exact ⟨index, hall, Position.le_refl _⟩
  | .entry here shape description attached others =>
    obtain ⟨own, hown, hhere⟩ := hall.of_significant here
    obtain ⟨last, hterms, htext⟩ :=
      description.laid hprose (laid_termRun hprose hhere.eq shape)
    obtain ⟨next, hnext, hentry⟩ := exists_laidEntry (terms_termRun_ne_nil shape _) hterms htext
      (fun _ hat ↦ attached.laid hprose hat) _
    obtain ⟨stop, hat, hentries⟩ := others.laid hprose hnext
    exact ⟨stop, hat,
      LaidEntries.cons (hentry.mono_first (lineStart_le_lineStart.mpr hown)) hentries⟩
termination_by structural h

/-- What is attached to a description is laid out like other blocks. -/
theorem DescriptionAttachmentsMade.laid (hprose : Prose marker lines) {delimiter : Text}
    {all behind : List Line} {blocks : List Element} {index : Nat}
    (h : DescriptionAttachmentsMade marker delimiter all blocks behind)
    (hall : At marker lines index all) : BlocksLaid marker lines index blocks behind := by
  match h with
  | .ended => exact ⟨index, hall, Nat.le_refl index⟩
  | .attached _ block others =>
    obtain ⟨middle, hat, hblock⟩ := block.laid hprose hall.tail rfl
    exact (others.laid hprose hat).append (hblock.mono (Nat.le_succ index))
  | .list here shape read others =>
    obtain ⟨own, hown, hhere⟩ := hall.of_significant here
    exact (elementLaid_makeList hprose hhere shape read (read.laid hprose hhere)).cons hown
      fun _ hat ↦ others.laid hprose hat
  | .descriptionList here shape _ read others =>
    obtain ⟨own, hown, hhere⟩ := hall.of_significant here
    exact (elementLaid_descriptionList hprose hhere shape read (read.laid hprose hhere)).cons
      hown fun _ hat ↦ others.laid hprose hat
termination_by structural h

end

section Documents

variable {text : Text} {document : Document}

/-- A document is laid out: its title on a line of its own, and its blocks behind that. -/
def LaidDocument (marker : Text) (lines : List Text) (document : Document) : Prop :=
  ∃ first stop, stop ≤ lines.length ∧ LaidAll marker lines first stop document.blocks ∧
    ∀ header ∈ document.header, ∃ own column, own < first ∧ header.info.lineno = own + 1 ∧
      Written marker lines own column (own + 1) [header.info.title.getD []]

/-- A preamble is laid out where the blocks in it are. -/
theorem laidAll_wrapPreamble {first stop : Nat} {blocks : List Element} (hasHeader : Bool)
    (h : LaidAll marker lines first stop blocks) :
    LaidAll marker lines first stop (wrapPreamble hasHeader blocks) := by
  rcases wrapPreamble_cases hasHeader blocks with heq | ⟨element, others, sections, rfl, -, heq⟩
  · rwa [heq]
  · obtain ⟨middle, hbefore, hsections⟩ := h.exists_of_append
    obtain ⟨own, next, hfirst, hown, hkept, hlineno, hlaid, hothers⟩ := hbefore
    have hnext := hothers.le
    rw [heq]
    exact ⟨own, middle, hfirst, by omega, hkept, hlineno,
      ⟨own, next, Nat.le_refl _, hown, hkept, hlineno, hlaid, hothers⟩, hsections⟩

/-- Running text makes a document, and that is laid out in it. -/
theorem exists_laidDocument (hprose : Prose marker text.lines) :
    ∃ document, (Document.ofText marker text).1 = .ok document ∧
      LaidDocument marker text.lines document := by
  obtain ⟨document, hdocument⟩ : ∃ document, (Document.ofText marker text).1 = .ok document :=
    exists_document_of_ofText fun line hline separator delimiter hshape ↦ by
      obtain ⟨source, hsource, number, rfl⟩ := exists_of_mem_classifyAll hline
      have hprosaic := hprose.shapes source hsource number
      rw [hshape] at hprosaic
      cases hprosaic
  refine ⟨document, hdocument, ?_⟩
  obtain ⟨head, begun, before, blocks, behind, hbegun, hhead, hblocks, hheader, hwrapped⟩ :=
    exists_blocksMade_of_ofText hdocument
  have hall : At marker text.lines 0 begun.lines := ⟨hbegun.symm, Nat.zero_le _⟩
  -- The blocks are read from the first line on, or from behind the title.
  obtain ⟨first, hat, htitle⟩ : ∃ first, At marker text.lines first before.lines ∧
      ∀ header ∈ document.header, ∃ own column, own < first ∧ header.info.lineno = own + 1 ∧
        Written marker text.lines own column (own + 1) [header.info.title.getD []] := by
    rcases (runs_readHeader begun (E := fun _ ↦ True)).of_eq_ok hhead with
      ⟨rfl, hkept⟩ | ⟨read, line, title, rest, rfl, hsuffix, hshape, hlineno, htitle, hbehind⟩
    · refine ⟨0, hkept ▸ hall, fun header hmem ↦ ?_⟩
      rw [hheader] at hmem
      cases hmem
    · obtain ⟨own, -, hown⟩ := hall.of_suffix hsuffix
      obtain ⟨first, hle, hfirst⟩ := hown.tail.of_suffix hbehind
      refine ⟨first, hfirst, fun header hmem ↦ ?_⟩
      rw [hheader] at hmem
      cases hmem
      have hstands := standsIn_of_linesFrom hown.eq
      rw [hshape] at hstands
      obtain ⟨column, hwritten⟩ := exists_written_of_infix hown.eq
        (kept_of_shape hprose.noReturn hown.eq (by rw [hshape]; rfl)) hstands
      refine ⟨own, column, hle, hlineno.trans hown.number, ?_⟩
      rw [htitle]
      exact hwritten
  obtain ⟨stop, hstop, hlaid⟩ := hblocks.laid hprose hat rfl
  refine ⟨first, stop, hstop.le, ?_, htitle⟩
  rw [hwrapped]
  exact laidAll_wrapPreamble _ hlaid

end Documents

end AsciidocSpans.Blocks
