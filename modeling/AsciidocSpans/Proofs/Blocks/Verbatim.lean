import AsciidocSpans.Proofs.Blocks.Adequacy
import AsciidocSpans.Proofs.Blocks.Layout

/-!
Where the blocks of a body stand. The blocks directly under a document, a preamble or a section are
read one behind the other: each from an opening line and the lines behind it, up to the lines that
it leaves (`StandAll`). Nothing is assumed about the text. What is said of a block is what its
opening line decides about verbatim text (`ReadFrom`): a listing delimiter or a fence opens a
listing of the lines up to the one that closes it (`codeContent?`), a literal delimiter a literal
block of such lines (`literalContent?`), and every other listing is a paragraph, without the comment
lines in it and without white space at the ends of its lines.

`standAll_of_ofText` says so of every document that is made of a text, by induction on the grammar
of blocks (`BlocksMade.stand`).
-/

set_option autoImplicit false
set_option relaxedAutoImplicit false

namespace AsciidocSpans

/-- Whether a line is a comment. -/
def Line.Shape.isComment : Line.Shape → Bool
  | .comment _ => true
  | _ => false

/-- Whether a line opens a block of verbatim text. -/
def Line.Shape.opensVerbatim : Line.Shape → Bool
  | .blockDelimiter .listing _ | .blockDelimiter .literal _ | .fence _ => true
  | _ => false

/-- Whether an element holds the blocks of a body: a section or a preamble. -/
def Element.holdsBody : Element → Bool
  | .titledSection .. => true
  | .container _ .preamble _ => true
  | _ => false

namespace Blocks

/-- The content of the listing or the fenced block that a line opens, given the lines behind it. -/
def codeContent? (opening : Line) (behind : List Line) : Option (List Line) :=
  match opening.shape with
  | .blockDelimiter .listing delimiter =>
    some (contentBefore (· == .blockDelimiter .listing delimiter) behind)
  | .fence _ => some (contentBefore isFence behind)
  | _ => none

/-- The content of the literal block that a line opens, given the lines behind it. -/
def literalContent? (opening : Line) (behind : List Line) : Option (List Line) :=
  match opening.shape with
  | .blockDelimiter .literal delimiter =>
    some (contentBefore (· == .blockDelimiter .literal delimiter) behind)
  | _ => none

/-- Whether a line goes on with the paragraph of a body. -/
def goesOn (shape : Line.Shape) : Bool :=
  shape != .blank && !endsParagraph false shape

/-- The lines of a paragraph behind its first one, with the comment lines among them. -/
def paragraphRun (behind : List Line) : List Line :=
  behind.takeWhile (goesOn ·.shape)

/-- What an opening line and the lines behind it decide about the element that is read from them, up
to the lines that are left. -/
structure ReadFrom (opening : Line) (behind left : List Line) (element : Element) : Prop where
  lineno : element.lineno = opening.number
  code : ∀ content ∈ codeContent? opening behind,
    content.length + left.length ≤ behind.length ∧
      ∃ info language, element = .listing info (content.map (·.input)) language
  literal : ∀ content ∈ literalContent? opening behind,
    content.length + left.length ≤ behind.length ∧
      ∃ info, element = .paragraph info true (content.map (·.input))
  styled : ∀ info lines language, codeContent? opening behind = none →
    element = .listing info lines language →
      (paragraphLines false opening behind) = (lines, left)

mutual

/-- An element of a body stands on a line, up to another line. -/
def Stands (marker : Text) (lines : List Text) (own stop : Nat) : Element → Prop
  | .titledSection info _ blocks =>
    (∃ column, Written marker lines own column (own + 1) [info.title.getD []]) ∧
      StandAll marker lines (own + 1) stop blocks
  | .container _ .preamble blocks => StandAll marker lines own stop blocks
  | element => ∃ opening behind, linesFrom marker lines own = opening :: behind ∧
      ReadFrom opening behind (linesFrom marker lines stop) element

/-- The blocks of a body stand one behind the other, each on the line that its number names. -/
def StandAll (marker : Text) (lines : List Text) (first stop : Nat) : List Element → Prop
  | [] => first ≤ stop
  | element :: rest => ∃ own middle, first ≤ own ∧ own < middle ∧ element.lineno = own + 1 ∧
      Stands marker lines own middle element ∧ StandAll marker lines middle stop rest

end

variable {marker : Text} {lines : List Text}

section Runs

/-- A line that goes on with a paragraph is one of its run, and the run ends before any other
line. -/
theorem paragraphRun_cons (line : Line) (rest : List Line) :
    paragraphRun (line :: rest) = if goesOn line.shape then line :: paragraphRun rest else [] :=
  List.takeWhile_cons

/-- A paragraph is made of the lines that go on with it, without the comments among them. -/
theorem paragraphTail_eq (behind : List Line) :
    paragraphTail false behind =
      (((paragraphRun behind).filter (!·.shape.isComment)).map (Text.trimRight ·.input),
        behind.dropWhile (goesOn ·.shape)) := by
  induction behind with
  | nil => rfl
  | cons line rest ih =>
    rw [paragraphTail, paragraphRun_cons, List.dropWhile_cons]
    split
    · next hshape =>
      rw [hshape]
      rfl
    · next shown hshape =>
      have hgoes : goesOn line.shape = true := by
        rw [hshape]
        rfl
      have hcomment : (!line.shape.isComment) = false := by
        rw [hshape]
        rfl
      rw [ih, hgoes, if_pos rfl, if_pos rfl,
        List.filter_cons_of_neg (by rw [hcomment]; exact Bool.false_ne_true)]
    · next hblank hcomment =>
      have hother : (!line.shape.isComment) = true := by
        cases hshape : line.shape with
        | comment shown => exact absurd hshape (hcomment shown)
        | _ => rfl
      have hgoes : goesOn line.shape = !endsParagraph false line.shape := by
        rw [goesOn, bne_iff_ne.mpr hblank, Bool.true_and]
      rw [hgoes]
      cases endsParagraph false line.shape with
      | true => rfl
      | false =>
        rw [ih, Bool.not_false, if_neg Bool.false_ne_true, if_pos rfl, if_pos rfl, List.filter_cons,
          if_pos hother, List.map_cons]

/-- The run of a paragraph and what is left behind it are the lines behind its first one. -/
theorem length_paragraphRun_add (opening : Line) (behind : List Line) :
    (paragraphRun behind).length + (paragraphLines false opening behind).2.length =
      behind.length := by
  rw [paragraphLines, paragraphTail_eq, paragraphRun, ← List.length_append,
    List.takeWhile_append_dropWhile]

/-- A line that opens no verbatim block has no content behind it. -/
theorem contents_eq_none {opening : Line} (h : opening.shape.opensVerbatim = false)
    (behind : List Line) :
    codeContent? opening behind = none ∧ literalContent? opening behind = none := by
  rw [codeContent?, literalContent?]
  cases hshape : opening.shape with
  | fence =>
    rw [hshape] at h
    cases h
  | blockDelimiter kind delimiter =>
    rw [hshape] at h
    cases kind with
    | listing | literal => cases h
    | _ => exact ⟨rfl, rfl⟩
  | _ => exact ⟨rfl, rfl⟩

/-- The content of a block comes first among the lines behind the opening line. -/
theorem isPrefix_of_codeContent? {opening : Line} {behind content : List Line}
    (h : content ∈ codeContent? opening behind) : content <+: behind := by
  rw [codeContent?] at h
  split at h <;> cases h <;> exact (splitAtClosing_suffix _ behind).2

theorem isPrefix_of_literalContent? {opening : Line} {behind content : List Line}
    (h : content ∈ literalContent? opening behind) : content <+: behind := by
  rw [literalContent?] at h
  split at h <;> cases h
  exact (splitAtClosing_suffix _ behind).2

end Runs

section Elements

variable {opening : Line} {behind left : List Line} {element : Element} {metadata : Metadata}

/-- An element that stands on a line and is neither a listing nor holds the blocks of a body. -/
structure IsOther (number : Int) (element : Element) : Prop where
  lineno : element.lineno = number
  noListing : ∀ info lines language, element ≠ .listing info lines language
  noBody : element.holdsBody = false

theorem holdsBody_attach (metadata : Metadata) (element : Element) :
    (metadata.attach element).holdsBody = element.holdsBody := by
  cases element with
  | container info kind blocks => cases kind <;> rfl
  | _ => rfl

/-- Metadata changes nothing about what an opening line decides. -/
theorem ReadFrom.attach (h : ReadFrom opening behind left element) :
    ReadFrom opening behind left (metadata.attach element) where
  lineno := (lineno_attach metadata element).trans h.lineno
  code := by
    intro content hcontent
    obtain ⟨hlength, info, language, rfl⟩ := h.code content hcontent
    exact ⟨hlength, metadata.applyTo info, language, rfl⟩
  literal := by
    intro content hcontent
    obtain ⟨hlength, info, rfl⟩ := h.literal content hcontent
    exact ⟨hlength, metadata.applyTo info, rfl⟩
  styled := by
    intro info lines language hcode heq
    cases element with
    | listing own others found =>
      cases heq
      exact h.styled own lines language hcode rfl
    | _ => cases heq

/-- An opening line that opens no verbatim block decides nothing about an element but where it
stands, if that is no listing. -/
theorem IsOther.readFrom (h : IsOther opening.number element)
    (hopens : opening.shape.opensVerbatim = false) : ReadFrom opening behind left element where
  lineno := h.lineno
  code := by
    intro content hcontent
    rw [(contents_eq_none hopens behind).1] at hcontent
    cases hcontent
  literal := by
    intro content hcontent
    rw [(contents_eq_none hopens behind).2] at hcontent
    cases hcontent
  styled := fun _ _ _ _ heq ↦ absurd heq (h.noListing _ _ _)

theorem isOther_makeDelimited (number : Int) (kind : DelimitedKind) (blocks : List Element) :
    IsOther number (makeDelimited metadata number kind blocks) := by
  rcases makeDelimited_cases metadata number kind blocks with ⟨_, heq⟩ | ⟨inner, hinner, heq⟩ | heq
  · exact heq ▸ ⟨rfl, nofun, rfl⟩
  · refine heq ▸ ⟨rfl, nofun, ?_⟩
    cases inner with
    | preamble => exact absurd rfl hinner
    | _ => rfl
  · exact heq ▸ ⟨rfl, nofun, rfl⟩

theorem isOther_makeTable (number : Int) (separator : Char) (content : List Line)
    (given : Attributes) (cells : List TableCell) :
    IsOther number (makeTable number separator content given cells) := by
  obtain ⟨_, _, _, _, heq, hnumber, -⟩ := exists_makeTable number separator content given cells
  exact heq ▸ ⟨hnumber, nofun, rfl⟩

theorem IsOther.attach {number : Int} (h : IsOther number element) :
    IsOther number (metadata.attach element) where
  lineno := (lineno_attach metadata element).trans h.lineno
  noListing := by
    intro info lines language heq
    cases element with
    | listing own others found => exact h.noListing own others found rfl
    | _ => cases heq
  noBody := (holdsBody_attach metadata element).trans h.noBody

/-- The lines of a paragraph make a listing, or another element. -/
theorem readFrom_makeParagraph (entries : Attributes) (metadata : Metadata)
    (hopens : opening.shape.opensVerbatim = false) :
    (makeParagraph entries metadata opening (paragraphLines false opening behind).1).holdsBody =
        false ∧
      ReadFrom opening behind (paragraphLines false opening behind).2
        (makeParagraph entries metadata opening (paragraphLines false opening behind).1) := by
  have hother : ∀ element, IsOther opening.number element → element.holdsBody = false ∧
      ReadFrom opening behind (paragraphLines false opening behind).2 element :=
    fun element h ↦ ⟨h.noBody, h.readFrom hopens⟩
  unfold makeParagraph
  dsimp only
  split
  · exact hother _ ⟨rfl, by rintro _ _ _ ⟨⟩, rfl⟩
  · split_ifs
    · refine ⟨rfl, rfl, ?_, ?_, ?_⟩
      · intro content hcontent
        rw [(contents_eq_none hopens behind).1] at hcontent
        cases hcontent
      · intro content hcontent
        rw [(contents_eq_none hopens behind).2] at hcontent
        cases hcontent
      · intro info lines language _ heq
        cases heq
        rfl
    all_goals exact hother _ ⟨rfl, by rintro _ _ _ ⟨⟩, rfl⟩

/-- A listing of the content that its opening line decides on. -/
theorem readFrom_makeListing {behind left content : List Line} {language : Option Text}
    (hcode : codeContent? opening behind = some content)
    (hliteral : literalContent? opening behind = none)
    (hlength : content.length + left.length ≤ behind.length) :
    ReadFrom opening behind left
      (makeListing opening.number (content.map (·.input)) language) where
  lineno := rfl
  code := by
    intro other hother
    rw [hcode] at hother
    cases hother
    exact ⟨hlength, _, language, rfl⟩
  literal := by
    intro other hother
    rw [hliteral] at hother
    cases hother
  styled := by
    intro _ _ _ hnone
    rw [hcode] at hnone
    cases hnone

/-- A literal block of the content that its opening line decides on. -/
theorem readFrom_literal {behind left content : List Line}
    (hcode : codeContent? opening behind = none)
    (hliteral : literalContent? opening behind = some content)
    (hlength : content.length + left.length ≤ behind.length) :
    ReadFrom opening behind left
      (.paragraph { lineno := opening.number } true (content.map (·.input))) where
  lineno := rfl
  code := by
    intro other hother
    rw [hcode] at hother
    cases hother
  literal := by
    intro other hother
    rw [hliteral] at hother
    cases hother
    exact ⟨hlength, _, rfl⟩
  styled := nofun

/-- A line that starts a paragraph opens no verbatim block. -/
theorem opensVerbatim_of_startsParagraph {place : Place} {shape : Line.Shape}
    (h : shape.startsParagraph place) : shape.opensVerbatim = false := by
  cases shape with
  | blockDelimiter | fence => cases h
  | _ => rfl

/-- What an opening line decides about the leaf that is made of it in a body. -/
theorem LeafMade.readFrom (h : LeafMade .body metadata opening behind element left) :
    element.holdsBody = false ∧ ReadFrom opening behind left element := by
  have hother : IsOther opening.number element → opening.shape.opensVerbatim = false →
      element.holdsBody = false ∧ ReadFrom opening behind left element :=
    fun h hopens ↦ ⟨h.noBody, h.readFrom hopens⟩
  cases h with
  | paragraph entries starts =>
    exact readFrom_makeParagraph entries metadata (opensVerbatim_of_startsParagraph starts)
  | listing language shape =>
    exact ⟨rfl, readFrom_makeListing (by rw [codeContent?, shape])
      (by rw [literalContent?, shape]) (length_contentBefore_add_le _ behind)⟩
  | literal shape =>
    exact ⟨rfl, readFrom_literal (by rw [codeContent?, shape]) (by rw [literalContent?, shape])
      (length_contentBefore_add_le _ behind)⟩
  | fenced shape =>
    exact ⟨rfl, readFrom_makeListing (by rw [codeContent?, shape])
      (by rw [literalContent?, shape]) (length_contentBefore_add_le isFence behind)⟩
  | admonition shape | passthrough shape | image _ shape | contents shape | otherMacro shape
  | otherTable shape | floating shape | thematicBreak shape | pageBreak shape =>
    exact hother ⟨rfl, nofun, rfl⟩ (by rw [shape]; rfl)

end Elements

section Bodies

variable {own stop : Nat} {element : Element} {opening line : Line} {behind rest : List Line}

/-- An element that does not hold the blocks of a body stands where its opening line is. -/
theorem stands_of_readFrom (hbody : element.holdsBody = false)
    (hlines : linesFrom marker lines own = opening :: behind)
    (hread : ReadFrom opening behind (linesFrom marker lines stop) element) :
    Stands marker lines own stop element := by
  cases element with
  | titledSection => cases hbody
  | container info kind blocks =>
    cases kind with
    | preamble => cases hbody
    | _ => exact ⟨opening, behind, hlines, hread⟩
  | _ => exact ⟨opening, behind, hlines, hread⟩

theorem StandAll.le {first stop : Nat} {blocks : List Element}
    (h : StandAll marker lines first stop blocks) : first ≤ stop := by
  induction blocks generalizing first with
  | nil => exact h
  | cons element rest ih =>
    obtain ⟨own, middle, hfirst, hown, -, -, hrest⟩ := h
    have hle := ih hrest
    omega

theorem StandAll.mono {first later stop : Nat} {blocks : List Element}
    (h : StandAll marker lines later stop blocks) (hfirst : first ≤ later) :
    StandAll marker lines first stop blocks := by
  cases blocks with
  | nil => exact Nat.le_trans hfirst h
  | cons element rest =>
    obtain ⟨own, middle, hlater, hrest⟩ := h
    exact ⟨own, middle, Nat.le_trans hfirst hlater, hrest⟩

/-- The first blocks end where the other ones begin. -/
theorem StandAll.exists_of_append {first stop : Nat} {blocks others : List Element}
    (h : StandAll marker lines first stop (blocks ++ others)) :
    ∃ middle, StandAll marker lines first middle blocks ∧
      StandAll marker lines middle stop others := by
  induction blocks generalizing first with
  | nil => exact ⟨first, Nat.le_refl first, h⟩
  | cons element rest ih =>
    obtain ⟨own, next, hfirst, hown, hlineno, hstands, hrest⟩ := h
    obtain ⟨middle, hblocks, hothers⟩ := ih hrest
    exact ⟨middle, ⟨own, next, hfirst, hown, hlineno, hstands, hblocks⟩, hothers⟩

/-- An element that is read stands on its opening line, up to the lines that are left. -/
def ElementStands (marker : Text) (lines : List Text) (own : Nat) (element : Element)
    (behind : List Line) : Prop :=
  ∃ stop, own < stop ∧ At marker lines stop behind ∧ element.lineno = own + 1 ∧
    Stands marker lines own stop element

/-- Blocks that are read stand one behind the other, up to the lines that are left. -/
def BlocksStand (marker : Text) (lines : List Text) (first : Nat) (blocks : List Element)
    (behind : List Line) : Prop :=
  ∃ stop, At marker lines stop behind ∧ StandAll marker lines first stop blocks

theorem elementStands_of_readFrom {left : List Line}
    (hall : At marker lines own (opening :: behind)) (hleft : left <:+ behind)
    (hbody : element.holdsBody = false) (hread : ReadFrom opening behind left element) :
    ElementStands marker lines own element left := by
  obtain ⟨stop, hown, hat⟩ := hall.tail.of_suffix hleft
  exact ⟨stop, hown, hat, hread.lineno.trans hall.number,
    stands_of_readFrom hbody hall.eq (hat.eq.symm ▸ hread)⟩

/-- A delimiter that opens no verbatim block decides nothing else. -/
theorem opensVerbatim_of_isVerbatim {kind : DelimitedKind} (h : isVerbatim kind = false)
    (delimiter : Text) : (Line.Shape.blockDelimiter kind delimiter).opensVerbatim = false := by
  cases kind with
  | listing | literal => cases h
  | _ => rfl

mutual

/-- The blocks of a body that are read stand one behind the other. -/
theorem BlocksMade.stand (hmarker : '\r' ∉ marker) {terminator : Option Text}
    {level : Option Nat} {metadata : Metadata} {all left : List Line} {blocks : List Element}
    {index : Nat} (h : BlocksMade marker terminator level metadata all blocks left)
    (hbody : placeIn terminator = .body) (hall : At marker lines index all) :
    BlocksStand marker lines index blocks left := by
  match h with
  | .ended => exact ⟨index, hall, Nat.le_refl index⟩
  | .closed _ => exact ⟨index + 1, hall.tail, Nat.le_succ index⟩
  | .left _ => exact ⟨index, hall, Nat.le_refl index⟩
  | .passed passes others =>
    obtain ⟨next, hle, hat⟩ := hall.of_suffix passes.suffix
    obtain ⟨stop, hstop, hothers⟩ := others.stand hmarker hbody hat
    exact ⟨stop, hstop, hothers.mono hle⟩
  | .block _ first others =>
    obtain ⟨middle, hown, hat, hlineno, hfirst⟩ := first.stands hmarker hbody hall
    obtain ⟨stop, hstop, hothers⟩ := others.stand hmarker hbody hat
    exact ⟨stop, hstop, index, middle, Nat.le_refl index, hown, hlineno, hfirst, hothers⟩
termination_by structural h

/-- A block of a body stands on its opening line, a section on the line of its title with its blocks
behind that. -/
theorem BlockMade.stands (hmarker : '\r' ∉ marker) {place : Place} {metadata : Metadata}
    {opening : Line} {behind left : List Line} {element : Element} {own : Nat}
    (h : BlockMade marker place metadata opening behind element left) (hbody : place = .body)
    (hall : At marker lines own (opening :: behind)) :
    ElementStands marker lines own element left := by
  have hleft := h.suffix
  have hother : ∀ {made : Element}, IsOther opening.number made →
      opening.shape.opensVerbatim = false → ElementStands marker lines own made left :=
    fun hmade hopens ↦ elementStands_of_readFrom hall hleft hmade.noBody (hmade.readFrom hopens)
  match h with
  | .leaf made =>
    subst hbody
    obtain ⟨hholds, hread⟩ := made.readFrom
    exact elementStands_of_readFrom hall hleft ((holdsBody_attach _ _).trans hholds) hread.attach
  | .opened shape _ _ read =>
    have hstands := standsIn_of_linesFrom hall.eq
    rw [shape] at hstands
    have hwritten := exists_written_of_infix hall.eq
      (kept_of_shape hmarker hall.eq (by rw [shape]; rfl)) hstands
    obtain ⟨stop, hat, hblocks⟩ := read.stand hmarker rfl hall.tail
    exact ⟨stop, hblocks.le, hat, (lineno_attach _ _).trans hall.number, hwritten, hblocks⟩
  | .delimited shape holds _ =>
    exact hother (isOther_makeDelimited _ _ _).attach
      (shape ▸ opensVerbatim_of_isVerbatim holds _)
  | .list shape _ => exact hother (IsOther.attach ⟨rfl, nofun, rfl⟩) (by rw [shape]; rfl)
  | .descriptionList shape _ =>
    exact hother (IsOther.attach ⟨rfl, nofun, rfl⟩) (by rw [shape]; rfl)
  | .table shape _ _ => exact hother (isOther_makeTable _ _ _ _ _).attach (by rw [shape]; rfl)
termination_by structural h

end

end Bodies

section Documents

variable {text : Text} {document : Document}

/-- A preamble stands where the blocks in it do. -/
theorem standAll_wrapPreamble {first stop : Nat} {blocks : List Element} (hasHeader : Bool)
    (h : StandAll marker lines first stop blocks) :
    StandAll marker lines first stop (wrapPreamble hasHeader blocks) := by
  rcases wrapPreamble_cases hasHeader blocks with heq | ⟨element, others, sections, rfl, -, heq⟩
  · rwa [heq]
  · obtain ⟨middle, hbefore, hsections⟩ := h.exists_of_append
    obtain ⟨own, next, hle, hown, hlineno, hstands, hothers⟩ := hbefore
    have hnext := hothers.le
    rw [heq]
    exact ⟨own, middle, hle, by omega, hlineno,
      ⟨own, next, Nat.le_refl _, hown, hlineno, hstands, hothers⟩, hsections⟩

/-- The blocks of a document stand one behind the other in the text that it is made of. -/
theorem standAll_of_ofText (hmarker : '\r' ∉ marker)
    (h : (Document.ofText marker text).1 = .ok document) :
    ∃ first stop, stop ≤ text.lines.length ∧
      StandAll marker text.lines first stop document.blocks := by
  obtain ⟨head, begun, before, blocks, behind, hbegun, hhead, hblocks, -, hdocument⟩ :=
    exists_blocksMade_of_ofText h
  have hall : At marker text.lines 0 begun.lines := ⟨hbegun.symm, Nat.zero_le _⟩
  obtain ⟨first, -, hbefore⟩ :=
    hall.of_suffix ((runs_readHeader_suffix (E := fun _ ↦ True) begun).of_eq_ok hhead)
  obtain ⟨stop, hat, hstand⟩ := hblocks.stand hmarker rfl hbefore
  refine ⟨first, stop, hat.le, ?_⟩
  rw [hdocument]
  exact standAll_wrapPreamble _ hstand

end Documents

end Blocks

end AsciidocSpans
