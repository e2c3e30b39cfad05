import AsciidocSpans.Proofs.Blocks.CellReading
import AsciidocSpans.Proofs.Blocks.Gap
import AsciidocSpans.Proofs.Blocks.Making
import AsciidocSpans.Proofs.Blocks.Steps

/-!
The grammar of blocks. Eight relations say which lines make which blocks and which lines are left
behind them: `BlocksMade` for the blocks of a container, `BlockMade` for a single block, `ItemsMade`
and `AttachmentsMade` for lists, `AttachedMade` for the block behind a continuation line,
`EntriesMade` and `DescriptionAttachmentsMade` for description lists, and `CellsMade` for the cells
of a table. A block for which no others are read is a leaf (`LeafMade`). The relations follow the
readers, without the bound on the steps, the document attributes and the log: what the attributes
decide, the language of a listing and the directory of an image, is left open.

Whatever is made leaves a final part of the lines, and a block leaves only lines behind its first
one (`BlocksMade.suffix` and the theorems beside it). A block stands on its first line
(`BlockMade.lineno_eq`).
-/

set_option autoImplicit false
set_option relaxedAutoImplicit false

namespace AsciidocSpans

/-- Whether a line is text without a marker of any kind. -/
def Line.Shape.isUnmarked : Line.Shape → Bool
  | plainText _ | indentedText .. => true
  | _ => false

/-- Whether a line starts a paragraph in a place. A section title does so where no section may
start. -/
def Line.Shape.startsParagraph (place : Blocks.Place) : Line.Shape → Bool
  | listContinuation | plainText _ | indentedText .. => true
  | sectionTitle .. => place != .body
  | _ => false

/-- Text without a marker starts a paragraph wherever it stands. -/
theorem Line.Shape.startsParagraph_of_isUnmarked {shape : Line.Shape} (h : shape.isUnmarked)
    (place : Blocks.Place) : shape.startsParagraph place := by
  cases shape with
  | plainText | indentedText => rfl
  | _ => cases h

theorem Line.Shape.isUnmarked_of_isIndented {shape : Line.Shape} (h : shape.isIndented) :
    shape.isUnmarked := by
  cases shape with
  | indentedText => rfl
  | _ => cases h

/-- Whether an element holds no other element, whatever its kind allows. -/
def Element.isChildless : Element → Bool
  | .paragraph .. | .listing .. | .image .. | .tableOfContents _ | .unhandled .. => true
  | .admonition _ _ _ [] => true
  | _ => false

namespace Blocks

open Text

/-- Whether a kind of block holds verbatim text. -/
def isVerbatim : DelimitedKind → Bool
  | .listing | .literal | .passthrough => true
  | _ => false

/-- The place of the blocks in a container: between its delimiters, or in a body. -/
def placeIn (terminator : Option Text) : Place :=
  if terminator.isNone then .body else .delimited

/-- An element that a line makes in some place without blocks being read for it, and the lines that
are left behind it. -/
inductive LeafMade (place : Place) (metadata : Metadata) (line : Line) (rest : List Line) :
    (element : Element) → (behind : List Line) → Prop
  | paragraph (entries : Attributes) (starts : line.shape.startsParagraph place) :
      LeafMade place metadata line rest
        (makeParagraph entries metadata line (paragraphLines (place == .attached) line rest).1)
        (paragraphLines (place == .attached) line rest).2
  | admonition {style text : Text} (shape : line.shape = .admonition style text) :
      LeafMade place metadata line rest
        (.admonition { lineno := line.number } style
          (text :: (paragraphTail (place == .attached) rest).1) [])
        (paragraphTail (place == .attached) rest).2
  | listing {delimiter : Text} (language : Option Text)
      (shape : line.shape = .blockDelimiter .listing delimiter) :
      LeafMade place metadata line rest
        (makeListing line.number
          ((contentBefore (· == .blockDelimiter .listing delimiter) rest).map (·.input)) language)
        (behindClosing (·.shape == .blockDelimiter .listing delimiter) rest)
  | literal {delimiter : Text} (shape : line.shape = .blockDelimiter .literal delimiter) :
      LeafMade place metadata line rest
        (.paragraph { lineno := line.number } true
          ((contentBefore (· == .blockDelimiter .literal delimiter) rest).map (·.input)))
        (behindClosing (·.shape == .blockDelimiter .literal delimiter) rest)
  | passthrough {delimiter : Text} (shape : line.shape = .blockDelimiter .passthrough delimiter) :
      LeafMade place metadata line rest
        (.unhandled { lineno := line.number } DelimitedKind.passthrough.name)
        (behindClosing (·.shape == .blockDelimiter .passthrough delimiter) rest)
  | fenced {language : Text} (shape : line.shape = .fence language) :
      LeafMade place metadata line rest
        (makeListing line.number ((contentBefore isFence rest).map (·.input))
          (if language.isEmpty then none else some language))
        (behindClosing (isFence ·.shape) rest)
  | image {target body : Text} (directory : Option Text)
      (shape : line.shape = .blockMacro "image".toList target body) :
      LeafMade place metadata line rest (makeImage line.number target body directory) rest
  | contents {target body : Text} (shape : line.shape = .blockMacro "toc".toList target body) :
      LeafMade place metadata line rest (.tableOfContents { lineno := line.number }) rest
  | otherMacro {name target body : Text} (shape : line.shape = .blockMacro name target body)
      (other : name ≠ "image".toList ∧ name ≠ "toc".toList) :
      LeafMade place metadata line rest (.unhandled { lineno := line.number } name) rest
  | otherTable {separator : Char} {delimiter : Text}
      (shape : line.shape = .tableDelimiter separator delimiter)
      (other : ¬(separator = '|' ∨ separator = '!')) :
      LeafMade place metadata line rest (.unhandled { lineno := line.number } "table".toList)
        (behindClosing (fun line ↦ closesTable separator line.shape) rest)
  | floating {marker title : Text} (shape : line.shape = .sectionTitle marker title)
      (inBody : place = .body) (style : floats metadata.style) :
      LeafMade place metadata line rest
        (.unhandled { lineno := line.number } "floating_title".toList) rest
  | thematicBreak (shape : line.shape = .thematicBreak) :
      LeafMade place metadata line rest
        (.unhandled { lineno := line.number } "thematic_break".toList) rest
  | pageBreak (shape : line.shape = .pageBreak) :
      LeafMade place metadata line rest
        (.unhandled { lineno := line.number } "page_break".toList) rest

/-- The metadata that waits behind a line that gives no block, and the lines that are left. -/
inductive Passes (metadata : Metadata) (line : Line) (rest : List Line) :
    Metadata → List Line → Prop
  | line (waits : line.shape.isWaiting) : Passes metadata line rest (metadata.after [line]) rest
  | commentBlock {delimiter : Text} (opens : line.shape = .commentDelimiter delimiter) :
      Passes metadata line rest metadata (behindComment delimiter rest)

/-- The line on which the description behind some terms stands, its text, and the lines that are
left. -/
inductive DescriptionMade (run : TermRun) :
    (number : Int) → (text : Option Text) → (behind : List Line) → Prop
  | onTerm {number : Int} {first : Text} (given : run.description = some (number, first)) :
      DescriptionMade run number (some (itemText first run.rest).1) (itemText first run.rest).2
  | below {candidate : Line} {following : List Line}
      (here : significant run.rest = candidate :: following) (shape : candidate.shape.isUnmarked) :
      DescriptionMade run candidate.number (some (itemText (trim candidate.input) following).1)
        (itemText (trim candidate.input) following).2
  | missing {term : ListItem} (last : run.terms.getLast? = some term) :
      DescriptionMade run term.info.lineno none run.rest

/-- The lines between the opening line of a table and its closing line. -/
def tableContent (separator : Char) (rest : List Line) : List Line :=
  (splitAtClosing (fun line ↦ closesTable separator line.shape) rest).1

/-- The lines behind the closing line of a table. -/
def behindTable (separator : Char) (rest : List Line) : List Line :=
  behindClosing (fun line ↦ closesTable separator line.shape) rest

section Cells

variable (commentMarker : Text)

/-- The document inside a cell has the lines of the cell without the blank ones at its ends. -/
theorem length_cellLines (raw : RawCell) : (cellLines commentMarker raw).length =
    (dropBlankEnd (dropBlankStart raw.lineno raw.lines).2).length := by
  rw [cellLines]
  dsimp only
  rw [length_classifyAll, length_documentLines]

/-- The document inside a cell has no more lines than the content of the table. -/
theorem length_cellLines_le_content {separator : Char} {content : List Line} {raw : RawCell}
    (h : raw ∈ (gatherCells separator content).2) :
    (cellLines commentMarker raw).length ≤ content.length := by
  rw [length_cellLines]
  exact Nat.le_trans (length_dropBlankEnd _) (Nat.le_trans (length_dropBlankStart _ _)
    ((length_of_gatherCells separator content).2 raw h))

end Cells

mutual

/-- Blocks up to the end of the container that they stand in. -/
inductive BlocksMade (commentMarker : Text) : (terminator : Option Text) → (level : Option Nat) →
    (metadata : Metadata) → (lines : List Line) → (blocks : List Element) →
    (behind : List Line) → Prop
  | ended {terminator : Option Text} {level : Option Nat} {metadata : Metadata} :
      BlocksMade commentMarker terminator level metadata [] [] []
  | closed {terminator : Option Text} {level : Option Nat} {metadata : Metadata} {line : Line}
      {rest : List Line} (closes : closesBlock terminator line.shape) :
      BlocksMade commentMarker terminator level metadata (line :: rest) [] rest
  | left {terminator : Option Text} {level : Option Nat} {metadata : Metadata} {line : Line}
      {rest : List Line} (ends : endsSection terminator level line.shape) :
      BlocksMade commentMarker terminator level metadata (line :: rest) [] (line :: rest)
  | passed {terminator : Option Text} {level : Option Nat} {metadata waiting : Metadata}
      {line : Line} {rest middle behind : List Line} {blocks : List Element}
      (passes : Passes metadata line rest waiting middle)
      (others : BlocksMade commentMarker terminator level waiting middle blocks behind) :
      BlocksMade commentMarker terminator level metadata (line :: rest) blocks behind
  | block {terminator : Option Text} {level : Option Nat} {metadata : Metadata} {line : Line}
      {rest middle behind : List Line} {element : Element} {blocks : List Element}
      (goes : endsSection terminator level line.shape = false)
      (first : BlockMade commentMarker (placeIn terminator) metadata line rest element middle)
      (others : BlocksMade commentMarker terminator level .empty middle blocks behind) :
      BlocksMade commentMarker terminator level metadata (line :: rest) (element :: blocks) behind

/-- The block that starts at a line in some place. -/
inductive BlockMade (commentMarker : Text) : (place : Place) → (metadata : Metadata) →
    (line : Line) → (rest : List Line) → (element : Element) → (behind : List Line) → Prop
  | leaf {place : Place} {metadata : Metadata} {line : Line} {rest behind : List Line}
      {element : Element} (made : LeafMade place metadata line rest element behind) :
      BlockMade commentMarker place metadata line rest (metadata.attach element) behind
  | opened {place : Place} {metadata : Metadata} {line : Line} {marker title : Text}
      {rest behind : List Line} {blocks : List Element}
      (shape : line.shape = .sectionTitle marker title) (inBody : place = .body)
      (style : floats metadata.style = false)
      (read : BlocksMade commentMarker none (some (marker.length - 1)) .empty rest blocks
        behind) :
      BlockMade commentMarker place metadata line rest
        (openedSection line metadata marker title blocks) behind
  | delimited {place : Place} {metadata : Metadata} {line : Line} {kind : DelimitedKind}
      {delimiter : Text} {rest behind : List Line} {blocks : List Element}
      (shape : line.shape = .blockDelimiter kind delimiter) (holds : isVerbatim kind = false)
      (read : BlocksMade commentMarker (some delimiter) none .empty rest blocks behind) :
      BlockMade commentMarker place metadata line rest
        (metadata.attach (makeDelimited metadata line.number kind blocks)) behind
  | list {place : Place} {metadata : Metadata} {line : Line} {kind : ListKind}
      {marker text : Text} {checkbox : Option Checkbox} {rest behind : List Line}
      {items : List ListItem} (shape : line.shape = .listItem kind marker text checkbox)
      (read : ItemsMade commentMarker [marker] marker (line :: rest) items behind) :
      BlockMade commentMarker place metadata line rest
        (metadata.attach (makeList line.number kind marker items)) behind
  | descriptionList {place : Place} {metadata : Metadata} {line : Line} {text delimiter : Text}
      {description : Option Text} {rest behind : List Line} {entries : List DescriptionEntry}
      (shape : line.shape = .term text delimiter description)
      (read : EntriesMade commentMarker delimiter (line :: rest) entries behind) :
      BlockMade commentMarker place metadata line rest
        (metadata.attach (.descriptionList { lineno := line.number } delimiter entries)) behind
  | table {place : Place} {metadata : Metadata} {line : Line} {separator : Char}
      {delimiter : Text} {rest : List Line} {cells : List TableCell}
      (shape : line.shape = .tableDelimiter separator delimiter)
      (known : separator = '|' ∨ separator = '!')
      (read : CellsMade commentMarker (gatherCells separator (tableContent separator rest)).2
        cells) :
      BlockMade commentMarker place metadata line rest
        ({ metadata with attributes := ∅ }.attach (makeTable line.number separator
          (tableContent separator rest) metadata.attributes cells))
        (behindTable separator rest)

/-- The items of a list with a marker, given the markers of the lists that are open. -/
inductive ItemsMade (commentMarker : Text) : (markers : List Text) → (marker : Text) →
    (lines : List Line) → (items : List ListItem) → (behind : List Line) → Prop
  | ended {markers : List Text} {marker : Text} {lines : List Line}
      (ends : ∀ line rest, significant lines = line :: rest → ¬IsItem marker line) :
      ItemsMade commentMarker markers marker lines [] lines
  | item {markers : List Text} {marker text : Text} {kind : ListKind} {checkbox : Option Checkbox}
      {line : Line} {lines rest middle behind : List Line} {blocks : List Element}
      {items : List ListItem} (here : significant lines = line :: rest)
      (shape : line.shape = .listItem kind marker text checkbox)
      (attached : AttachmentsMade commentMarker markers (itemTail rest).2 blocks middle)
      (others : ItemsMade commentMarker markers marker middle items behind) :
      ItemsMade commentMarker markers marker lines
        ({ info := { lineno := line.number }, text := some (itemText text rest).1, checkbox,
           blocks } :: items) behind

/-- What is attached to a list item, given the markers of the lists that are open. -/
inductive AttachmentsMade (commentMarker : Text) : (markers : List Text) → (lines : List Line) →
    (blocks : List Element) → (behind : List Line) → Prop
  | ended {markers : List Text} {lines : List Line}
      (ends : ∀ line rest marker, significant lines = line :: rest → IsItem marker line →
        marker ∈ markers) :
      AttachmentsMade commentMarker markers lines [] lines
  | attached {markers : List Text} {line : Line} {rest middle behind : List Line}
      {found : Option Element} {blocks : List Element} (shape : line.shape = .listContinuation)
      (block : AttachedMade commentMarker .empty rest found middle)
      (others : AttachmentsMade commentMarker markers middle blocks behind) :
      AttachmentsMade commentMarker markers (line :: rest) (found.toList ++ blocks) behind
  | list {markers : List Text} {marker text : Text} {kind : ListKind}
      {checkbox : Option Checkbox} {candidate : Line} {lines rest middle behind : List Line}
      {items : List ListItem} {blocks : List Element}
      (here : significant lines = candidate :: rest)
      (shape : candidate.shape = .listItem kind marker text checkbox) (fresh : marker ∉ markers)
      (read : ItemsMade commentMarker (markers ++ [marker]) marker (candidate :: rest) items
        middle)
      (others : AttachmentsMade commentMarker markers middle blocks behind) :
      AttachmentsMade commentMarker markers lines
        (makeList candidate.number kind marker items :: blocks) behind
  | paragraph {markers : List Text} {candidate : Line} {lines rest behind : List Line}
      {blocks : List Element} (here : significant lines = candidate :: rest)
      (shape : candidate.shape.isIndented)
      (others : AttachmentsMade commentMarker markers (paragraphLines true candidate rest).2 blocks
        behind) :
      AttachmentsMade commentMarker markers lines
        (.paragraph { lineno := candidate.number } true
          (dedent (paragraphLines true candidate rest).1) :: blocks) behind

/-- The block behind a continuation line; none if the input ends before one. -/
inductive AttachedMade (commentMarker : Text) : (metadata : Metadata) → (lines : List Line) →
    (found : Option Element) → (behind : List Line) → Prop
  | ended {metadata : Metadata} : AttachedMade commentMarker metadata [] none []
  | passed {metadata waiting : Metadata} {line : Line} {rest middle behind : List Line}
      {found : Option Element} (passes : Passes metadata line rest waiting middle)
      (more : AttachedMade commentMarker waiting middle found behind) :
      AttachedMade commentMarker metadata (line :: rest) found behind
  | block {metadata : Metadata} {line : Line} {rest behind : List Line} {element : Element}
      (block : BlockMade commentMarker .attached metadata line rest element behind) :
      AttachedMade commentMarker metadata (line :: rest) (some element) behind

/-- The entries of a description list with a delimiter. -/
inductive EntriesMade (commentMarker : Text) : (delimiter : Text) → (lines : List Line) →
    (entries : List DescriptionEntry) → (behind : List Line) → Prop
  | ended {delimiter : Text} {lines : List Line}
      (ends : ∀ line rest, significant lines = line :: rest → ¬IsTerm delimiter line) :
      EntriesMade commentMarker delimiter lines [] lines
  | entry {delimiter term : Text} {onTerm text : Option Text} {line : Line} {number : Int}
      {lines rest left middle behind : List Line} {blocks : List Element} {isKept : Bool}
      {entries : List DescriptionEntry} (here : significant lines = line :: rest)
      (shape : line.shape = .term term delimiter onTerm)
      (description : DescriptionMade (termRun delimiter (line :: rest)) number text left)
      (attached : DescriptionAttachmentsMade commentMarker delimiter left blocks middle)
      (others : EntriesMade commentMarker delimiter middle entries behind) :
      EntriesMade commentMarker delimiter lines
        ({ terms := (termRun delimiter (line :: rest)).terms,
           description := if isKept then some { plainItem number text with blocks } else none } ::
          entries) behind

/-- What is attached to a description. -/
inductive DescriptionAttachmentsMade (commentMarker : Text) : (delimiter : Text) →
    (lines : List Line) → (blocks : List Element) → (behind : List Line) → Prop
  | ended {delimiter : Text} {lines : List Line} :
      DescriptionAttachmentsMade commentMarker delimiter lines [] lines
  | attached {delimiter : Text} {line : Line} {rest middle behind : List Line}
      {found : Option Element} {blocks : List Element} (shape : line.shape = .listContinuation)
      (block : AttachedMade commentMarker .empty rest found middle)
      (others : DescriptionAttachmentsMade commentMarker delimiter middle blocks behind) :
      DescriptionAttachmentsMade commentMarker delimiter (line :: rest) (found.toList ++ blocks)
        behind
  | list {delimiter marker text : Text} {kind : ListKind} {checkbox : Option Checkbox}
      {candidate : Line} {lines rest middle behind : List Line} {items : List ListItem}
      {blocks : List Element} (here : significant lines = candidate :: rest)
      (shape : candidate.shape = .listItem kind marker text checkbox)
      (read : ItemsMade commentMarker [marker] marker (candidate :: rest) items middle)
      (others : DescriptionAttachmentsMade commentMarker delimiter middle blocks behind) :
      DescriptionAttachmentsMade commentMarker delimiter lines
        (makeList candidate.number kind marker items :: blocks) behind
  | descriptionList {delimiter found term : Text} {onTerm : Option Text} {candidate : Line}
      {lines rest middle behind : List Line} {entries : List DescriptionEntry}
      {blocks : List Element} (here : significant lines = candidate :: rest)
      (shape : candidate.shape = .term term found onTerm)
      (longer : delimiter.length < found.length)
      (read : EntriesMade commentMarker found (candidate :: rest) entries middle)
      (others : DescriptionAttachmentsMade commentMarker delimiter middle blocks behind) :
      DescriptionAttachmentsMade commentMarker delimiter lines
        (.descriptionList { lineno := candidate.number } found entries :: blocks) behind

/-- The cells that stand in the source for them, in order. -/
inductive CellsMade (commentMarker : Text) : (raws : List RawCell) → (cells : List TableCell) →
    Prop
  | nil : CellsMade commentMarker [] []
  | plain {raw : RawCell} {raws : List RawCell} {cell : TableCell} {cells : List TableCell}
      (cellOf : CellOf commentMarker raw cell) (plain : cell.inner = none)
      (others : CellsMade commentMarker raws cells) :
      CellsMade commentMarker (raw :: raws) (cell :: cells)
  | document {raw : RawCell} {raws : List RawCell} {cell : TableCell} {cells : List TableCell}
      {info : ElementInfo} {blocks : List Element} {behind : List Line}
      (cellOf : CellOf commentMarker raw cell)
      (inner : cell.inner = some { info, header := none, blocks })
      (innerStands : info.lineno = cell.info.lineno)
      (read : BlocksMade commentMarker none none .empty (cellLines commentMarker raw) blocks
        behind)
      (others : CellsMade commentMarker raws cells) :
      CellsMade commentMarker (raw :: raws) (cell :: cells)

end

section Lists

variable {commentMarker marker delimiter : Text} {markers : List Text} {line : Line}
  {rest behind : List Line}

/-- Where a line is an item of a list, the list has an item. -/
theorem ItemsMade.ne_nil {items : List ListItem}
    (h : ItemsMade commentMarker markers marker (line :: rest) items behind)
    (hline : IsItem marker line) : items ≠ [] := by
  cases h with
  | ended ends => exact absurd hline (ends line rest (hline.significant rest))
  | item => exact List.cons_ne_nil _ _

/-- Where a line is a term of a description list, the list has an entry with a term. -/
theorem EntriesMade.exists_term {entries : List DescriptionEntry}
    (h : EntriesMade commentMarker delimiter (line :: rest) entries behind)
    (hline : IsTerm delimiter line) :
    ∃ first others, entries = first :: others ∧ first.terms ≠ [] := by
  cases h with
  | ended ends => exact absurd hline (ends line rest (hline.significant rest))
  | entry here shape => exact ⟨_, _, rfl, terms_termRun_ne_nil shape _⟩

end Lists

/-- The blocks that are attached to the terms and the descriptions of some entries. -/
def blocksOfEntries (entries : List DescriptionEntry) : List Element :=
  entries.flatMap fun entry ↦ (entry.terms ++ entry.description.toList).flatMap (·.blocks)

/-- What is attached to an entry is attached to its description. -/
theorem forall_mem_blocksOfEntries {P : Element → Prop} {terms : List ListItem}
    {blocks : List Element} {entries : List DescriptionEntry}
    (hterms : ∀ term ∈ terms, term.blocks = []) (h : ∀ block ∈ blocks, P block)
    (hothers : ∀ block ∈ blocksOfEntries entries, P block) (number : Int) (text : Option Text)
    (isKept : Bool) :
    ∀ block ∈ blocksOfEntries ({
      terms
      description := if isKept then some { plainItem number text with blocks } else none } ::
        entries), P block := by
  intro block hblock
  rw [blocksOfEntries, List.flatMap_cons] at hblock
  rcases List.mem_append.mp hblock with hfirst | hrest
  · obtain ⟨item, hitem, hmem⟩ := List.mem_flatMap.mp hfirst
    rcases List.mem_append.mp hitem with hterm | hdescription
    · rw [hterms item hterm] at hmem
      cases hmem
    · cases isKept with
      | false => cases hdescription
      | true =>
        cases List.mem_singleton.mp hdescription
        exact h block hmem
  · exact hothers block hrest

/-! ### Lines that are left -/

section Suffix

variable {commentMarker : Text} {metadata : Metadata} {line : Line} {lines rest behind : List Line}

theorem LeafMade.suffix {place : Place} {element : Element}
    (h : LeafMade place metadata line rest element behind) : behind <:+ rest := by
  cases h with
  | paragraph => exact paragraphLines_suffix _ line rest
  | admonition => exact paragraphTail_suffix _ rest
  | listing | literal | passthrough | fenced | otherTable =>
    exact (splitAtClosing_suffix _ rest).1
  | image | contents | otherMacro | floating | thematicBreak | pageBreak => exact List.suffix_rfl

theorem Passes.suffix {waiting : Metadata} (h : Passes metadata line rest waiting behind) :
    behind <:+ line :: rest := by
  cases h with
  | line => exact List.suffix_cons line rest
  | commentBlock => exact (splitAtClosing_suffix _ rest).1.trans (List.suffix_cons line rest)

theorem DescriptionMade.suffix {run : TermRun} {number : Int} {text : Option Text}
    (h : DescriptionMade run number text behind) : behind <:+ run.rest := by
  cases h with
  | onTerm => exact itemText_suffix _ _
  | below here =>
    exact (itemText_suffix _ _).trans ((List.suffix_cons _ _).trans (here ▸ significant_suffix _))
  | missing => exact List.suffix_rfl

/-- What is left behind the first line that matters is left of the lines. -/
theorem suffix_of_significant (here : significant lines = line :: rest) (h : behind <:+ rest) :
    behind <:+ lines :=
  h.trans ((List.suffix_cons line rest).trans (here ▸ significant_suffix lines))

mutual

theorem BlocksMade.suffix {terminator : Option Text} {level : Option Nat} {metadata : Metadata}
    {lines behind : List Line} {blocks : List Element}
    (h : BlocksMade commentMarker terminator level metadata lines blocks behind) :
    behind <:+ lines := by
  match h with
  | .ended => exact List.suffix_rfl
  | .closed _ => exact List.suffix_cons _ _
  | .left _ => exact List.suffix_rfl
  | .passed passes others => exact others.suffix.trans passes.suffix
  | .block _ first others =>
    exact (others.suffix.trans first.suffix).trans (List.suffix_cons _ _)
termination_by structural h

theorem BlockMade.suffix {place : Place} {metadata : Metadata} {line : Line}
    {rest behind : List Line} {element : Element}
    (h : BlockMade commentMarker place metadata line rest element behind) : behind <:+ rest := by
  match h with
  | .leaf made => exact made.suffix
  | .opened _ _ _ read => exact read.suffix
  | .delimited _ _ read => exact read.suffix
  | .list shape read => exact (read.suffix).2 _ _ rfl ⟨_, _, _, shape⟩
  | .descriptionList shape read => exact (read.suffix).2 _ _ rfl ⟨_, _, shape⟩
  | .table _ _ _ => exact (splitAtClosing_suffix _ _).1
termination_by structural h

/-- Items leave only lines behind the first one if that is one of them. -/
theorem ItemsMade.suffix {markers : List Text} {marker : Text} {lines behind : List Line}
    {items : List ListItem} (h : ItemsMade commentMarker markers marker lines items behind) :
    behind <:+ lines ∧ ∀ line rest, lines = line :: rest → IsItem marker line →
      behind <:+ rest := by
  match h with
  | .ended ends =>
    refine ⟨List.suffix_rfl, fun line rest hlines hline ↦ ?_⟩
    exact absurd hline (ends line rest (hlines ▸ hline.significant rest))
  | .item here _ attached others =>
    have hrest := others.suffix.1.trans (attached.suffix.trans (itemTail_suffix _))
    refine ⟨suffix_of_significant here hrest, fun line rest hlines hline ↦ ?_⟩
    rw [hlines, hline.significant] at here
    cases here
    exact hrest
termination_by structural h

theorem AttachmentsMade.suffix {markers : List Text} {lines behind : List Line}
    {blocks : List Element} (h : AttachmentsMade commentMarker markers lines blocks behind) :
    behind <:+ lines := by
  match h with
  | .ended _ => exact List.suffix_rfl
  | .attached _ block others =>
    exact (others.suffix.trans block.suffix).trans (List.suffix_cons _ _)
  | .list here _ _ read others =>
    exact (others.suffix.trans read.suffix.1).trans (here ▸ significant_suffix _)
  | .paragraph here _ others =>
    exact suffix_of_significant here (others.suffix.trans (paragraphLines_suffix true _ _))
termination_by structural h

theorem AttachedMade.suffix {metadata : Metadata} {lines behind : List Line}
    {found : Option Element} (h : AttachedMade commentMarker metadata lines found behind) :
    behind <:+ lines := by
  match h with
  | .ended => exact List.suffix_rfl
  | .passed passes more => exact more.suffix.trans passes.suffix
  | .block block => exact block.suffix.trans (List.suffix_cons _ _)
termination_by structural h

/-- Entries leave only lines behind the first one if that is a term of the list. -/
theorem EntriesMade.suffix {delimiter : Text} {lines behind : List Line}
    {entries : List DescriptionEntry}
    (h : EntriesMade commentMarker delimiter lines entries behind) :
    behind <:+ lines ∧ ∀ line rest, lines = line :: rest → IsTerm delimiter line →
      behind <:+ rest := by
  match h with
  | .ended ends =>
    refine ⟨List.suffix_rfl, fun line rest hlines hline ↦ ?_⟩
    exact absurd hline (ends line rest (hlines ▸ hline.significant rest))
  | .entry here shape description attached others =>
    have hrest := others.suffix.1.trans (attached.suffix.trans
      (description.suffix.trans (termRun_suffix_of_term shape _)))
    refine ⟨suffix_of_significant here hrest, fun line rest hlines hline ↦ ?_⟩
    rw [hlines, hline.significant] at here
    cases here
    exact hrest
termination_by structural h

theorem DescriptionAttachmentsMade.suffix {delimiter : Text} {lines behind : List Line}
    {blocks : List Element}
    (h : DescriptionAttachmentsMade commentMarker delimiter lines blocks behind) :
    behind <:+ lines := by
  match h with
  | .ended => exact List.suffix_rfl
  | .attached _ block others =>
    exact (others.suffix.trans block.suffix).trans (List.suffix_cons _ _)
  | .list here _ read others =>
    exact (others.suffix.trans read.suffix.1).trans (here ▸ significant_suffix _)
  | .descriptionList here _ _ read others =>
    exact (others.suffix.trans read.suffix.1).trans (here ▸ significant_suffix _)
termination_by structural h

end

end Suffix

/-! ### Leaves -/

/-- An element that a line makes without blocks being read for it: it holds nothing, or it is the
quote that a style makes of a paragraph. -/
inductive IsLeaf (number : Int) : Element → Prop
  | childless {element : Element} (stands : element.lineno = number)
      (childless : element.isChildless) : IsLeaf number element
  | quoted {info : ElementInfo} {lines : List Text} (stands : info.lineno = number) :
      IsLeaf number (.container info .quote [.paragraph { lineno := number } false lines])

section Leaves

variable {metadata : Metadata} {line : Line} {rest behind : List Line} {element : Element}

theorem isLeaf_makeParagraph (entries : Attributes) (metadata : Metadata) (first : Line)
    (lines : List Text) : IsLeaf first.number (makeParagraph entries metadata first lines) := by
  unfold makeParagraph
  dsimp only
  split
  · exact .childless rfl rfl
  · split_ifs
    · exact .childless rfl rfl
    · exact .quoted rfl
    · exact .childless rfl rfl
    · exact .childless rfl rfl
    · exact .childless rfl rfl
    · exact .childless rfl rfl

theorem LeafMade.isLeaf {place : Place} (h : LeafMade place metadata line rest element behind) :
    IsLeaf line.number element := by
  cases h with
  | paragraph => exact isLeaf_makeParagraph _ _ _ _
  | _ => exact .childless rfl rfl

end Leaves

/-! ### Where blocks stand -/

section Stands

variable {commentMarker : Text}

theorem Passes.gap {metadata waiting : Metadata} {line : Line}
    {rest middle given behind : List Line}
    (h : Passes metadata line rest waiting middle) (hgap : Gap middle given behind) :
    ∃ more, Gap (line :: rest) more behind := by
  cases h with
  | line waits => exact ⟨_, .line waits hgap⟩
  | commentBlock opens => exact ⟨_, .commentBlock opens hgap⟩

/-- A block stands on its first line. -/
theorem BlockMade.lineno_eq {place : Place} {metadata : Metadata} {line : Line}
    {rest behind : List Line} {element : Element}
    (h : BlockMade commentMarker place metadata line rest element behind) :
    element.lineno = line.number := by
  cases h with
  | leaf made =>
    rw [lineno_attach]
    cases made.isLeaf with
    | childless stands => exact stands
    | quoted stands => exact stands
  | opened => exact lineno_attach _ _
  | delimited =>
    rw [lineno_attach]
    rcases makeDelimited_cases metadata line.number _ _ with ⟨_, heq⟩ | ⟨_, -, heq⟩ | heq <;>
      rw [heq] <;> rfl
  | list => exact lineno_attach _ _
  | descriptionList => exact lineno_attach _ _
  | table =>
    obtain ⟨_, _, _, _, heq, hnumber, -⟩ := exists_makeTable line.number _ _ metadata.attributes _
    rw [lineno_attach, heq]
    exact hnumber

/-- The block behind a continuation line stands behind a gap. -/
theorem AttachedMade.gap {metadata : Metadata} {lines behind : List Line} {found : Option Element}
    (h : AttachedMade commentMarker metadata lines found behind) :
    ∀ element ∈ found, ∃ (line : Line) (given rest : List Line), Gap lines given (line :: rest) ∧
      line.number = element.lineno := by
  match h with
  | .ended =>
    intro _ hnone
    cases hnone
  | .passed passes more =>
    intro element helement
    obtain ⟨line, given, rest, hgap, hline⟩ := more.gap element helement
    obtain ⟨widened, hwidened⟩ := passes.gap hgap
    exact ⟨line, widened, rest, hwidened, hline⟩
  | .block made =>
    intro _ helement
    cases helement
    exact ⟨_, _, _, .nil _, made.lineno_eq.symm⟩
termination_by structural h

end Stands

end Blocks

end AsciidocSpans
