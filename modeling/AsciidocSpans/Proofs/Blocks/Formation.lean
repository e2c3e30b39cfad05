import AsciidocSpans.Proofs.Blocks.Adequacy
import AsciidocSpans.Proofs.Blocks.Origin
import Mathlib.Tactic.SplitIfs

/-!
How elements are made of lines. Every element is made at a line by the metadata that waits there,
which is what the lines of a gap above gave (`Waits`), and by what the line captures; `Formed` says
so of each kind of element whose making matters: sections, images, admonitions, lists with their
items (`ItemFormed`), and tables. As in `Origin`, what is known of the lines is a property that
reading keeps.

An element is `Placed` if it is made in this way and stands on one of the lines.
`BlocksMade.placed` and the theorems beside it say so of the whole grammar of blocks, by induction
on what was read, and `placed_of_ofText` says so of all elements of a document. What else is to be
said of all elements that are read follows from how they are made (`formed_of_ofText`,
`origin_of_ofText`).
-/

set_option autoImplicit false
set_option relaxedAutoImplicit false

namespace AsciidocSpans

/-- Whether an element is of a kind about whose making nothing is said. -/
def Element.isPlain : Element → Bool
  | .paragraph .. | .listing .. | .container .. | .tableOfContents _ | .unhandled .. => true
  | _ => false

namespace Blocks

open Element Text

variable {commentMarker : Text} {I : List Line → Prop}

/-! ### Metadata that waits -/

/-- Metadata waits before some lines: it is what the lines of a gap gave that ends there. -/
def Waits (I : List Line → Prop) (metadata : Metadata) (lines : List Line) : Prop :=
  ∃ all given, I all ∧ Gap all given lines ∧ metadata = Metadata.empty.after given

section Waits

variable {line : Line} {all given lines rest : List Line} {metadata : Metadata}

theorem Gap.suffix (h : Gap all given rest) : rest <:+ all := by
  induction h with
  | nil => exact List.suffix_rfl
  | line _ _ ih => exact ih.trans (List.suffix_cons _ _)
  | commentBlock _ _ ih =>
    exact (ih.trans (splitAtClosing_suffix _ _).1).trans (List.suffix_cons _ _)

/-- A gap may end with a line that gives no block. -/
theorem Gap.snoc (h : Gap all given (line :: rest)) (hwaits : line.shape.isWaiting) :
    Gap all (given ++ [line]) rest := by
  generalize hlines : line :: rest = lines at h
  induction h with
  | nil =>
    subst hlines
    exact .line hwaits (.nil rest)
  | line waits _ ih => exact .line waits (ih hlines)
  | commentBlock opens _ ih => exact .commentBlock opens (ih hlines)

/-- A gap may end with a comment block. -/
theorem Gap.snocComment {delimiter : Text} (h : Gap all given (line :: rest))
    (hshape : line.shape = .commentDelimiter delimiter) :
    Gap all given (behindComment delimiter rest) := by
  generalize hlines : line :: rest = lines at h
  induction h with
  | nil =>
    subst hlines
    exact .commentBlock hshape (.nil _)
  | line waits _ ih => exact .line waits (ih hlines)
  | commentBlock opens _ ih => exact .commentBlock opens (ih hlines)

theorem waits_empty (h : I lines) : Waits I .empty lines :=
  ⟨lines, [], h, .nil lines, rfl⟩

theorem Waits.here (hI : Lasting commentMarker I) (h : Waits I metadata lines) : I lines := by
  obtain ⟨all, given, hall, hgap, -⟩ := h
  exact hI.suffix hgap.suffix hall

theorem Waits.stands (hI : Lasting commentMarker I) (h : Waits I metadata (line :: rest)) :
    StandsOn I line.number :=
  ⟨line, rest, h.here hI, rfl⟩

/-- Metadata waits on behind what gives no block, with what a metadata line gives. -/
theorem Waits.passes {waiting : Metadata} {middle : List Line}
    (h : Waits I metadata (line :: rest)) (hpasses : Passes metadata line rest waiting middle) :
    Waits I waiting middle := by
  obtain ⟨all, given, hall, hgap, rfl⟩ := h
  cases hpasses with
  | line waits =>
    exact ⟨all, given ++ [line], hall, hgap.snoc waits, (Metadata.after_append _ _ _).symm⟩
  | commentBlock opens => exact ⟨all, given, hall, hgap.snocComment opens, rfl⟩

end Waits

/-! ### Elements and the lines that make them -/

/-- An item is made of the text that its first line captures and of the lines that go on with it:
an item of a marked list, a term, a description on the line of a term or on a line of its own. A
description may also have no text. -/
inductive ItemFormed (I : List Line → Prop) : ListItem → Prop
  | marked {line : Line} {rest : List Line} {kind : ListKind} {marker first : Text}
      {checkbox : Option Checkbox} {blocks : List Element} (here : I (line :: rest))
      (shape : line.shape = .listItem kind marker first checkbox) :
      ItemFormed I { info := { lineno := line.number }, text := some (itemText first rest).1,
                     checkbox, blocks }
  | term {line : Line} {rest : List Line} {text delimiter : Text} {onTerm : Option Text}
      (here : I (line :: rest)) (shape : line.shape = .term text delimiter onTerm) :
      ItemFormed I (plainItem line.number (some text))
  | onTerm {line : Line} {rest : List Line} {text delimiter first : Text} {blocks : List Element}
      (here : I (line :: rest)) (shape : line.shape = .term text delimiter (some first)) :
      ItemFormed I { plainItem line.number (some (itemText first rest).1) with blocks }
  | below {line : Line} {rest : List Line} {blocks : List Element} (here : I (line :: rest))
      (shape : line.shape.isUnmarked) :
      ItemFormed I
        { plainItem line.number (some (itemText (trim line.input) rest).1) with blocks }
  | textless {number : Int} {blocks : List Element} :
      ItemFormed I { plainItem number none with blocks }

/-- An element is made at a line, by the metadata that waits there and by what the line captures. -/
inductive Formed (commentMarker : Text) (I : List Line → Prop) : Element → Prop
  | plain {element : Element} (isPlain : element.isPlain) : Formed commentMarker I element
  | opened {metadata : Metadata} {line : Line} {rest : List Line} {marker title : Text}
      {blocks : List Element} (waits : Waits I metadata (line :: rest))
      (shape : line.shape = .sectionTitle marker title) :
      Formed commentMarker I (openedSection line metadata marker title blocks)
  | image {metadata : Metadata} {line : Line} {rest : List Line} {target body : Text}
      {directory : Option Text} (waits : Waits I metadata (line :: rest))
      (shape : line.shape = .blockMacro "image".toList target body) :
      Formed commentMarker I (metadata.attach (makeImage line.number target body directory))
  | labelled {metadata : Metadata} {line : Line} {rest : List Line} {style text : Text}
      {attached : Bool} (waits : Waits I metadata (line :: rest))
      (shape : line.shape = .admonition style text) :
      Formed commentMarker I (metadata.attach (.admonition { lineno := line.number } style
        (text :: (paragraphTail attached rest).1) []))
  | styled {metadata : Metadata} {line : Line} {rest : List Line} {style : Text}
      {lines : List Text} (waits : Waits I metadata (line :: rest))
      (shape : ∀ style text, line.shape ≠ .admonition style text) :
      Formed commentMarker I
        (metadata.attach (.admonition { lineno := line.number } style (lines.map trim) []))
  | delimited {info : ElementInfo} {style : Text} {blocks : List Element} :
      Formed commentMarker I (.admonition info style [] blocks)
  | list {info : ElementInfo} {kind : ListKind} {marker : Text} {items : List ListItem}
      (formed : ∀ item ∈ items, ItemFormed I item) :
      Formed commentMarker I (.list info kind marker items)
  | descriptionList {info : ElementInfo} {delimiter : Text} {entries : List DescriptionEntry}
      (formed : ∀ entry ∈ entries, ∀ item ∈ entry.terms ++ entry.description.toList,
        ItemFormed I item) : Formed commentMarker I (.descriptionList info delimiter entries)
  | table {metadata : Metadata} {line : Line} {rest content : List Line} {separator : Char}
      {delimiter : Text} {cells : List TableCell} {info : ElementInfo} {columns : Nat}
      {headRows bodyRows : List (List TableCell)} (waits : Waits I metadata (line :: rest))
      (shape : line.shape = .tableDelimiter separator delimiter) (within : content <+: rest)
      (read : List.Forall₂ (CellOf commentMarker) (gatherCells separator content).2 cells)
      (made : { metadata with attributes := ∅ }.attach
        (makeTable line.number separator content metadata.attributes cells) =
          .table info columns headRows bodyRows)
      (known : separator = '|' ∨ separator = '!')
      (closed : content = (splitAtClosing (fun line ↦ closesTable separator line.shape) rest).1) :
      Formed commentMarker I (.table info columns headRows bodyRows)

/-- Every table is made at its delimiter, of the cells that are read from the lines behind it. -/
theorem Formed.table_cases {info : ElementInfo} {columns : Nat}
    {headRows bodyRows : List (List TableCell)}
    (h : Formed commentMarker I (.table info columns headRows bodyRows)) :
    ∃ metadata line rest content separator delimiter cells,
      Waits I metadata (line :: rest) ∧ line.shape = .tableDelimiter separator delimiter ∧
      content <+: rest ∧
      List.Forall₂ (CellOf commentMarker) (gatherCells separator content).2 cells ∧
      { metadata with attributes := ∅ }.attach
        (makeTable line.number separator content metadata.attributes cells) =
          .table info columns headRows bodyRows ∧
      (separator = '|' ∨ separator = '!') ∧
      content = (splitAtClosing (fun line ↦ closesTable separator line.shape) rest).1 := by
  generalize helement : Element.table info columns headRows bodyRows = element at h
  cases h with
  | table waits shape within read made known closed =>
    cases helement
    exact ⟨_, _, _, _, _, _, _, waits, shape, within, read, made, known, closed⟩
  | plain isPlain =>
    subst helement
    cases isPlain
  | _ => cases helement

/-- An element is made at a line, and it stands on a line. -/
structure Placed (commentMarker : Text) (I : List Line → Prop) (element : Element) : Prop where
  formed : Formed commentMarker I element
  stands : StandsOn I element.lineno

section Elements

variable {element : Element} {metadata : Metadata} {line : Line} {rest : List Line}

/-- The rows of a table that is made are those of its cells. -/
theorem Placed.origin (hI : Lasting commentMarker I) (h : Placed commentMarker I element) :
    Origin commentMarker I element where
  stands := h.stands
  rows := by
    rintro info columns headRows bodyRows rfl
    obtain ⟨metadata, line, rest, content, separator, delimiter, cells, waits, -, within, read,
      made, -⟩ := h.formed.table_cases
    obtain ⟨own, _, _, _, hmade, hnumber, -, -, hrows, -⟩ :=
      exists_makeTable line.number separator content metadata.attributes cells
    rw [hmade] at made
    cases made
    rw [hrows, flatten_groupRows, List.nil_append]
    exact ⟨⟨separator, line, rest, content, waits.here hI, hnumber, within, read⟩,
      ne_nil_of_mem_groupRows⟩

/-- An element without parts that is made at a line. -/
theorem everywhere_placed (h : Formed commentMarker I element) (hstands : StandsOn I element.lineno)
    (hparts : element.parts = []) : element.Everywhere (Placed commentMarker I) := by
  refine everywhere_of_parts ⟨h, hstands⟩ ?_
  rw [hparts]
  exact allEverywhere_nil

theorem everywhere_plain (h : element.isPlain) (hstands : StandsOn I element.lineno)
    (hparts : element.parts = []) : element.Everywhere (Placed commentMarker I) :=
  everywhere_placed (.plain h) hstands hparts

theorem placed_makeParagraph (hI : Lasting commentMarker I) {entries : Attributes}
    {lines : List Text} (hwaits : Waits I metadata (line :: rest))
    (hshape : ∀ style text, line.shape ≠ .admonition style text) :
    (metadata.attach (makeParagraph entries metadata line lines)).Everywhere
      (Placed commentMarker I) := by
  have hstands : StandsOn I line.number := hwaits.stands hI
  unfold makeParagraph
  dsimp only
  split
  · exact everywhere_placed (.styled hwaits hshape) hstands rfl
  · split_ifs
    · exact everywhere_plain rfl hstands rfl
    · exact everywhere_of_parts ⟨.plain rfl, hstands⟩
        (allEverywhere_nil.cons (everywhere_plain rfl hstands rfl))
    · exact everywhere_plain rfl hstands rfl
    · exact everywhere_plain rfl hstands rfl
    · exact everywhere_plain rfl hstands rfl
    · exact everywhere_plain rfl hstands rfl

theorem placed_makeDelimited {waiting : Metadata} {number : Int} {kind : DelimitedKind}
    {blocks : List Element} (hstands : StandsOn I number)
    (h : AllEverywhere (Placed commentMarker I) blocks) :
    (metadata.attach (makeDelimited waiting number kind blocks)).Everywhere
      (Placed commentMarker I) := by
  rcases makeDelimited_cases waiting number kind blocks with ⟨_, heq⟩ | ⟨_, -, heq⟩ | heq
  · rw [heq]
    exact everywhere_of_parts ⟨.delimited, hstands⟩ h
  · rw [heq]
    exact everywhere_of_parts ⟨.plain rfl, hstands⟩ h
  · rw [heq]
    exact everywhere_plain rfl hstands rfl

theorem placed_makeTable (hI : Lasting commentMarker I) {content : List Line} {separator : Char}
    {delimiter : Text} {cells : List TableCell} (hwaits : Waits I metadata (line :: rest))
    (hshape : line.shape = .tableDelimiter separator delimiter)
    (hknown : separator = '|' ∨ separator = '!')
    (hcontent : content = (splitAtClosing (fun line ↦ closesTable separator line.shape) rest).1)
    (hread : List.Forall₂ (CellOf commentMarker) (gatherCells separator content).2 cells)
    (hinner : ∀ cell ∈ cells,
      AllEverywhere (Placed commentMarker I) ((cell.inner.map (·.blocks)).getD [])) :
    ({ metadata with attributes := ∅ }.attach (makeTable line.number separator content
      metadata.attributes cells)).Everywhere (Placed commentMarker I) := by
  obtain ⟨info, columns, headRows, bodyRows, hmade, hnumber, -, -, hrows, -⟩ :=
    exists_makeTable line.number separator content metadata.attributes cells
  refine everywhere_of_parts ⟨?_, ?_⟩ fun part hpart ↦ ?_
  · rw [hmade]
    exact .table hwaits hshape (hcontent ▸ (splitAtClosing_suffix _ rest).2) hread
      (by rw [hmade]; rfl) hknown hcontent
  · have hstands := hwaits.stands hI
    rw [← hnumber] at hstands
    rw [lineno_attach, hmade]
    exact hstands
  · rw [hmade, Metadata.attach, parts_mapInfo, parts, hrows, flatten_groupRows,
      List.nil_append] at hpart
    obtain ⟨cell, hcell, hmem⟩ := List.mem_flatMap.mp hpart
    exact hinner cell hcell part hmem

/-- A list is made of lines, whatever metadata is attached to it. -/
structure ListPlaced (commentMarker : Text) (I : List Line → Prop) (list : Element) : Prop where
  formed : ∀ change, Formed commentMarker I (list.mapInfo change)
  stands : StandsOn I list.lineno
  parts : AllEverywhere (Placed commentMarker I) list.parts

theorem ListPlaced.attach (h : ListPlaced commentMarker I element) (metadata : Metadata) :
    (metadata.attach element).Everywhere (Placed commentMarker I) := by
  refine everywhere_of_parts ⟨h.formed _, ?_⟩ ?_
  · rw [lineno_attach]
    exact h.stands
  · rw [Metadata.attach, parts_mapInfo]
    exact h.parts

theorem ListPlaced.here (h : ListPlaced commentMarker I element) :
    element.Everywhere (Placed commentMarker I) := by
  have hsame : element.mapInfo id = element := by
    cases element with
    | document document => cases document; rfl
    | listItem item => cases item; rfl
    | tableCell cell => cases cell; rfl
    | _ => rfl
  exact everywhere_of_parts ⟨hsame ▸ h.formed id, h.stands⟩ h.parts

/-- The terms of a run are made of the lines that they stand on. -/
theorem itemFormed_termRun (hI : Lasting commentMarker I) {delimiter : Text} {lines : List Line}
    (h : I lines) : ∀ term ∈ (termRun delimiter lines).terms, ItemFormed I term := by
  induction lines with
  | nil => exact List.forall_mem_nil _
  | cons line rest ih =>
    have hrest : I rest := hI.suffix (List.suffix_cons line rest) h
    rw [termRun]
    split
    · next text marker onTerm hshape =>
      split
      · dsimp only
        split
        · exact List.forall_mem_cons.mpr ⟨.term h hshape, List.forall_mem_nil _⟩
        · exact List.forall_mem_cons.mpr ⟨.term h hshape, ih hrest⟩
      · exact List.forall_mem_nil _
    · exact List.forall_mem_nil _

/-- A description on the line of a term is captured by that line, and the lines behind the terms
are those behind it. -/
theorem exists_line_of_description {delimiter : Text} {lines : List Line} {number : Int}
    {first : Text} (h : (termRun delimiter lines).description = some (number, first)) :
    ∃ line text, line :: (termRun delimiter lines).rest <:+ lines ∧ line.number = number ∧
      line.shape = .term text delimiter (some first) := by
  induction lines with
  | nil => cases h
  | cons line rest ih =>
    rw [termRun] at h ⊢
    split at h
    · next text marker onTerm hshape =>
      split at h
      · next hmarker =>
        rw [if_pos hmarker]
        dsimp only at h ⊢
        cases onTerm with
        | some found =>
          cases h
          exact ⟨line, text, List.suffix_rfl, rfl, hmarker ▸ hshape⟩
        | none =>
          obtain ⟨other, shown, hsuffix, hnumber, hother⟩ := ih h
          exact ⟨other, shown, hsuffix.trans (List.suffix_cons line rest), hnumber, hother⟩
      · cases h
    · cases h

end Elements

/-! ### The grammar -/

section Blocks

variable {metadata : Metadata} {line : Line} {rest behind : List Line} {element : Element}

/-- A leaf is made at its line, by the metadata that waits there. -/
theorem LeafMade.placed {place : Place} (hI : Lasting commentMarker I)
    (h : LeafMade place metadata line rest element behind)
    (hwaits : Waits I metadata (line :: rest)) :
    (metadata.attach element).Everywhere (Placed commentMarker I) := by
  have hstands : StandsOn I line.number := hwaits.stands hI
  cases h with
  | paragraph entries starts =>
    refine placed_makeParagraph hI hwaits fun style text hshape ↦ ?_
    rw [hshape] at starts
    cases starts
  | admonition shape => exact everywhere_placed (.labelled hwaits shape) hstands rfl
  | image directory shape => exact everywhere_placed (.image hwaits shape) hstands rfl
  | _ => exact everywhere_plain rfl hstands rfl

/-- The description behind some terms is made of the line on which it starts. -/
theorem DescriptionMade.itemFormed {delimiter : Text} {lines : List Line} {number : Int}
    {text : Option Text} (hI : Lasting commentMarker I)
    (h : DescriptionMade (termRun delimiter lines) number text behind) (hlines : I lines)
    (blocks : List Element) : ItemFormed I { plainItem number text with blocks } := by
  cases h with
  | onTerm given =>
    obtain ⟨line, text, hsuffix, rfl, hshape⟩ := exists_line_of_description given
    exact .onTerm (hI.suffix hsuffix hlines) hshape
  | below here shape =>
    exact .below (hI.suffix ((here ▸ significant_suffix _).trans (termRun_suffix _ _)) hlines) shape
  | missing => exact .textless

end Blocks

/-- Items are made of lines, and so are the blocks that are attached to them. -/
def ItemsPlaced (commentMarker : Text) (I : List Line → Prop) (items : List ListItem) : Prop :=
  ∀ item ∈ items, ItemFormed I item ∧ AllEverywhere (Placed commentMarker I) item.blocks

/-- The terms of an entry and its description, if that is kept. -/
theorem itemsPlaced_entry {delimiter : Text} {lines : List Line} {number : Int}
    {text : Option Text} {blocks : List Element} (hI : Lasting commentMarker I) (hlines : I lines)
    (hdescription : ItemFormed I { plainItem number text with blocks })
    (hblocks : AllEverywhere (Placed commentMarker I) blocks) (isKept : Bool) :
    ItemsPlaced commentMarker I ((termRun delimiter lines).terms ++
      (if isKept then some { plainItem number text with blocks } else none).toList) := by
  refine List.forall_mem_append.mpr ⟨fun term hterm ↦ ⟨?_, ?_⟩, ?_⟩
  · exact itemFormed_termRun hI hlines term hterm
  · rw [blocks_of_mem_termRun term hterm]
    exact allEverywhere_nil
  · cases isKept with
    | false => exact List.forall_mem_nil _
    | true => exact List.forall_mem_singleton.mpr ⟨hdescription, hblocks⟩

theorem listPlaced_makeList {number : Int} {kind : ListKind} {marker : Text}
    {items : List ListItem} (hstands : StandsOn I number)
    (h : ItemsPlaced commentMarker I items) :
    ListPlaced commentMarker I (makeList number kind marker items) where
  formed _ := .list fun item hitem ↦ (h item hitem).1
  stands := hstands
  parts := allEverywhere_flatMap fun item hitem ↦ (h item hitem).2

theorem listPlaced_descriptionList {number : Int} {delimiter : Text}
    {entries : List DescriptionEntry} (hstands : StandsOn I number)
    (h : ∀ entry ∈ entries,
      ItemsPlaced commentMarker I (entry.terms ++ entry.description.toList)) :
    ListPlaced commentMarker I (.descriptionList { lineno := number } delimiter entries) where
  formed _ := .descriptionList fun entry hentry item hitem ↦ (h entry hentry item hitem).1
  stands := hstands
  parts element helement := by
    obtain ⟨entry, hentry, hmem⟩ := List.mem_flatMap.mp helement
    exact allEverywhere_flatMap (fun item hitem ↦ (h entry hentry item hitem).2) element hmem

mutual

/-- All blocks that are read are made of lines, and so is what is inside them. -/
theorem BlocksMade.placed {terminator : Option Text} {level : Option Nat} {metadata : Metadata}
    {lines behind : List Line} {blocks : List Element} (hI : Lasting commentMarker I)
    (h : BlocksMade commentMarker terminator level metadata lines blocks behind)
    (hwaits : Waits I metadata lines) : AllEverywhere (Placed commentMarker I) blocks := by
  match h with
  | .ended => exact allEverywhere_nil
  | .closed _ => exact allEverywhere_nil
  | .left _ => exact allEverywhere_nil
  | .passed passes others => exact others.placed hI (hwaits.passes passes)
  | .block _ first others =>
    have hleft := hI.suffix (first.suffix.trans (List.suffix_cons _ _)) (hwaits.here hI)
    exact (others.placed hI (waits_empty hleft)).cons (first.placed hI hwaits)
termination_by structural h

theorem BlockMade.placed {place : Place} {metadata : Metadata} {line : Line}
    {rest behind : List Line} {element : Element} (hI : Lasting commentMarker I)
    (h : BlockMade commentMarker place metadata line rest element behind)
    (hwaits : Waits I metadata (line :: rest)) :
    element.Everywhere (Placed commentMarker I) := by
  have hall := hwaits.here hI
  have hrest := hI.suffix (List.suffix_cons line rest) hall
  have hstands := hwaits.stands hI
  match h with
  | .leaf made => exact made.placed hI hwaits
  | .opened shape _ _ read =>
    exact everywhere_of_parts ⟨.opened hwaits shape, hstands⟩ (read.placed hI (waits_empty hrest))
  | .delimited _ _ read =>
    exact placed_makeDelimited hstands (read.placed hI (waits_empty hrest))
  | .list _ read => exact (listPlaced_makeList hstands (read.placed hI hall)).attach metadata
  | .descriptionList _ read =>
    exact (listPlaced_descriptionList hstands (read.placed hI hall)).attach metadata
  | .table shape known read =>
    obtain ⟨hcells, hinner⟩ := read.placed hI fun raw hraw ↦
      hI.cell (splitAtClosing_suffix _ rest).2 hrest hraw
    exact placed_makeTable hI hwaits shape known rfl hcells hinner
termination_by structural h

theorem ItemsMade.placed {markers : List Text} {marker : Text} {lines behind : List Line}
    {items : List ListItem} (hI : Lasting commentMarker I)
    (h : ItemsMade commentMarker markers marker lines items behind) (hlines : I lines) :
    ItemsPlaced commentMarker I items := by
  match h with
  | .ended _ => exact List.forall_mem_nil _
  | .item here shape attached others =>
    have hall := hI.suffix (here ▸ significant_suffix _) hlines
    have hrest := hI.suffix ((itemTail_suffix _).trans (List.suffix_cons _ _)) hall
    exact List.forall_mem_cons.mpr ⟨⟨.marked hall shape, attached.placed hI hrest⟩,
      others.placed hI (hI.suffix attached.suffix hrest)⟩
termination_by structural h

theorem AttachmentsMade.placed {markers : List Text} {lines behind : List Line}
    {blocks : List Element} (hI : Lasting commentMarker I)
    (h : AttachmentsMade commentMarker markers lines blocks behind) (hlines : I lines) :
    AllEverywhere (Placed commentMarker I) blocks := by
  match h with
  | .ended _ => exact allEverywhere_nil
  | .attached _ block others =>
    have hrest := hI.suffix (List.suffix_cons _ _) hlines
    exact (block.placed hI (waits_empty hrest)).append
      (others.placed hI (hI.suffix block.suffix hrest))
  | .list here _ _ read others =>
    have hall := hI.suffix (here ▸ significant_suffix _) hlines
    exact (others.placed hI (hI.suffix read.suffix.1 hall)).cons
      (listPlaced_makeList ⟨_, _, hall, rfl⟩ (read.placed hI hall)).here
  | .paragraph here _ others =>
    have hall := hI.suffix (here ▸ significant_suffix _) hlines
    have hrest := hI.suffix (List.suffix_cons _ _) hall
    exact (others.placed hI (hI.suffix (paragraphLines_suffix true _ _) hrest)).cons
      (everywhere_plain rfl ⟨_, _, hall, rfl⟩ rfl)
termination_by structural h

theorem AttachedMade.placed {metadata : Metadata} {lines behind : List Line}
    {found : Option Element} (hI : Lasting commentMarker I)
    (h : AttachedMade commentMarker metadata lines found behind)
    (hwaits : Waits I metadata lines) :
    AllEverywhere (Placed commentMarker I) found.toList := by
  match h with
  | .ended => exact allEverywhere_nil
  | .passed passes more => exact more.placed hI (hwaits.passes passes)
  | .block block => exact allEverywhere_nil.cons (block.placed hI hwaits)
termination_by structural h

theorem EntriesMade.placed {delimiter : Text} {lines behind : List Line}
    {entries : List DescriptionEntry} (hI : Lasting commentMarker I)
    (h : EntriesMade commentMarker delimiter lines entries behind) (hlines : I lines) :
    ∀ entry ∈ entries,
      ItemsPlaced commentMarker I (entry.terms ++ entry.description.toList) := by
  match h with
  | .ended _ => exact List.forall_mem_nil _
  | .entry here _ description attached others =>
    have hall := hI.suffix (here ▸ significant_suffix _) hlines
    have hbelow := hI.suffix (description.suffix.trans (termRun_suffix _ _)) hall
    exact List.forall_mem_cons.mpr
      ⟨itemsPlaced_entry hI hall (description.itemFormed hI hall _) (attached.placed hI hbelow) _,
        others.placed hI (hI.suffix attached.suffix hbelow)⟩
termination_by structural h

theorem DescriptionAttachmentsMade.placed {delimiter : Text} {lines behind : List Line}
    {blocks : List Element} (hI : Lasting commentMarker I)
    (h : DescriptionAttachmentsMade commentMarker delimiter lines blocks behind)
    (hlines : I lines) : AllEverywhere (Placed commentMarker I) blocks := by
  match h with
  | .ended => exact allEverywhere_nil
  | .attached _ block others =>
    have hrest := hI.suffix (List.suffix_cons _ _) hlines
    exact (block.placed hI (waits_empty hrest)).append
      (others.placed hI (hI.suffix block.suffix hrest))
  | .list here _ read others =>
    have hall := hI.suffix (here ▸ significant_suffix _) hlines
    exact (others.placed hI (hI.suffix read.suffix.1 hall)).cons
      (listPlaced_makeList ⟨_, _, hall, rfl⟩ (read.placed hI hall)).here
  | .descriptionList here _ _ read others =>
    have hall := hI.suffix (here ▸ significant_suffix _) hlines
    exact (others.placed hI (hI.suffix read.suffix.1 hall)).cons
      (listPlaced_descriptionList ⟨_, _, hall, rfl⟩ (read.placed hI hall)).here
termination_by structural h

/-- Cells are read from what stands in the source for them, and the blocks of a document in a cell
are made of the lines of the cell. -/
theorem CellsMade.placed {raws : List RawCell} {cells : List TableCell}
    (hI : Lasting commentMarker I) (h : CellsMade commentMarker raws cells)
    (hraws : ∀ raw ∈ raws, I (cellLines commentMarker raw)) :
    List.Forall₂ (CellOf commentMarker) raws cells ∧ ∀ cell ∈ cells,
      AllEverywhere (Placed commentMarker I) ((cell.inner.map (·.blocks)).getD []) := by
  match h with
  | .nil => exact ⟨.nil, List.forall_mem_nil _⟩
  | .plain cellOf plain others =>
    obtain ⟨hcells, hinner⟩ := others.placed hI (List.forall_mem_cons.mp hraws).2
    refine ⟨.cons cellOf hcells, List.forall_mem_cons.mpr ⟨?_, hinner⟩⟩
    rw [plain]
    exact allEverywhere_nil
  | .document cellOf inner _ read others =>
    obtain ⟨hcells, hinner⟩ := others.placed hI (List.forall_mem_cons.mp hraws).2
    refine ⟨.cons cellOf hcells, List.forall_mem_cons.mpr ⟨?_, hinner⟩⟩
    rw [inner]
    exact read.placed hI (waits_empty (List.forall_mem_cons.mp hraws).1)
termination_by structural h

end

section Documents

variable {text : Text} {document : Document}

theorem placed_wrapPreamble (hasHeader : Bool) {blocks : List Element}
    (h : AllEverywhere (Placed commentMarker I) blocks) :
    AllEverywhere (Placed commentMarker I) (wrapPreamble hasHeader blocks) := by
  rcases wrapPreamble_cases hasHeader blocks with heq | ⟨first, rest, sections, rfl, -, heq⟩
  · rwa [heq]
  · obtain ⟨hbefore, hsections⟩ := List.forall_mem_append.mp h
    have hstands := (hbefore first List.mem_cons_self).here.stands
    rw [heq]
    exact AllEverywhere.cons (everywhere_of_parts ⟨.plain rfl, hstands⟩ hbefore) hsections

/-- Whatever reading keeps of the lines of a text, the elements of the document that the text makes
are made of such lines and stand on them. -/
theorem placed_of_ofText (hI : Lasting commentMarker I)
    (htext : I (Line.classifyAll commentMarker 1 text.lines))
    (h : (Document.ofText commentMarker text).1 = .ok document) :
    AllEverywhere (Placed commentMarker I) document.blocks := by
  obtain ⟨head, begun, before, blocks, behind, hbegun, hhead, hblocks, -, hdocument⟩ :=
    exists_blocksMade_of_ofText h
  have hbefore : before.lines <:+ begun.lines :=
    (runs_readHeader_suffix (E := fun _ ↦ True) begun).of_eq_ok hhead
  rw [hdocument]
  exact placed_wrapPreamble _
    (hblocks.placed hI (waits_empty (hI.suffix (hbegun ▸ hbefore) htext)))

/-- The elements of a document are made of lines. -/
theorem formed_of_ofText (hI : Lasting commentMarker I)
    (htext : I (Line.classifyAll commentMarker 1 text.lines))
    (h : (Document.ofText commentMarker text).1 = .ok document) :
    AllEverywhere (Formed commentMarker I) document.blocks :=
  (placed_of_ofText hI htext h).mono fun _ hplaced ↦ hplaced.formed

/-- The elements of a document come from lines. -/
theorem origin_of_ofText (hI : Lasting commentMarker I)
    (htext : I (Line.classifyAll commentMarker 1 text.lines))
    (h : (Document.ofText commentMarker text).1 = .ok document) :
    AllEverywhere (Origin commentMarker I) document.blocks :=
  (placed_of_ofText hI htext h).mono fun _ hplaced ↦ hplaced.origin hI

end Documents

end Blocks

end AsciidocSpans
