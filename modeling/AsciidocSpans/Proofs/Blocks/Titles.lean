import AsciidocSpans.Proofs.Blocks.Adequacy

/-!
What becomes of section titles and of the metadata before them. A `Body` is what a document or a
section holds: gaps, blocks, titles, and below each title that opens a section a body of its own. It
records every `TitleLine` with what was given since the block before it, with whether it closed a
section, and with the element that was made of it. `body_of_readBlocks` says that this is how blocks
are read, one gap and one block after the other (`gap_of_readBlocks`).

A title that closes no section gets what was given before it: the last id, and the last style, which
decides whether it opens a section or floats. A title that closes a section gets nothing, because
what was given before it was collected for the section that it closes (`TitleLine.Ruled`,
`ruled_of_body`). All sections are made of these titles (`sectionsOf_of_body`).
-/

set_option autoImplicit false
set_option relaxedAutoImplicit false

namespace AsciidocSpans

namespace Element

mutual

/-- A section and the sections inside it, in document order. -/
def sections : Element → List Element
  | titledSection info level blocks => titledSection info level blocks :: sectionsOf blocks
  | _ => []

/-- The sections among some blocks and the sections inside them, in document order. -/
def sectionsOf : List Element → List Element
  | [] => []
  | element :: rest => sections element ++ sectionsOf rest

end

/-- An element that is no section stands for none. -/
theorem sections_of_not_isSection {element : Element} (h : element.isSection = false) :
    element.sections = [] := by
  cases element with
  | titledSection => cases h
  | _ => rfl

end Element

namespace Blocks

open Line

/-- A section title that was met while blocks were read. -/
structure TitleLine where
  line : Line
  /-- The lines of the gap before it, from the end of the block before it on. -/
  given : List Line
  /-- Whether it closed a section. -/
  closes : Bool
  /-- What was made of it. -/
  made : Element

/-- An element without an id of its own gets the one of the metadata. -/
theorem id_attach (metadata : Metadata) {element : Element} (h : element.info.id = none) :
    (metadata.attach element).info.id = metadata.id := by
  rw [Metadata.attach, Element.info_mapInfo]
  change (metadata.id <|> element.info.id) = metadata.id
  rw [h]
  cases metadata.id <;> rfl

/-- What a document or a section of a level holds, read from lines up to some rest: the blocks, the
titles met, and the lines that were given at the end for no block. If what comes before was closed
by the first line, `lost` are the lines that were given before it. -/
inductive Body (commentMarker : Text) : (level : Option Nat) → (lost : Option (List Line)) →
    (lines : List Line) → (blocks : List Element) → (titles : List TitleLine) →
    (dropped : List Line) → (rest : List Line) → Prop
  | ended {level : Option Nat} {lost : Option (List Line)} {lines given : List Line}
      (gap : Gap lines given []) :
      Body commentMarker level lost lines [] [] (lost.getD [] ++ given) []
  | left {level : Option Nat} {lost : Option (List Line)} {line : Line}
      {lines given rest : List Line} (gap : Gap lines given (line :: rest))
      (ends : endsSection none level line.shape) :
      Body commentMarker level lost lines [] [] (lost.getD [] ++ given) (line :: rest)
  | floating {level : Option Nat} {lost : Option (List Line)} {line : Line} {marker title : Text}
      {lines given rest dropped final : List Line} {blocks : List Element}
      {titles : List TitleLine} (gap : Gap lines given (line :: rest))
      (shape : line.shape = .sectionTitle marker title) (style : floats (lastStyle given))
      (others : Body commentMarker level none rest blocks titles dropped final) :
      Body commentMarker level lost lines
        (floatingTitle line (Metadata.empty.after given) :: blocks)
        (⟨line, lost.getD [] ++ given, lost.isSome,
          floatingTitle line (Metadata.empty.after given)⟩ :: titles) dropped final
  | opened {level : Option Nat} {lost : Option (List Line)} {line : Line} {marker title : Text}
      {lines given rest behind unused dropped final : List Line} {inner blocks : List Element}
      {below titles : List TitleLine} (gap : Gap lines given (line :: rest))
      (shape : line.shape = .sectionTitle marker title)
      (goes : endsSection none level line.shape = false)
      (style : floats (lastStyle given) = false)
      (body : Body commentMarker (some (marker.length - 1)) none rest inner below unused behind)
      (others : Body commentMarker level (some unused) behind blocks titles dropped final) :
      Body commentMarker level lost lines
        (openedSection line (Metadata.empty.after given) marker title inner :: blocks)
        (⟨line, lost.getD [] ++ given, lost.isSome,
          openedSection line (Metadata.empty.after given) marker title inner⟩ :: below ++ titles)
        dropped final
  | block {level : Option Nat} {lost : Option (List Line)} {line : Line}
      {lines given rest dropped final : List Line} {steps : Nat} {before behind : ReadState}
      {element : Element} {blocks : List Element} {titles : List TitleLine}
      (gap : Gap lines given (line :: rest))
      (shape : ∀ marker title, line.shape ≠ .sectionTitle marker title)
      (here : before.lines = line :: rest)
      (read : readBlock commentMarker steps .body (Metadata.empty.after given) line rest before =
        .ok (.block element) behind)
      (others : Body commentMarker level none behind.lines blocks titles dropped final) :
      Body commentMarker level lost lines (element :: blocks) titles dropped final

section Reading

variable {commentMarker : Text} {steps : Nat} {metadata : Metadata} {line : Line}
  {rest : List Line} {s s' : ReadState} {element : Element}

/-- What a reading of the blocks of a section or a document finds behind its first gap, given the
metadata that waits there: the end of the lines, a title that ends the section, or a block, which is
read in fewer steps, and the blocks behind it. -/
inductive BehindGap (commentMarker : Text) (steps : Nat) (level : Option Nat)
    (metadata : Metadata) : List Line → List Element → ReadState → Prop
  | ended {final : ReadState} (empty : final.lines = []) :
      BehindGap commentMarker steps level metadata [] [] final
  | left {line : Line} {rest : List Line} {final : ReadState}
      (ends : endsSection none level line.shape) (kept : final.lines = line :: rest) :
      BehindGap commentMarker steps level metadata (line :: rest) [] final
  | block {line : Line} {rest : List Line} {fewer : Nat} {element : Element}
      {others : List Element} {before behind final : ReadState}
      (goes : endsSection none level line.shape = false) (less : fewer < steps)
      (here : before.lines = line :: rest)
      (first : readBlock commentMarker fewer .body metadata line rest before =
        .ok (.block element) behind)
      (further : readBlocks commentMarker fewer none level .empty behind = .ok others final) :
      BehindGap commentMarker steps level metadata (line :: rest) (element :: others) final

theorem BehindGap.succ {level : Option Nat} {lines : List Line} {blocks : List Element}
    (h : BehindGap commentMarker steps level metadata lines blocks s) :
    BehindGap commentMarker (steps + 1) level metadata lines blocks s := by
  cases h with
  | ended empty => exact .ended empty
  | left ends kept => exact .left ends kept
  | block goes less here first further =>
    exact .block goes (Nat.lt_succ_of_lt less) here first further

/-- A reading of blocks passes a gap, whose metadata is added to the metadata that waits. -/
theorem gap_of_readBlocks {level : Option Nat} {blocks : List Element}
    (h : readBlocks commentMarker steps none level metadata s = .ok blocks s') :
    ∃ given rest, Gap s.lines given rest ∧
      BehindGap commentMarker steps level (metadata.after given) rest blocks s' := by
  induction steps generalizing metadata s with
  | zero => cases h
  | succ steps ih =>
    rw [readBlocks] at h
    obtain ⟨_, _, hget, hmatch⟩ := bind_eq_ok.mp h
    cases hget
    cases hlines : s.lines with
    | nil =>
      rw [hlines] at hmatch
      cases hmatch
      exact ⟨[], [], .nil [], .ended hlines⟩
    | cons line rest =>
      rw [hlines] at hmatch
      dsimp only at hmatch
      rw [if_neg (by simp [closesBlock])] at hmatch
      split at hmatch
      · next hends =>
        cases hmatch
        exact ⟨[], line :: rest, .nil _, .left hends hlines⟩
      · next hends =>
        obtain ⟨progress, middle, hblock, hnext⟩ := bind_eq_ok.mp hmatch
        cases progress with
        | pending waiting =>
          obtain ⟨given, final, hgap, hbehind⟩ := ih hnext
          have hpasses := passes_of_readBlock hlines hblock
          generalize hmiddle : middle.lines = left at hgap hpasses
          cases hpasses with
          | line waits =>
            rw [← Metadata.after_append] at hbehind
            exact ⟨line :: given, final, .line waits hgap, hbehind.succ⟩
          | commentBlock opens => exact ⟨given, final, .commentBlock opens hgap, hbehind.succ⟩
        | block element =>
          obtain ⟨others, final, hothers, hdone⟩ := bind_eq_ok.mp hnext
          cases hdone
          exact ⟨[], line :: rest, .nil _, .block (Bool.eq_false_iff.mpr hends)
            (Nat.lt_succ_self steps) hlines hblock hothers⟩

/-- A title in a body floats, or it opens a section and the section's blocks are read. -/
theorem section_of_readBlock {marker title : Text}
    (hshape : line.shape = .sectionTitle marker title)
    (h : readBlock commentMarker steps .body metadata line rest s = .ok (.block element) s') :
    (floats metadata.style ∧ element = floatingTitle line metadata ∧ s'.lines = rest) ∨
    (floats metadata.style = false ∧ ∃ fewer before blocks, fewer < steps ∧ before.lines = rest ∧
      readBlocks commentMarker fewer none (some (marker.length - 1)) .empty before =
        .ok blocks s' ∧ element = openedSection line metadata marker title blocks) := by
  match steps with
  | 0 => cases h
  | 1 =>
    rw [readBlock, hshape] at h
    cases h
  | steps + 2 =>
    rw [readBlock, hshape] at h
    dsimp only at h
    rw [if_pos rfl] at h
    obtain ⟨_, begun, hset, hsection⟩ := bind_eq_ok.mp h
    obtain ⟨made, final, hmade, hdone⟩ := bind_eq_ok.mp hsection
    cases hset
    cases hdone
    rw [readSection] at hmade
    split at hmade
    · next hfloats =>
      cases hmade
      exact Or.inl ⟨floats_iff.mpr hfloats, rfl, rfl⟩
    · next hfloats =>
      refine Or.inr ⟨Bool.eq_false_iff.mpr fun htrue ↦ hfloats (floats_iff.mp htrue), ?_⟩
      -- Whether a block title is reported as dropped makes no difference to the lines.
      obtain ⟨before, hbefore, hbody⟩ : ∃ before : ReadState, before.lines = rest ∧
          (readBlocks commentMarker steps none (some (marker.length - 1)) .empty >>= fun blocks ↦
            pure (openedSection line metadata marker title blocks)) before = .ok element s' := by
        cases hdropped : metadata.title with
        | some dropped =>
          rw [hdropped] at hmade
          obtain ⟨_, reported, hreport, hrest⟩ := bind_eq_ok.mp hmade
          cases hreport
          exact ⟨_, rfl, hrest⟩
        | none =>
          rw [hdropped] at hmade
          exact ⟨_, rfl, hmade⟩
      obtain ⟨blocks, final, hblocks, hdone⟩ := bind_eq_ok.mp hbody
      cases hdone
      exact ⟨steps, before, blocks, by omega, hbefore, hblocks, rfl⟩

/-- Reading the blocks of a document or a section reads a body. -/
theorem body_of_readBlocks {level : Option Nat} {blocks : List Element}
    (h : readBlocks commentMarker steps none level .empty s = .ok blocks s')
    (lost : Option (List Line)) :
    ∃ titles dropped, Body commentMarker level lost s.lines blocks titles dropped s'.lines := by
  induction steps using Nat.strongRecOn generalizing level blocks s s' lost with
  | ind steps ih =>
    obtain ⟨given, rest, hgap, hbehind⟩ := gap_of_readBlocks h
    cases hbehind with
    | ended empty =>
      rw [empty]
      exact ⟨[], _, .ended hgap⟩
    | left ends kept =>
      rw [kept]
      exact ⟨[], _, .left hgap ends⟩
    | @block line rest fewer element others before behind _ goes less here first further =>
      by_cases htitle : ∃ marker title, line.shape = .sectionTitle marker title
      · obtain ⟨marker, title, hshape⟩ := htitle
        rcases section_of_readBlock hshape first with ⟨hstyle, rfl, hrest⟩ |
          ⟨hstyle, fewest, opened, inner, hfewest, hopened, hinner, rfl⟩
        · obtain ⟨titles, dropped, hothers⟩ := ih fewer less further none
          rw [style_after] at hstyle
          rw [hrest] at hothers
          exact ⟨_, dropped, .floating hgap hshape hstyle hothers⟩
        · obtain ⟨below, unused, hbody⟩ := ih fewest (by omega) hinner none
          obtain ⟨titles, dropped, hothers⟩ := ih fewer less further (some unused)
          rw [style_after] at hstyle
          rw [hopened] at hbody
          exact ⟨_, dropped, .opened hgap hshape goes hstyle hbody hothers⟩
      · obtain ⟨titles, dropped, hothers⟩ := ih fewer less further none
        exact ⟨titles, dropped, .block hgap (fun marker title hshape ↦
          htitle ⟨marker, title, hshape⟩) here first hothers⟩

end Reading

section Sections

variable {commentMarker : Text} {metadata : Metadata}

theorem isSection_attach (metadata : Metadata) (element : Element) :
    (metadata.attach element).isSection = element.isSection := by
  cases element <;> rfl

/-- A paragraph's lines never make a section. -/
theorem isSection_makeParagraph (entries : Attributes) (first : Line) (lines : List Text) :
    (makeParagraph entries metadata first lines).isSection = false := by
  unfold makeParagraph
  dsimp only
  split
  · rfl
  · split_ifs <;> rfl

theorem isSection_makeDelimited (number : Int) (kind : DelimitedKind) (blocks : List Element) :
    (makeDelimited metadata number kind blocks).isSection = false := by
  rcases makeDelimited_cases metadata number kind blocks with ⟨_, heq⟩ | ⟨_, -, heq⟩ | heq <;>
    rw [heq] <;> rfl

theorem isSection_makeTable (number : Int) (separator : Char) (content : List Line)
    (given : Attributes) (cells : List TableCell) :
    (makeTable number separator content given cells).isSection = false := by
  obtain ⟨_, _, _, _, heq, -⟩ := exists_makeTable number separator content given cells
  rw [heq]
  rfl

theorem LeafMade.isSection_eq_false {place : Place} {line : Line} {rest behind : List Line}
    {element : Element} (h : LeafMade place metadata line rest element behind) :
    element.isSection = false := by
  cases h with
  | paragraph => exact isSection_makeParagraph _ _ _
  | _ => rfl

/-- A line that is no title makes no section. -/
theorem BlockMade.isSection_eq_false {place : Place} {line : Line} {rest behind : List Line}
    {element : Element} (h : BlockMade commentMarker place metadata line rest element behind)
    (hshape : ∀ marker title, line.shape ≠ .sectionTitle marker title) :
    element.isSection = false := by
  cases h with
  | leaf made => exact (isSection_attach _ _).trans made.isSection_eq_false
  | opened shape => exact absurd shape (hshape _ _)
  | delimited => exact (isSection_attach _ _).trans (isSection_makeDelimited _ _ _)
  | list | descriptionList => exact isSection_attach _ _
  | table => exact (isSection_attach _ _).trans (isSection_makeTable _ _ _ _ _)

end Sections

/-- What becomes of a title. If it closes no section, it gets the last id that was given before it,
and the last style decides whether it opens a section; if it closes one, it opens a section without
an id. A title that opens no section is an element without a counterpart. -/
structure TitleLine.Ruled (title : TitleLine) : Prop where
  lineno : title.made.lineno = title.line.number
  kind : title.made.isSection = false → ∃ info context, title.made = .unhandled info context
  kept : title.closes = false → title.made.info.id = lastId title.given ∧
    title.made.isSection = !floats (lastStyle title.given)
  lost : title.closes = true → title.made.info.id = none ∧ title.made.isSection = true

section Body

variable {commentMarker : Text} {level : Option Nat} {lost : Option (List Line)}
  {lines dropped rest : List Line} {blocks : List Element} {titles : List TitleLine}

/-- No gap comes before a title. -/
theorem eq_of_gap_of_title {line : Line} {given behind : List Line}
    (hfirst : ∀ line ∈ lines.head?, ∃ marker title, line.shape = .sectionTitle marker title)
    (hgap : Gap lines given (line :: behind)) : given = [] ∧ lines = line :: behind := by
  cases hgap with
  | nil => exact ⟨rfl, rfl⟩
  | line waits gap =>
    obtain ⟨marker, title, hshape⟩ := hfirst _ rfl
    rw [hshape] at waits
    cases waits
  | commentBlock opens gap =>
    obtain ⟨marker, title, hshape⟩ := hfirst _ rfl
    rw [hshape] at opens
    cases opens

/-- A line that ends a section is a title. -/
theorem title_of_endsSection {terminator : Option Text} {shape : Line.Shape}
    (h : endsSection terminator level shape) :
    ∃ marker title, shape = .sectionTitle marker title := by
  unfold endsSection at h
  split at h
  · exact ⟨_, _, rfl⟩
  · cases h

/-- A body ends at the end of the lines or at a title that ends the section. -/
theorem ends_of_body_rest
    (h : Body commentMarker level lost lines blocks titles dropped rest) :
    ∀ line ∈ rest.head?, endsSection none level line.shape := by
  induction h with
  | ended => exact nofun
  | left gap ends =>
    intro line hline
    cases hline
    exact ends
  | floating _ _ _ _ ih => exact ih
  | opened _ _ _ _ _ _ _ ih => exact ih
  | block _ _ _ _ _ ih => exact ih

/-- The metadata of the titles in a body, provided that behind a closed section a title follows. -/
theorem ruled_of_body (h : Body commentMarker level lost lines blocks titles dropped rest)
    (hlost : lost.isSome →
      ∀ line ∈ lines.head?, ∃ marker title, line.shape = .sectionTitle marker title) :
    ∀ title ∈ titles, title.Ruled := by
  induction h with
  | ended gap =>
    intro title htitle
    cases htitle
  | left gap ends =>
    intro title htitle
    cases htitle
  | @floating level lost line marker title lines given rest dropped final blocks titles gap shape
      style others ih =>
    intro met hmet
    rcases List.mem_cons.mp hmet with rfl | hrest
    · have hnone : lost = none := by
        cases lost with
        | none => rfl
        | some passed =>
          -- A closed section loses the style along with the rest, so nothing can float here.
          rw [(eq_of_gap_of_title (hlost rfl) gap).1] at style
          cases style
      have hid : (floatingTitle line (Metadata.empty.after given)).info.id = lastId given :=
        (id_attach _ rfl).trans (id_after given)
      subst hnone
      refine { lineno := rfl, kind := fun _ ↦ ⟨_, _, rfl⟩,
               kept := fun _ ↦ ⟨hid, ?_⟩, lost := nofun }
      change false = !floats (lastStyle given)
      rw [style]
      rfl
    · exact ih nofun met hrest
  | @opened level lost line marker title lines given rest behind unused dropped final inner blocks
      below titles gap shape goes style body others ihBody ihOthers =>
    intro met hmet
    rcases List.mem_cons.mp hmet with rfl | hrest
    · have hid : (openedSection line (Metadata.empty.after given) marker title inner).info.id =
          lastId given := (id_attach _ rfl).trans (id_after given)
      refine { lineno := rfl, kind := nofun, kept := fun hopen ↦ ?_, lost := fun hcloses ↦ ?_ }
      · have hnone : lost = none :=
          Option.isNone_iff_eq_none.mp (Option.isSome_eq_false_iff.mp hopen)
        subst hnone
        refine ⟨hid, ?_⟩
        change true = !floats (lastStyle given)
        rw [style]
        rfl
      · rw [(eq_of_gap_of_title (hlost hcloses) gap).1] at hid ⊢
        exact ⟨hid, rfl⟩
    · rcases List.mem_append.mp hrest with hbelow | hbehind
      · exact ihBody nofun met hbelow
      · have hnext := ends_of_body_rest body
        exact ihOthers (fun _ line hline ↦ title_of_endsSection (hnext line hline)) met hbehind
  | block _ _ _ _ _ ih => exact ih nofun

/-- The sections in a body are what was made of its titles, apart from those that float. -/
theorem sectionsOf_of_body (h : Body commentMarker level lost lines blocks titles dropped rest) :
    Element.sectionsOf blocks = (titles.map (·.made)).filter (·.isSection) := by
  induction h with
  | ended => rfl
  | left => rfl
  | floating _ _ _ _ ih => exact ih
  | @opened level lost line marker title lines given rest behind unused dropped final inner blocks
      below titles gap shape goes style body others ihBody ihOthers =>
    have hsections : (openedSection line (Metadata.empty.after given) marker title inner).sections =
        openedSection line (Metadata.empty.after given) marker title inner ::
          Element.sectionsOf inner := rfl
    rw [Element.sectionsOf, hsections, ihBody, ihOthers, List.map_append, List.filter_append]
    rfl
  | block gap shape here read others ih =>
    have helement := (blockMade_of_readBlock here read).isSection_eq_false shape
    rw [Element.sectionsOf, Element.sections_of_not_isSection helement, ih]
    rfl

end Body

end Blocks

end AsciidocSpans
