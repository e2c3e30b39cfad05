import AsciidocSpans.Proofs.Blocks.Sectionless

/-!
The tree of sections. A heading is the level of a section and the line of its title. Read in
document order, the headings of a document determine its tree: a section is held by the nearest
section before it that has a smaller level, and by the document if there is none
(`withNearestSmaller`). `Nested` says how sections stand in blocks: deeper than what holds them,
behind all blocks that are no sections, and none deeper than the one before it. Blocks that are
nested have the tree that their headings determine (`outlineOf_of_nested`), and bodies are nested
(`nested_of_body`), because a body ends at a title that is not deeper than the section it belongs
to, and the section behind starts with that title. So every document has this tree, and so has every
document inside a table cell (`sectionTree_of_ofText`).
-/

set_option autoImplicit false
set_option relaxedAutoImplicit false

namespace AsciidocSpans

/-- What a section is known by: its level, and the line of its title. -/
structure Heading where
  level : Int
  lineno : Int
  deriving DecidableEq, Repr

/-- Each of some headings with the nearest one before it that has a smaller level, if there is one.
The headings before all of them are given, the last one first. -/
def withNearestSmaller (earlier : List Heading) : List Heading → List (Heading × Option Heading)
  | [] => []
  | heading :: rest =>
    (heading, earlier.find? (·.level < heading.level)) ::
      withNearestSmaller (heading :: earlier) rest

theorem withNearestSmaller_append (earlier headings others : List Heading) :
    withNearestSmaller earlier (headings ++ others) =
      withNearestSmaller earlier headings ++
        withNearestSmaller (headings.reverse ++ earlier) others := by
  induction headings generalizing earlier with
  | nil => rfl
  | cons heading rest ih =>
    rw [List.cons_append, withNearestSmaller, withNearestSmaller, ih, List.reverse_cons,
      List.append_assoc, List.singleton_append, List.cons_append]

/-- What is not smaller is passed over in the search for a smaller level. -/
theorem find?_passed {level : Int} {passed : List Heading} (earlier : List Heading)
    (h : ∀ heading ∈ passed, level ≤ heading.level) :
    (passed.reverse ++ earlier).find? (·.level < level) = earlier.find? (·.level < level) := by
  have hnone : passed.reverse.find? (·.level < level) = none := by
    refine List.find?_eq_none.mpr fun heading hheading ↦ ?_
    have hlevel := h heading (List.mem_reverse.mp hheading)
    simpa using hlevel
  rw [List.find?_append, hnone, Option.none_or]

namespace Element

/-- The heading of a section. -/
def heading? : Element → Option Heading
  | titledSection info level _ => some ⟨level, info.lineno⟩
  | _ => none

/-- The headings of the sections among some blocks and of those inside them, in document order. -/
def headingsOf (blocks : List Element) : List Heading :=
  (sectionsOf blocks).filterMap heading?

mutual

/-- The heading of a section and those of the sections inside it, in document order, each with the
heading of the section that directly holds it, given what holds the section itself. -/
def outline (holder : Option Heading) : Element → List (Heading × Option Heading)
  | titledSection info level blocks =>
    (⟨level, info.lineno⟩, holder) :: outlineOf (some ⟨level, info.lineno⟩) blocks
  | _ => []

/-- The headings of the sections among some blocks and inside them, each with the heading of the
section that directly holds it, given what holds the blocks. -/
def outlineOf (holder : Option Heading) : List Element → List (Heading × Option Heading)
  | [] => []
  | element :: rest => outline holder element ++ outlineOf holder rest

end

/-- How the sections directly in an element stand: only documents and sections hold any, a section
holds deeper ones only, and behind a section there are only sections, none deeper than it. -/
structure OrdersSections (holder : Element) : Prop where
  holds : ∀ part ∈ holder.parts, part.isSection →
    holder.isSection ∨ ∃ own, holder = .document own
  deeper : ∀ part ∈ holder.parts, ∀ outer ∈ holder.heading?, ∀ inner ∈ part.heading?,
    outer.level < inner.level
  descending : holder.parts.Pairwise fun block next ↦
    ∀ heading ∈ block.heading?, ∃ later ∈ next.heading?, later.level ≤ heading.level

/-- How sections stand in the blocks of a document, or of a section of a given level. -/
inductive Nested : Option Int → List Element → Prop
  | nil {above : Option Int} : Nested above []
  | block {above : Option Int} {element : Element} {rest : List Element}
      (sectionless : element.Sectionless) (others : Nested above rest) :
      Nested above (element :: rest)
  | titled {above : Option Int} {info : ElementInfo} {level : Int} {blocks rest : List Element}
      (deeper : ∀ outer ∈ above, outer < level) (inner : Nested (some level) blocks)
      (behind : ∀ next ∈ rest, ∃ later ∈ next.heading?, later.level ≤ level)
      (others : Nested above rest) :
      Nested above (.titledSection info level blocks :: rest)

section Headings

variable {element : Element} {blocks others : List Element}

theorem heading?_of_not_isSection (h : element.isSection = false) : element.heading? = none := by
  cases element with
  | titledSection => cases h
  | _ => rfl

theorem outline_of_not_isSection (h : element.isSection = false) (holder : Option Heading) :
    outline holder element = [] := by
  cases element with
  | titledSection => cases h
  | _ => rfl

/-- A block that is no section has no headings of its own. -/
theorem headingsOf_cons_of_not_isSection (h : element.isSection = false) :
    headingsOf (element :: blocks) = headingsOf blocks := by
  rw [headingsOf, sectionsOf, sections_of_not_isSection h, List.nil_append, headingsOf]

/-- A section comes before the sections inside it, and these before the ones behind it. -/
theorem headingsOf_cons_titledSection (info : ElementInfo) (level : Int) :
    headingsOf (.titledSection info level blocks :: others) =
      ⟨level, info.lineno⟩ :: (headingsOf blocks ++ headingsOf others) := by
  rw [headingsOf, sectionsOf, sections, List.cons_append, List.filterMap_cons,
    List.filterMap_append]
  rfl

theorem mem_sectionsOf_of_mem (h : element ∈ blocks) (hsection : element.isSection) :
    element ∈ sectionsOf blocks := by
  induction blocks with
  | nil => cases h
  | cons first rest ih =>
    rw [sectionsOf, List.mem_append]
    rcases List.mem_cons.mp h with rfl | hrest
    · cases element with
      | titledSection => exact .inl List.mem_cons_self
      | _ => cases hsection
    · exact .inr (ih hrest)

theorem mem_headingsOf_of_mem (h : element ∈ blocks) {heading : Heading}
    (hheading : heading ∈ element.heading?) : heading ∈ headingsOf blocks := by
  refine List.mem_filterMap.mpr ⟨element, mem_sectionsOf_of_mem h ?_, hheading⟩
  cases element with
  | titledSection => rfl
  | _ => cases hheading

end Headings

section Nested

variable {above : Option Int} {element holder : Element} {blocks rest : List Element}

theorem Nested.of_suffix (h : Nested above blocks) (hrest : rest <:+ blocks) :
    Nested above rest := by
  induction h with
  | nil => exact List.suffix_nil.mp hrest ▸ .nil
  | block sectionless others ih =>
    rcases List.suffix_cons_iff.mp hrest with rfl | hsuffix
    · exact .block sectionless others
    · exact ih hsuffix
  | titled deeper inner behind others _ ih =>
    rcases List.suffix_cons_iff.mp hrest with rfl | hsuffix
    · exact .titled deeper inner behind others
    · exact ih hsuffix

theorem Nested.sectionless (h : Nested above blocks) (hmem : element ∈ blocks)
    (hnot : element.isSection = false) : element.Sectionless := by
  induction h with
  | nil => cases hmem
  | block sectionless others ih =>
    rcases List.mem_cons.mp hmem with rfl | hrest
    · exact sectionless
    · exact ih hrest
  | titled deeper inner behind others _ ih =>
    rcases List.mem_cons.mp hmem with rfl | hrest
    · cases hnot
    · exact ih hrest

/-- All sections inside a section are deeper than it. -/
theorem Nested.level_lt (h : Nested above blocks) :
    ∀ outer ∈ above, ∀ heading ∈ headingsOf blocks, outer < heading.level := by
  induction h with
  | nil => exact nofun
  | block sectionless others ih =>
    rw [headingsOf_cons_of_not_isSection sectionless.isSection]
    exact ih
  | titled deeper inner behind others ihInner ihOthers =>
    intro outer houter heading hheading
    have hlevel := deeper outer houter
    rw [headingsOf_cons_titledSection] at hheading
    rcases List.mem_cons.mp hheading with rfl | hmem
    · exact hlevel
    · rcases List.mem_append.mp hmem with hinside | hrest
      · exact Int.lt_trans hlevel (ihInner _ rfl heading hinside)
      · exact ihOthers outer houter heading hrest

/-- Nested blocks have the tree that their headings determine, whatever headings come before them,
provided that the search for a smaller level leads to what holds the blocks. -/
theorem outlineOf_of_nested (h : Nested above blocks) {earlier : List Heading}
    {outer : Option Heading} (hsearch : ∀ block ∈ blocks, ∀ heading ∈ block.heading?,
      earlier.find? (·.level < heading.level) = outer) :
    outlineOf outer blocks = withNearestSmaller earlier (headingsOf blocks) := by
  induction h generalizing earlier outer with
  | nil => rfl
  | block sectionless others ih =>
    rw [outlineOf, outline_of_not_isSection sectionless.isSection, List.nil_append,
      headingsOf_cons_of_not_isSection sectionless.isSection]
    exact ih fun block hblock ↦ hsearch block (List.mem_cons_of_mem _ hblock)
  | @titled above info level blocks rest deeper inner behind others ihInner ihOthers =>
    have hfound : earlier.find? (·.level < level) = outer := hsearch _ List.mem_cons_self _ rfl
    have hdeeper := inner.level_lt level rfl
    have hblocks : outlineOf (some ⟨level, info.lineno⟩) blocks =
        withNearestSmaller (⟨level, info.lineno⟩ :: earlier) (headingsOf blocks) :=
      ihInner fun block hblock heading hheading ↦ List.find?_cons_of_pos
        (decide_eq_true (hdeeper heading (mem_headingsOf_of_mem hblock hheading)))
    -- The sections behind this one are not deeper, so they find neither it nor what is inside it.
    have hrest : outlineOf outer rest = withNearestSmaller
        ((headingsOf blocks).reverse ++ ⟨level, info.lineno⟩ :: earlier) (headingsOf rest) := by
      refine ihOthers fun block hblock heading hheading ↦ ?_
      obtain ⟨later, hlater, hle⟩ := behind block hblock
      cases Option.mem_unique hlater hheading
      rw [find?_passed _ fun inside hinside ↦
          Int.le_trans hle (Int.le_of_lt (hdeeper inside hinside)),
        List.find?_cons_of_neg (by simpa using hle)]
      exact hsearch block (List.mem_cons_of_mem _ hblock) heading hheading
    rw [outlineOf, outline, List.cons_append, hblocks, hrest, headingsOf_cons_titledSection,
      withNearestSmaller, hfound, withNearestSmaller_append]

/-- Behind a section there are only sections, none deeper than it. -/
theorem Nested.descending (h : Nested above blocks) : blocks.Pairwise fun block next ↦
    ∀ heading ∈ block.heading?, ∃ later ∈ next.heading?, later.level ≤ heading.level := by
  induction h with
  | nil => exact .nil
  | block sectionless others ih =>
    refine List.pairwise_cons.mpr ⟨fun next hnext heading hheading ↦ ?_, ih⟩
    rw [heading?_of_not_isSection sectionless.isSection] at hheading
    cases hheading
  | titled deeper inner behind others _ ih =>
    refine List.pairwise_cons.mpr ⟨fun next hnext heading hheading ↦ ?_, ih⟩
    cases hheading
    exact behind next hnext

/-- What stands in an element without sections is without sections. -/
theorem Sectionless.of_hasBlock (h : element.Sectionless) (hblock : element.HasBlock holder) :
    holder.Sectionless := by
  induction hblock with
  | self => exact h
  | inside notTable mem has ih => exact ih (h.parts notTable _ mem)

theorem Sectionless.ordersSections (h : holder.Sectionless) (htable : holder.isTable = false) :
    holder.OrdersSections where
  holds part hpart hsection :=
    absurd hsection (Bool.eq_false_iff.mp (h.parts htable part hpart).isSection)
  deeper part hpart outer houter inner hinner := by
    rw [heading?_of_not_isSection h.isSection] at houter
    cases houter
  descending := by
    refine List.pairwise_of_forall_mem_list fun block hblock next _ heading hheading ↦ ?_
    rw [heading?_of_not_isSection (h.parts htable block hblock).isSection] at hheading
    cases hheading

/-- A section that holds nested blocks orders the sections in it. -/
theorem Nested.ordersSections {info : ElementInfo} {level : Int}
    (h : Nested (some level) blocks) : (titledSection info level blocks).OrdersSections where
  holds _ _ _ := .inl rfl
  deeper part hpart outer houter inner hinner := by
    cases houter
    exact h.level_lt level rfl inner (mem_headingsOf_of_mem hpart hinner)
  descending := h.descending

/-- However deep, the elements in nested blocks order the sections in them. -/
theorem Nested.forall_ordersSections (h : Nested above blocks) (hmem : element ∈ blocks)
    (hblock : element.HasBlock holder) (htable : holder.isTable = false) :
    holder.OrdersSections := by
  induction h generalizing element with
  | nil => cases hmem
  | block sectionless others ih =>
    rcases List.mem_cons.mp hmem with rfl | hrest
    · exact (sectionless.of_hasBlock hblock).ordersSections htable
    · exact ih hrest hblock
  | titled deeper inner behind others ihInner ihOthers =>
    rcases List.mem_cons.mp hmem with rfl | hrest
    · cases hblock with
      | self => exact inner.ordersSections
      | inside _ mem has => exact ihInner mem has
    · exact ihOthers hrest hblock

/-- Every section in nested blocks, however deep, is one of those in document order. -/
theorem Nested.mem_sectionsOf (h : Nested above blocks) (hmem : element ∈ blocks)
    (hblock : element.HasBlock holder) (hsection : holder.isSection) :
    holder ∈ sectionsOf blocks := by
  induction h generalizing element with
  | nil => cases hmem
  | block sectionless others ih =>
    rcases List.mem_cons.mp hmem with rfl | hrest
    · exact absurd hsection (Bool.eq_false_iff.mp (sectionless holder hblock))
    · exact List.mem_append_right _ (ih hrest hblock)
  | titled deeper inner behind others ihInner ihOthers =>
    rcases List.mem_cons.mp hmem with rfl | hrest
    · refine List.mem_append_left _ ?_
      cases hblock with
      | self => exact List.mem_cons_self
      | inside _ mem has => exact List.mem_cons_of_mem _ (ihInner mem has)
    · exact List.mem_append_right _ (ihOthers hrest hblock)

/-- A preamble is made of blocks without sections. -/
theorem Nested.wrapPreamble (h : Nested above blocks) (hasHeader : Bool) :
    Nested above (Blocks.wrapPreamble hasHeader blocks) := by
  rcases Blocks.wrapPreamble_cases hasHeader blocks with
    heq | ⟨first, rest, sections, rfl, hnot, heq⟩
  · rwa [heq]
  · rw [heq]
    refine .block (sectionless_of_parts rfl fun part hpart ↦ ?_)
      (h.of_suffix (List.suffix_append _ _))
    exact h.sectionless (List.mem_append_left _ hpart) (hnot part hpart)

end Nested

end Element

namespace Blocks

open Element

section Body

variable {commentMarker : Text} {level : Option Nat} {lost : Option (List Line)}
  {lines dropped rest : List Line} {blocks : List Element} {titles : List TitleLine}

/-- A title ends a section if it is not deeper. -/
theorem endsSection_sectionTitle {marker title : Text} {level : Nat} :
    endsSection none (some level) (.sectionTitle marker title) = true ↔
      marker.length - 1 ≤ level := by
  rw [endsSection]
  exact decide_eq_true_iff

/-- No gap comes before lines that start with a title that would end a section. -/
theorem eq_nil_of_gap_of_endsSection {line : Line} {given behind : List Line} {closed : Nat}
    (hfirst : ∀ line ∈ lines.head?, endsSection none (some closed) line.shape)
    (hgap : Gap lines given (line :: behind)) :
    given = [] ∧ endsSection none (some closed) line.shape := by
  obtain ⟨hgiven, rfl⟩ := eq_of_gap_of_title
    (fun first hmem ↦ title_of_endsSection (hfirst first hmem)) hgap
  exact ⟨hgiven, hfirst line rfl⟩

/-- A body that starts with a title that would end a section of some level consists of sections,
none deeper than that. -/
theorem headings_of_body {closed : Nat}
    (h : Body commentMarker level lost lines blocks titles dropped rest)
    (hfirst : ∀ line ∈ lines.head?, endsSection none (some closed) line.shape) :
    ∀ block ∈ blocks, ∃ heading ∈ block.heading?, heading.level ≤ closed := by
  induction h generalizing closed with
  | ended => exact nofun
  | left => exact nofun
  | floating gap shape style others ih =>
    rw [(eq_nil_of_gap_of_endsSection hfirst gap).1] at style
    cases style
  | @opened level lost line marker title lines given rest behind unused dropped final inner blocks
      below titles gap shape goes style body others ihBody ihOthers =>
    have hends := (eq_nil_of_gap_of_endsSection hfirst gap).2
    rw [shape, endsSection_sectionTitle] at hends
    refine List.forall_mem_cons.mpr ⟨⟨_, rfl, Int.ofNat_le.mpr hends⟩, ihOthers ?_⟩
    intro next hnext
    have hnextEnds := ends_of_body_rest body next hnext
    obtain ⟨nextMarker, nextTitle, hshape⟩ := title_of_endsSection hnextEnds
    rw [hshape, endsSection_sectionTitle] at hnextEnds ⊢
    omega
  | block gap shape here read others ih =>
    have hends := (eq_nil_of_gap_of_endsSection hfirst gap).2
    obtain ⟨marker, title, hshape⟩ := title_of_endsSection hends
    exact absurd hshape (shape marker title)

/-- The sections in a body are nested. -/
theorem nested_of_body (h : Body commentMarker level lost lines blocks titles dropped rest) :
    Nested (level.map Int.ofNat) blocks := by
  induction h with
  | ended => exact .nil
  | left => exact .nil
  | floating gap shape style others ih => exact .block (sectionless_of_no_parts rfl rfl) ih
  | @opened level lost line marker title lines given rest behind unused dropped final inner blocks
      below titles gap shape goes style body others ihBody ihOthers =>
    refine .titled (fun outer houter ↦ ?_) ihBody
      (headings_of_body others (ends_of_body_rest body)) ihOthers
    obtain ⟨enclosing, rfl, rfl⟩ := Option.map_eq_some_iff.mp houter
    rw [shape] at goes
    have hdeeper := Bool.eq_false_iff.mp goes
    rw [ne_eq, endsSection_sectionTitle] at hdeeper
    exact Int.ofNat_lt.mpr (Nat.lt_of_not_le hdeeper)
  | block gap shape here read others ih =>
    exact .block ((blockMade_of_readBlock here read).sectionless (.inr shape)) ih

end Body

/-- The tree of the sections of a document is the one that their headings determine. There are no
sections but those in document order, and each element orders the sections in it. -/
structure SectionTree (document : Document) : Prop where
  parents : outlineOf none document.blocks = withNearestSmaller [] (headingsOf document.blocks)
  complete : ∀ held, (Element.document document).HasBlock held → held.isSection →
    held ∈ sectionsOf document.blocks
  orders : ∀ holder, (Element.document document).HasBlock holder → holder.isTable = false →
    holder.OrdersSections

section Documents

variable {commentMarker text : Text} {document : Document}

theorem sectionTree_of_nested (h : Nested none document.blocks) : SectionTree document where
  parents := outlineOf_of_nested h fun _ _ _ _ ↦ rfl
  complete held hheld hsection := by
    cases hheld with
    | self => cases hsection
    | inside _ mem has => exact h.mem_sectionsOf mem has hsection
  orders holder hholder htable := by
    cases hholder with
    | self => exact ⟨fun _ _ _ ↦ .inr ⟨document, rfl⟩, nofun, h.descending⟩
    | inside _ mem has => exact h.forall_ordersSections mem has htable

/-- A document whose blocks are read as a body, with or without a preamble around the first ones,
has the tree of sections that its headings determine. -/
theorem sectionTree_of_readBlocks {steps : Nat} {before behind : ReadState}
    {blocks : List Element} {hasHeader : Bool}
    (hread : readBlocks commentMarker steps none none .empty before = .ok blocks behind)
    (hblocks : document.blocks = wrapPreamble hasHeader blocks) : SectionTree document := by
  obtain ⟨titles, dropped, hbody⟩ := body_of_readBlocks hread none
  refine sectionTree_of_nested ?_
  rw [hblocks]
  exact (nested_of_body hbody).wrapPreamble hasHeader

/-- In a document that is made of a text, and in every document inside its table cells, a section is
held by the nearest section before it that has a smaller level, and by the document if there is
none; a section holds deeper sections only, and behind a section there are only sections, none
deeper than it. -/
theorem sectionTree_of_ofText (h : (Document.ofText commentMarker text).1 = .ok document) :
    SectionTree document ∧
      ∀ cell, (Element.document document).HasCell cell → ∀ inner ∈ cell.inner,
        SectionTree inner := by
  constructor
  · obtain ⟨head, begun, before, behind, blocks, -, -, hblocks, -, hdocument⟩ :=
      exists_readBlocks_of_ofText h
    exact sectionTree_of_readBlocks hblocks hdocument
  · intro cell hcell inner hinner
    obtain ⟨texts, steps, before, behind, -, -, hread⟩ :=
      readFromCell_of_ofText h hcell inner hinner
    exact sectionTree_of_readBlocks hread (wrapPreamble_false inner.blocks).symm

/-- Behind two levels left out, a section that goes back by one is held by the first one again; the
sections in a cell have a tree of their own. -/
theorem sectionTree_skipped_levels :
    let text : Text := "== A\n===== B\n=== C\n== D\n|===\na|=== X\n== Y\n|===".toList
    ∃ document, (Document.ofText "//".toList text).1 = .ok document ∧
      outlineOf none document.blocks =
        [(⟨1, 1⟩, none), (⟨4, 2⟩, some ⟨1, 1⟩), (⟨2, 3⟩, some ⟨1, 1⟩), (⟨1, 4⟩, none)] ∧
      (Element.document document).preorder.filterMap heading? =
        [⟨1, 1⟩, ⟨4, 2⟩, ⟨2, 3⟩, ⟨1, 4⟩, ⟨2, 6⟩, ⟨1, 7⟩] ∧
      SectionTree document ∧
      ∀ cell, (Element.document document).HasCell cell → ∀ inner ∈ cell.inner,
        SectionTree inner := by
  intro text
  obtain ⟨document, hdocument, hheadings⟩ := exists_of_okAnd (show okAnd
      (Document.ofText "//".toList text).1 (fun document ↦
        decide (outlineOf none document.blocks =
            [(⟨1, 1⟩, none), (⟨4, 2⟩, some ⟨1, 1⟩), (⟨2, 3⟩, some ⟨1, 1⟩), (⟨1, 4⟩, none)] ∧
          (Element.document document).preorder.filterMap heading? =
            [⟨1, 1⟩, ⟨4, 2⟩, ⟨2, 3⟩, ⟨1, 4⟩, ⟨2, 6⟩, ⟨1, 7⟩])) = true by decide +kernel)
  obtain ⟨houtline, hvisited⟩ := of_decide_eq_true hheadings
  exact ⟨document, hdocument, houtline, hvisited, sectionTree_of_ofText hdocument⟩

end Documents

end Blocks

end AsciidocSpans
