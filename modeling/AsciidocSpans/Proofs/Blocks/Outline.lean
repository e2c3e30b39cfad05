import AsciidocSpans.Proofs.Blocks.CellDocuments
import AsciidocSpans.Proofs.Blocks.Header
import AsciidocSpans.Proofs.Blocks.Titles

/-!
The section titles of whole documents. A document is read from the lines of a text, and so is the
document inside a table cell; either way its blocks are a body, its sections are what was made of
the titles in that body, and every title is treated as `TitleLine.Ruled` says
(`titlesRuled_of_ofText`). So metadata reaches a section title unless the title closes a section:
then even an id on the line before it is lost (`id_lost_of_closing_title`).
-/

set_option autoImplicit false
set_option relaxedAutoImplicit false

namespace AsciidocSpans.Blocks

variable {commentMarker text : Text} {document : Document}

/-- The titles that were met while a document was read from texts, numbered from a first number
on. -/
def MetIn (commentMarker : Text) (number : Int) (texts : List Text) (document : Document)
    (titles : List TitleLine) : Prop :=
  ∃ (hasHeader : Bool) (lines : List Line) (blocks : List Element) (dropped : List Line),
    lines <:+ Line.classifyAll commentMarker number texts ∧
    document.blocks = wrapPreamble hasHeader blocks ∧
    Body commentMarker none none lines blocks titles dropped []

/-- The sections of a document are made of the titles that were met while it was read from a text,
and the metadata before the titles was treated by the rule. -/
def TitlesRuled (commentMarker : Text) (number : Int) (text : Text) (document : Document) : Prop :=
  ∃ (texts : List Text) (titles : List TitleLine), Text.unlines texts = text ∧
    MetIn commentMarker number texts document titles ∧ (∀ title ∈ titles, title.Ruled) ∧
    Element.sectionsOf document.blocks = (titles.map (·.made)).filter (·.isSection)

/-- Nothing ends the body of a document but the end of the lines. -/
theorem rest_eq_nil_of_body {level : Option Nat} {lost : Option (List Line)}
    {lines dropped rest : List Line} {blocks : List Element} {titles : List TitleLine}
    (h : Body commentMarker level lost lines blocks titles dropped rest) (hlevel : level = none) :
    rest = [] := by
  induction h with
  | ended => rfl
  | left gap ends =>
    subst hlevel
    rw [endsSection] at ends
    · cases ends
    · exact nofun
  | floating _ _ _ _ ih => exact ih hlevel
  | opened _ _ _ _ _ _ _ ih => exact ih hlevel
  | block _ _ _ _ _ ih => exact ih hlevel

theorem sectionsOf_append (blocks others : List Element) :
    Element.sectionsOf (blocks ++ others) =
      Element.sectionsOf blocks ++ Element.sectionsOf others := by
  induction blocks with
  | nil => rfl
  | cons element rest ih => rw [List.cons_append, Element.sectionsOf, ih, Element.sectionsOf,
      List.append_assoc]

theorem sectionsOf_eq_nil {blocks : List Element}
    (h : ∀ element ∈ blocks, element.isSection = false) : Element.sectionsOf blocks = [] := by
  induction blocks with
  | nil => rfl
  | cons element rest ih =>
    rw [Element.sectionsOf, Element.sections_of_not_isSection (h element List.mem_cons_self),
      ih fun other hother ↦ h other (List.mem_cons_of_mem _ hother)]
    rfl

/-- A preamble is made of blocks that are no sections. -/
theorem sectionsOf_wrapPreamble (hasHeader : Bool) (blocks : List Element) :
    Element.sectionsOf (wrapPreamble hasHeader blocks) = Element.sectionsOf blocks := by
  rcases wrapPreamble_cases hasHeader blocks with heq | ⟨first, rest, sections, rfl, hbefore, heq⟩
  · rw [heq]
  · rw [heq, sectionsOf_append, sectionsOf_eq_nil hbefore]
    rfl

/-- A document whose blocks are read as a body, with or without a preamble around the first ones,
has its titles treated by the rule. -/
theorem titlesRuled_of_readBlocks {number : Int} {texts : List Text} {steps : Nat}
    {before behind : ReadState} {blocks : List Element} {hasHeader : Bool}
    (hlines : before.lines <:+ Line.classifyAll commentMarker number texts)
    (hread : readBlocks commentMarker steps none none .empty before = .ok blocks behind)
    (hblocks : document.blocks = wrapPreamble hasHeader blocks) :
    TitlesRuled commentMarker number (Text.unlines texts) document := by
  obtain ⟨titles, dropped, hbody⟩ := body_of_readBlocks hread none
  rw [rest_eq_nil_of_body hbody rfl] at hbody
  refine ⟨texts, titles, rfl, ⟨hasHeader, before.lines, blocks, dropped, hlines, hblocks, hbody⟩,
    ruled_of_body hbody nofun, ?_⟩
  rw [hblocks, sectionsOf_wrapPreamble, sectionsOf_of_body hbody]

/-- In a document that was read from a text, and in every document inside its table cells, metadata
reaches the title that it precedes unless that title closes a section; then it reaches nothing. -/
theorem titlesRuled_of_ofText (h : (Document.ofText commentMarker text).1 = .ok document) :
    TitlesRuled commentMarker 1 text document ∧
      ∀ cell, (Element.document document).HasCell cell → ∀ inner ∈ cell.inner,
        TitlesRuled commentMarker inner.info.lineno cell.text inner := by
  obtain ⟨head, begun, before, behind, blocks, hbegun, hhead, hblocks, -, hdocument⟩ :=
    exists_readBlocks_of_ofText h
  constructor
  · have hsuffix : before.lines <:+ begun.lines :=
      (runs_readHeader_suffix (E := fun _ ↦ True) begun).of_eq_ok hhead
    rw [hbegun] at hsuffix
    have hruled := titlesRuled_of_readBlocks hsuffix hblocks hdocument
    rwa [Text.unlines_lines] at hruled
  · intro cell hcell inner hinner
    obtain ⟨texts, steps, opened, closed, htexts, hlines, hinnerRead⟩ :=
      readFromCell_of_ofText h hcell inner hinner
    rw [← htexts]
    refine titlesRuled_of_readBlocks ?_ hinnerRead (wrapPreamble_false inner.blocks).symm
    simp only [hlines, List.suffix_refl]

/-- Ids reach a first section and one inside it, and a style makes a title inside them float. -/
theorem titlesRuled_nested :
    ∃ document, (Document.ofText "//".toList
        "[[a]]\n== A\n\n[[b]]\n=== B\n\n[float]\n==== C".toList).1 = .ok document ∧
      (Element.sectionsOf document.blocks).map (·.info.id) = [some "a".toList, some "b".toList] ∧
      TitlesRuled "//".toList 1 "[[a]]\n== A\n\n[[b]]\n=== B\n\n[float]\n==== C".toList
        document := by
  obtain ⟨document, hdocument, hids⟩ := exists_of_okAnd (show okAnd (Document.ofText "//".toList
    "[[a]]\n== A\n\n[[b]]\n=== B\n\n[float]\n==== C".toList).1 (fun document ↦
      decide ((Element.sectionsOf document.blocks).map (·.info.id) =
        [some "a".toList, some "b".toList])) = true by decide +kernel)
  exact ⟨document, hdocument, of_decide_eq_true hids, (titlesRuled_of_ofText hdocument).1⟩

/-- The id and the style before a title are lost if the title closes a section: the section has no
id although its title follows an anchor, and a title follows a style that would make it float and
opens a section all the same. -/
theorem id_lost_of_closing_title :
    (∃ document, (Document.ofText "//".toList "== A\n\n[[x]]\n== B".toList).1 = .ok document ∧
      (Line.classify "//".toList "[[x]]".toList 3).shape = .blockAnchor "x".toList none ∧
      (Element.sectionsOf document.blocks).map (fun made ↦ (made.lineno, made.info.id)) =
        [(1, none), (4, none)]) ∧
    (∃ document, (Document.ofText "//".toList "== A\n\n[float]\n== B".toList).1 = .ok document ∧
      givenStyle (Line.classify "//".toList "[float]".toList 3) = some "float".toList ∧
      (Element.sectionsOf document.blocks).map (·.lineno) = [1, 4]) := by
  have hboth : (okAnd (Document.ofText "//".toList "== A\n\n[[x]]\n== B".toList).1 fun document ↦
        decide ((Line.classify "//".toList "[[x]]".toList 3).shape = .blockAnchor "x".toList none ∧
          (Element.sectionsOf document.blocks).map (fun made ↦ (made.lineno, made.info.id)) =
            [(1, none), (4, none)])) = true ∧
      (okAnd (Document.ofText "//".toList "== A\n\n[float]\n== B".toList).1 fun document ↦
        decide (givenStyle (Line.classify "//".toList "[float]".toList 3) = some "float".toList ∧
          (Element.sectionsOf document.blocks).map (·.lineno) = [1, 4])) = true := by
    decide +kernel
  constructor
  · obtain ⟨document, hdocument, hids⟩ := exists_of_okAnd hboth.1
    exact ⟨document, hdocument, of_decide_eq_true hids⟩
  · obtain ⟨document, hdocument, hlines⟩ := exists_of_okAnd hboth.2
    exact ⟨document, hdocument, of_decide_eq_true hlines⟩

end AsciidocSpans.Blocks
