import AsciidocSpans.Proofs.Attributes.Identifier
import AsciidocSpans.Proofs.Blocks.Adequacy
import AsciidocSpans.Proofs.Element.Returnless
import AsciidocSpans.Proofs.Line.Returnless
import AsciidocSpans.Proofs.Text.LineEndings

/-!
Reading lines without carriage returns (`Clean`). Whatever is read from such lines holds no carriage
return either, as far as it is looked for: titles and ids, the lines of paragraphs, the texts of
items, the names of authors (`returnless_of_ofText`; `BlocksMade.returnless` and the theorems beside
it say so of the blocks, by induction on what was read). Of a table nothing is said about what its
cells hold.

A text with carriage returns before its newlines makes the same document, whatever else stands in it
(`ofText_withReturns`).
-/

set_option autoImplicit false
set_option relaxedAutoImplicit false

namespace AsciidocSpans

open Text Line

namespace Blocks

open Element

/-- No carriage return stands in any of some lines. -/
def Clean (lines : List Line) : Prop :=
  ∀ line ∈ lines, line.Returnless

variable {commentMarker : Text} {lines rest : List Line} {line first : Line} {metadata : Metadata}

theorem Clean.suffix (h : Clean lines) (hrest : rest <:+ lines) : Clean rest :=
  fun line hline ↦ h line (hrest.subset hline)

theorem Clean.head (h : Clean (line :: rest)) : line.Returnless :=
  h line List.mem_cons_self

theorem Clean.tail (h : Clean (line :: rest)) : Clean rest :=
  h.suffix (List.suffix_cons line rest)

section Texts

theorem not_mem_paragraphTail (attached : Bool) (h : Clean lines) :
    ∀ text ∈ (paragraphTail attached lines).1, '\r' ∉ text := by
  induction lines with
  | nil => exact List.forall_mem_nil _
  | cons line rest ih =>
    have hline : '\r' ∉ trimRight line.input :=
      not_mem_of_isInfix h.head.input (isPrefix_trimRight _).isInfix
    rw [paragraphTail]
    split
    · exact List.forall_mem_nil _
    · exact ih h.tail
    · split
      · exact List.forall_mem_nil _
      · exact List.forall_mem_cons.mpr ⟨hline, ih h.tail⟩

theorem not_mem_paragraphLines (attached : Bool) (h : Clean (first :: rest)) :
    ∀ text ∈ (paragraphLines attached first rest).1, '\r' ∉ text :=
  List.forall_mem_cons.mpr
    ⟨not_mem_of_isInfix h.head.input (isPrefix_trimRight _).isInfix,
      not_mem_paragraphTail attached h.tail⟩

theorem not_mem_dedent {texts : List Text} (h : ∀ text ∈ texts, '\r' ∉ text) :
    ∀ text ∈ dedent texts, '\r' ∉ text := by
  rw [dedent]
  split
  · intro text htext
    obtain ⟨whole, hwhole, rfl⟩ := List.mem_map.mp htext
    exact not_mem_of_isInfix (h whole hwhole) (List.drop_suffix _ whole).isInfix
  · exact h

theorem not_mem_map_trim {texts : List Text} (h : ∀ text ∈ texts, '\r' ∉ text) :
    ∀ text ∈ texts.map trim, '\r' ∉ text := by
  intro text htext
  obtain ⟨whole, hwhole, rfl⟩ := List.mem_map.mp htext
  exact not_mem_of_isInfix (h whole hwhole) (isInfix_trim whole)

theorem not_mem_itemTail (h : Clean lines) : ∀ text ∈ (itemTail lines).1, '\r' ∉ text := by
  induction lines with
  | nil => exact List.forall_mem_nil _
  | cons line rest ih =>
    have hline : '\r' ∉ trim line.input := not_mem_of_isInfix h.head.input (isInfix_trim _)
    rw [itemTail]
    split
    · exact List.forall_mem_cons.mpr ⟨hline, ih h.tail⟩
    · exact List.forall_mem_cons.mpr ⟨hline, ih h.tail⟩
    · exact ih h.tail
    · exact List.forall_mem_nil _

theorem not_mem_itemText {text : Text} (htext : '\r' ∉ text) (h : Clean lines) :
    '\r' ∉ (itemText text lines).1 :=
  not_mem_unlines (List.forall_mem_cons.mpr ⟨htext, not_mem_itemTail h⟩)

/-- The terms of a run and the description on the line of the last of them. -/
theorem returnless_termRun (delimiter : Text) (h : Clean lines) :
    ReturnlessItems (termRun delimiter lines).terms ∧
      ∀ description ∈ (termRun delimiter lines).description, '\r' ∉ description.2 := by
  induction lines with
  | nil => exact ⟨trivial, forall_mem_none⟩
  | cons line rest ih =>
    rw [termRun]
    split
    · next text marker description hshape =>
      have hparts := h.head.shape
      rw [hshape] at hparts
      have hitem : ReturnlessItem (plainItem line.number (some text)) :=
        ⟨forall_mem_some hparts.1, trivial⟩
      split
      · split
        · refine ⟨⟨hitem, trivial⟩, fun found hfound ↦ ?_⟩
          cases hfound
          exact hparts.2 _ rfl
        · exact ⟨⟨hitem, (ih h.tail).1⟩, (ih h.tail).2⟩
      · exact ⟨trivial, forall_mem_none⟩
    · exact ⟨trivial, forall_mem_none⟩

end Texts

section Elements

/-- A metadata line adds a title or an id that stands in it. -/
theorem returnless_add? {shape : Line.Shape} (hmetadata : metadata.Returnless)
    (hshape : shape.Returnless) : ((metadata.add? shape).getD metadata).Returnless := by
  cases shape with
  | blockAnchor id reftext =>
    exact ⟨hmetadata.title, forall_mem_some hshape⟩
  | blockTitle title =>
    exact ⟨forall_mem_some hshape, hmetadata.id⟩
  | blockAttributes body =>
    change (metadata.addAttributes (AttributeList.parse body)).Returnless
    rw [Metadata.addAttributes]
    split
    · next id hid =>
      exact ⟨hmetadata.title, forall_mem_some fun hreturn ↦
        hshape (AttributeList.subset_of_id hid hreturn)⟩
    · exact ⟨hmetadata.title, hmetadata.id⟩
  | _ => exact hmetadata

theorem returnless_makeParagraph {entries : Attributes} {texts : List Text}
    (h : ∀ text ∈ texts, '\r' ∉ text) :
    (makeParagraph entries metadata first texts).Returnless := by
  have hinfo : ElementInfo.Returnless { lineno := first.number } := returnless_of_lineno _
  unfold makeParagraph
  dsimp only
  split
  · exact ⟨hinfo, not_mem_map_trim h, trivial⟩
  · split_ifs
    · trivial
    · exact ⟨hinfo, ⟨hinfo, h⟩, trivial⟩
    · trivial
    · exact ⟨hinfo, not_mem_dedent h⟩
    · exact ⟨hinfo, not_mem_map_trim h⟩
    · exact ⟨hinfo, h⟩

theorem returnless_makeList {number : Int} {kind : ListKind} {marker : Text}
    {items : List ListItem} (h : ReturnlessItems items) :
    (makeList number kind marker items).Returnless :=
  ⟨⟨forall_mem_none, forall_mem_none⟩, h⟩

theorem returnless_makeDelimited {number : Int} {kind : DelimitedKind} {blocks : List Element}
    (h : ReturnlessAll blocks) : (makeDelimited metadata number kind blocks).Returnless := by
  have hinfo : ElementInfo.Returnless { lineno := number } := returnless_of_lineno _
  rcases makeDelimited_cases metadata number kind blocks with ⟨_, heq⟩ | ⟨_, -, heq⟩ | heq
  · rw [heq]
    exact ⟨hinfo, nofun, h⟩
  · rw [heq]
    exact ⟨hinfo, h⟩
  · rw [heq]
    trivial

end Elements

/-! ### The grammar -/

section Leaves

variable {element : Element}

/-- The content of a verbatim block holds no carriage returns. -/
theorem not_mem_contentBefore (closes : Line.Shape → Bool) (h : Clean lines) :
    ∀ text ∈ (contentBefore closes lines).map (·.input), '\r' ∉ text := by
  intro text htext
  obtain ⟨line, hline, rfl⟩ := List.mem_map.mp htext
  exact (h line ((splitAtClosing_suffix _ lines).2.subset hline)).input

theorem LeafMade.returnless {place : Place} {behind : List Line}
    (h : LeafMade place metadata line rest element behind) (hs : Clean (line :: rest)) :
    element.Returnless := by
  have hshape := hs.head.shape
  cases h with
  | paragraph => exact returnless_makeParagraph (not_mem_paragraphLines _ hs)
  | admonition shape =>
    rw [shape] at hshape
    exact ⟨returnless_of_lineno _,
      List.forall_mem_cons.mpr ⟨hshape, not_mem_paragraphTail _ hs.tail⟩, trivial⟩
  | literal => exact ⟨returnless_of_lineno _, not_mem_contentBefore _ hs.tail⟩
  | _ => trivial

theorem Passes.returnless {waiting : Metadata} {middle : List Line}
    (h : Passes metadata line rest waiting middle) (hmetadata : metadata.Returnless)
    (hline : line.Returnless) : waiting.Returnless := by
  cases h with
  | line => exact returnless_add? hmetadata hline.shape
  | commentBlock => exact hmetadata

theorem DescriptionMade.returnless {delimiter : Text} {number : Int} {text : Option Text}
    {behind : List Line} (h : DescriptionMade (termRun delimiter lines) number text behind)
    (hs : Clean lines) : ∀ shown ∈ text, '\r' ∉ shown := by
  have hrest := hs.suffix (termRun_suffix delimiter lines)
  cases h with
  | onTerm given =>
    exact forall_mem_some (not_mem_itemText ((returnless_termRun delimiter hs).2 _ given) hrest)
  | below here =>
    have hhere := hrest.suffix (here ▸ significant_suffix _)
    exact forall_mem_some
      (not_mem_itemText (not_mem_of_isInfix hhere.head.input (isInfix_trim _)) hhere.tail)
  | missing => exact forall_mem_none

/-- The terms of an entry and its description, if that is kept. -/
theorem returnlessEntries_termRun {delimiter : Text} {number : Int} {text : Option Text}
    {blocks : List Element} {entries : List DescriptionEntry} (hs : Clean lines)
    (htext : ∀ shown ∈ text, '\r' ∉ shown) (hblocks : ReturnlessAll blocks)
    (h : ReturnlessEntries entries) (isKept : Bool) :
    ReturnlessEntries ({
      terms := (termRun delimiter lines).terms
      description := if isKept then some { plainItem number text with blocks } else none } ::
        entries) := by
  refine returnlessEntries_cons (returnless_termRun delimiter hs).1 ?_ h
  cases isKept with
  | false => exact forall_mem_none
  | true => exact forall_mem_some ⟨htext, hblocks⟩

/-- A table may hold anything: what its cells hold is left out. -/
theorem returnless_makeTable (number : Int) (separator : Char) (content : List Line)
    (given : Attributes) (cells : List TableCell) :
    (makeTable number separator content given cells).Returnless := by
  obtain ⟨_, _, _, _, heq, -⟩ := exists_makeTable number separator content given cells
  rw [heq]
  trivial

end Leaves

mutual

/-- No block that is read from clean lines is looked for by a carriage return. -/
theorem BlocksMade.returnless {terminator : Option Text} {level : Option Nat}
    {metadata : Metadata} {lines behind : List Line} {blocks : List Element}
    (h : BlocksMade commentMarker terminator level metadata lines blocks behind)
    (hmetadata : metadata.Returnless) (hs : Clean lines) : ReturnlessAll blocks := by
  match h with
  | .ended => trivial
  | .closed _ => trivial
  | .left _ => trivial
  | .passed passes others =>
    exact others.returnless (passes.returnless hmetadata hs.head) (hs.suffix passes.suffix)
  | .block _ first others =>
    exact ⟨first.returnless hmetadata hs,
      others.returnless returnless_empty (hs.tail.suffix first.suffix)⟩
termination_by structural h

theorem BlockMade.returnless {place : Place} {metadata : Metadata} {line : Line}
    {rest behind : List Line} {element : Element}
    (h : BlockMade commentMarker place metadata line rest element behind)
    (hmetadata : metadata.Returnless) (hs : Clean (line :: rest)) : element.Returnless := by
  match h with
  | .leaf made => exact Returnless.attach (made.returnless hs) hmetadata
  | .opened shape _ _ read =>
    have hshape := hs.head.shape
    rw [shape] at hshape
    exact Returnless.attach
      ⟨⟨forall_mem_some hshape, forall_mem_none⟩, read.returnless returnless_empty hs.tail⟩
      ⟨forall_mem_none, hmetadata.id⟩
  | .delimited _ _ read =>
    exact Returnless.attach
      (returnless_makeDelimited (read.returnless returnless_empty hs.tail)) hmetadata
  | .list _ read => exact Returnless.attach (returnless_makeList (read.returnless hs)) hmetadata
  | .descriptionList _ read =>
    exact Returnless.attach ⟨returnless_of_lineno _, read.returnless hs⟩ hmetadata
  | .table _ _ _ =>
    exact Returnless.attach (returnless_makeTable _ _ _ _ _) ⟨hmetadata.title, hmetadata.id⟩
termination_by structural h

theorem ItemsMade.returnless {markers : List Text} {marker : Text} {lines behind : List Line}
    {items : List ListItem} (h : ItemsMade commentMarker markers marker lines items behind)
    (hs : Clean lines) : ReturnlessItems items := by
  match h with
  | .ended _ => trivial
  | .item here shape attached others =>
    have hhere := hs.suffix (here ▸ significant_suffix _)
    have hrest := hhere.tail.suffix (itemTail_suffix _)
    have hshape := hhere.head.shape
    rw [shape] at hshape
    exact ⟨⟨forall_mem_some (not_mem_itemText hshape hhere.tail), attached.returnless hrest⟩,
      others.returnless (hrest.suffix attached.suffix)⟩
termination_by structural h

theorem AttachmentsMade.returnless {markers : List Text} {lines behind : List Line}
    {blocks : List Element} (h : AttachmentsMade commentMarker markers lines blocks behind)
    (hs : Clean lines) : ReturnlessAll blocks := by
  match h with
  | .ended _ => trivial
  | .attached _ block others =>
    exact (block.returnless returnless_empty hs.tail).append
      (others.returnless (hs.tail.suffix block.suffix))
  | .list here _ _ read others =>
    have hhere := hs.suffix (here ▸ significant_suffix _)
    exact ⟨returnless_makeList (read.returnless hhere),
      others.returnless (hhere.suffix read.suffix.1)⟩
  | .paragraph here _ others =>
    have hhere := hs.suffix (here ▸ significant_suffix _)
    exact ⟨⟨returnless_of_lineno _, not_mem_dedent (not_mem_paragraphLines true hhere)⟩,
      others.returnless (hhere.tail.suffix (paragraphLines_suffix true _ _))⟩
termination_by structural h

theorem AttachedMade.returnless {metadata : Metadata} {lines behind : List Line}
    {found : Option Element} (h : AttachedMade commentMarker metadata lines found behind)
    (hmetadata : metadata.Returnless) (hs : Clean lines) : ReturnlessAll found.toList := by
  match h with
  | .ended => trivial
  | .passed passes more =>
    exact more.returnless (passes.returnless hmetadata hs.head) (hs.suffix passes.suffix)
  | .block block => exact ⟨block.returnless hmetadata hs, trivial⟩
termination_by structural h

theorem EntriesMade.returnless {delimiter : Text} {lines behind : List Line}
    {entries : List DescriptionEntry}
    (h : EntriesMade commentMarker delimiter lines entries behind) (hs : Clean lines) :
    ReturnlessEntries entries := by
  match h with
  | .ended _ => trivial
  | .entry here _ description attached others =>
    have hhere := hs.suffix (here ▸ significant_suffix _)
    have hbelow := hhere.suffix (description.suffix.trans (termRun_suffix _ _))
    exact returnlessEntries_termRun hhere (description.returnless hhere)
      (attached.returnless hbelow) (others.returnless (hbelow.suffix attached.suffix)) _
termination_by structural h

theorem DescriptionAttachmentsMade.returnless {delimiter : Text} {lines behind : List Line}
    {blocks : List Element}
    (h : DescriptionAttachmentsMade commentMarker delimiter lines blocks behind)
    (hs : Clean lines) : ReturnlessAll blocks := by
  match h with
  | .ended => trivial
  | .attached _ block others =>
    exact (block.returnless returnless_empty hs.tail).append
      (others.returnless (hs.tail.suffix block.suffix))
  | .list here _ read others =>
    have hhere := hs.suffix (here ▸ significant_suffix _)
    exact ⟨returnless_makeList (read.returnless hhere),
      others.returnless (hhere.suffix read.suffix.1)⟩
  | .descriptionList here _ _ read others =>
    have hhere := hs.suffix (here ▸ significant_suffix _)
    exact ⟨⟨returnless_of_lineno _, read.returnless hhere⟩,
      others.returnless (hhere.suffix read.suffix.1)⟩
termination_by structural h

end

section Headers

/-- The name and the address that an author entry is split into stand in it. -/
theorem subset_of_splitAddress? {before text name address : Text}
    (h : splitAddress? before text = some (name, address)) :
    name ⊆ before ++ text ∧ address ⊆ text ∧ name ≠ [] := by
  induction text generalizing before with
  | nil => cases h
  | cons c rest ih =>
    rw [splitAddress?] at h
    split at h
    · next hsplit =>
      cases h
      have hname : trimRight before ⊆ before := (isPrefix_trimRight before).subset
      exact ⟨fun d hd ↦ List.mem_append_left _ (hname hd),
        fun d hd ↦ List.mem_cons_of_mem c ((List.dropLast_prefix rest).subset hd), hsplit.2.1⟩
    · obtain ⟨hname, haddress, hnamed⟩ := ih h
      rw [List.append_assoc, List.singleton_append] at hname
      exact ⟨hname, fun d hd ↦ List.mem_cons_of_mem c (haddress hd), hnamed⟩

/-- What an author entry names stands in it, and the name is never empty. -/
theorem subset_of_authorParts? {entry name : Text} {email : Option Text}
    (h : authorParts? entry = some (name, email)) :
    name ⊆ entry ∧ (∀ address ∈ email, address ⊆ entry) ∧ name ≠ [] := by
  have hentry : trim entry ⊆ entry := (isInfix_trim entry).subset
  rw [authorParts?] at h
  split at h
  · obtain ⟨c, hc, hparts⟩ := Option.map_eq_some_iff.mp h
    cases hparts
    exact ⟨List.cons_subset.mpr ⟨List.mem_of_getLast? hc, List.nil_subset entry⟩, nofun, nofun⟩
  · next htrimmed =>
    split at h
    · next found address hsplit =>
      cases h
      obtain ⟨hname, haddress, hnamed⟩ := subset_of_splitAddress? hsplit
      exact ⟨List.Subset.trans hname hentry,
        forall_mem_some (List.Subset.trans haddress hentry), hnamed⟩
    · cases h
      exact ⟨hentry, nofun, htrimmed⟩

theorem returnless_authorsOf (h : line.Returnless) :
    ∀ author ∈ authorsOf line, author.Returnless := by
  intro author hauthor
  obtain ⟨entry, hentry, hparts⟩ := List.mem_filterMap.mp hauthor
  obtain ⟨⟨name, email⟩, hfound, rfl⟩ := Option.map_eq_some_iff.mp hparts
  obtain ⟨hname, hemail, hnamed⟩ := subset_of_authorParts? hfound
  have hclean : '\r' ∉ entry := not_mem_cutAt h.input hentry
  exact ⟨fun hreturn ↦ hclean (hname hreturn), hnamed,
    fun address haddress hreturn ↦ hclean (hemail address haddress hreturn)⟩

theorem returnless_authorLines (h : Clean lines) :
    ∀ author ∈ (authorLines lines).1, author.Returnless := by
  rw [authorLines.eq_def]
  split
  · exact nofun
  · have hfirst := returnless_authorsOf h.head
    split
    · split
      · split <;> exact hfirst
      · exact hfirst
    · exact nofun

/-- The metadata that stands before a document title. -/
theorem cleanly_scanHeader (opened : Option (Text × Int)) {s : ReadState}
    (hmetadata : metadata.Returnless) (h : Clean lines) :
    Comes (scanHeader opened metadata lines) s
      fun waiting behind ↦ Clean behind ∧ waiting.Returnless := by
  induction lines generalizing opened metadata s with
  | nil => cases opened <;> exact ⟨h, hmetadata⟩
  | cons line rest ih =>
    have hparts := h.head.shape
    cases opened with
    | some block =>
      rw [scanHeader]
      split
      · exact ih none hmetadata h.tail
      · exact ih _ hmetadata h.tail
    | none =>
      rw [scanHeader.eq_def]
      dsimp only
      cases hshape : line.shape with
      | blank | comment => exact ih none hmetadata h.tail
      | commentDelimiter delimiter => exact ih _ hmetadata h.tail
      | attributeEntry name value =>
        exact Runs.bind_of_eq (x := recordEntry name value) rfl (ih none hmetadata h.tail)
      | blockAnchor | blockAttributes | blockTitle =>
        rw [hshape] at hparts
        exact ih none (returnless_add? hmetadata hparts) h.tail
      | _ => exact Runs.bind_of_eq (x := setLines (line :: rest)) rfl (runs_pure ⟨h, hmetadata⟩)

/-- The header that is read holds no carriage return, nor does the id before its title. -/
theorem cleanly_readHeader {s : ReadState} (hs : Clean s.lines) :
    Comes readHeader s fun head behind ↦ Clean behind ∧
      ∀ read ∈ head, read.header.Returnless ∧ ∀ id ∈ read.header.info.id, '\r' ∉ id := by
  rw [readHeader]
  refine Runs.bind_of_eq (x := get) rfl ?_
  refine (cleanly_scanHeader none returnless_empty hs).bind fun metadata scanned hscanned ↦ ?_
  refine Runs.bind_of_eq (x := get) rfl ?_
  cases hlines : scanned.lines with
  | nil => exact Runs.bind_of_eq (x := setLines s.lines) rfl (runs_pure ⟨hs, forall_mem_none⟩)
  | cons line rest =>
    have hall : Clean (line :: rest) := hlines ▸ hscanned.1
    have hparts := hall.head.shape
    dsimp only
    split
    · next title hshape =>
      rw [hshape] at hparts
      refine (runs_readHeaderEntries _ scanned).bind fun _ final hfinal ↦ runs_pure
        ⟨hall.tail.suffix (hfinal.trans (authorLines_suffix rest)), fun read hread ↦ ?_⟩
      cases hread
      exact ⟨⟨forall_mem_some hparts, returnless_authorLines hall.tail⟩, hscanned.2.id⟩
    · exact Runs.bind_of_eq (x := setLines s.lines) rfl (runs_pure ⟨hs, forall_mem_none⟩)

end Headers

section Documents

variable {commentMarker text : Text} {document : Document}

theorem returnlessAll_wrapPreamble (hasHeader : Bool) {blocks : List Element}
    (h : ReturnlessAll blocks) : ReturnlessAll (wrapPreamble hasHeader blocks) := by
  rcases wrapPreamble_cases hasHeader blocks with heq | ⟨first, rest, sections, rfl, -, heq⟩
  · rwa [heq]
  · obtain ⟨hbefore, hsections⟩ := List.forall_mem_append.mp (returnlessAll_iff.mp h)
    rw [heq]
    exact ⟨⟨returnless_of_lineno _, returnlessAll_iff.mpr hbefore⟩, returnlessAll_iff.mpr hsections⟩

/-- A text without carriage returns makes a document in which nothing is looked for by one. -/
theorem returnless_of_ofText (htext : '\r' ∉ text)
    (h : (Document.ofText commentMarker text).1 = .ok document) : document.Returnless := by
  obtain ⟨begun, last, hbegun, hdocument⟩ := exists_readDocument_of_ofText h
  have hclean : Clean begun.lines := by
    rw [hbegun]
    exact returnless_classifyAll (fun line hline ↦ not_mem_cutAt htext hline) 1
  have hread : Comes (readDocument commentMarker text.lines.length) begun
      fun document _ ↦ document.Returnless := by
    rw [readDocument]
    refine (cleanly_readHeader hclean).bind fun head middle hheader ↦ ?_
    obtain ⟨hmiddle, hhead⟩ := hheader
    refine (blocksMade_readBlocks commentMarker _ none none .empty middle).bind
      fun blocks final hmade ↦ Runs.bind_of_eq (x := get) rfl (runs_pure ?_)
    have hblocks :=
      returnlessAll_wrapPreamble head.isSome (hmade.returnless returnless_empty hmiddle)
    cases head with
    | none => exact ⟨⟨forall_mem_none, forall_mem_none⟩, forall_mem_none, hblocks⟩
    | some read =>
      obtain ⟨hheader, hid⟩ := hhead read rfl
      exact ⟨⟨forall_mem_none, hid⟩, forall_mem_some hheader, hblocks⟩
  exact hread.of_eq_ok hdocument

/-- Classifying the lines drops their carriage returns, so the same is read with them. -/
theorem readText_withReturns (commentMarker text : Text) :
    readText commentMarker text.withReturns = readText commentMarker text := by
  have hpadded := forall₂_padded_lines text
  rw [readText, readText]
  dsimp only
  rw [classifyAll_of_padded hpadded, hpadded.length_eq]

theorem ofText_withReturns (commentMarker text : Text) :
    Document.ofText commentMarker text.withReturns = Document.ofText commentMarker text := by
  rw [Document.ofText, readText_withReturns, Document.ofText]

end Documents

end Blocks

end AsciidocSpans
