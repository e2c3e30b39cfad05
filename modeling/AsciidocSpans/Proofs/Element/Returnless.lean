import AsciidocSpans.Blocks.Metadata

/-!
Elements whose texts hold no carriage return. `Returnless` is about the texts by which an element is
looked for: titles and ids, the lines of paragraphs and admonitions, the texts of items. Documents
and items are no blocks, so no block that is one counts as `Returnless`. Listings, tables, images
and tables of contents are left out (`isSetApart`): images and tables of contents are looked for by
the source line on which they stand, and tables by their cells.
-/

set_option autoImplicit false
set_option relaxedAutoImplicit false

namespace AsciidocSpans

/-- Neither the title nor the id of an element holds a carriage return. -/
structure ElementInfo.Returnless (info : ElementInfo) : Prop where
  title : ∀ title ∈ info.title, '\r' ∉ title
  id : ∀ id ∈ info.id, '\r' ∉ id

/-- Neither the title nor the id for the next block holds a carriage return. -/
structure Blocks.Metadata.Returnless (metadata : Metadata) : Prop where
  title : ∀ title ∈ metadata.title, '\r' ∉ title
  id : ∀ id ∈ metadata.id, '\r' ∉ id

/-- An author is looked for by a name, which is not empty, and an address. -/
structure Author.Returnless (author : Author) : Prop where
  name : '\r' ∉ author.name
  named : author.name ≠ []
  email : ∀ email ∈ author.email, '\r' ∉ email

/-- Neither the title of a header nor its authors hold a carriage return. -/
structure Header.Returnless (header : Header) : Prop where
  title : ∀ title ∈ header.info.title, '\r' ∉ title
  authors : ∀ author ∈ header.authors, author.Returnless

namespace Element

/-- Whether an element is a listing, a table, an image or a table of contents. -/
def isSetApart : Element → Bool
  | .listing .. | .table .. | .image .. | .tableOfContents _ => true
  | _ => false

mutual

/-- No text by which a block is looked for holds a carriage return, nor does any in it. -/
def Returnless : Element → Prop
  | .document _ | .listItem _ => False
  | .titledSection info _ blocks | .container info _ blocks =>
    info.Returnless ∧ ReturnlessAll blocks
  | .paragraph info _ lines => info.Returnless ∧ ∀ line ∈ lines, '\r' ∉ line
  | .list info _ _ items => info.Returnless ∧ ReturnlessItems items
  | .descriptionList info _ entries => info.Returnless ∧ ReturnlessEntries entries
  | .admonition info _ lines blocks =>
    info.Returnless ∧ (∀ line ∈ lines, '\r' ∉ line) ∧ ReturnlessAll blocks
  | .header _ | .author _ | .tableCell _ | .unhandled .. => True
  | .listing .. | .table .. | .image .. | .tableOfContents _ => True

/-- No text by which some blocks are looked for holds a carriage return. -/
def ReturnlessAll : List Element → Prop
  | [] => True
  | element :: rest => Returnless element ∧ ReturnlessAll rest

/-- No text by which an item is looked for holds a carriage return. -/
def ReturnlessItem : ListItem → Prop
  | ⟨_, text, _, blocks⟩ => (∀ shown ∈ text, '\r' ∉ shown) ∧ ReturnlessAll blocks

/-- No text by which some items are looked for holds a carriage return. -/
def ReturnlessItems : List ListItem → Prop
  | [] => True
  | item :: rest => ReturnlessItem item ∧ ReturnlessItems rest

/-- No text by which the items of some entries are looked for holds a carriage return. -/
def ReturnlessEntries : List DescriptionEntry → Prop
  | [] => True
  | ⟨terms, none⟩ :: rest => ReturnlessItems terms ∧ ReturnlessEntries rest
  | ⟨terms, some description⟩ :: rest =>
    ReturnlessItems terms ∧ ReturnlessItem description ∧ ReturnlessEntries rest

end

section Returnless

variable {metadata : Blocks.Metadata} {info : ElementInfo} {element : Element}

theorem returnless_of_lineno (number : Int) : ElementInfo.Returnless { lineno := number } :=
  ⟨nofun, nofun⟩

theorem returnless_empty : Blocks.Metadata.empty.Returnless :=
  ⟨nofun, nofun⟩

theorem returnlessAll_iff {blocks : List Element} :
    ReturnlessAll blocks ↔ ∀ element ∈ blocks, element.Returnless := by
  induction blocks with
  | nil => simp [ReturnlessAll]
  | cons first rest ih => simp [ReturnlessAll, ih]

theorem ReturnlessAll.append {blocks others : List Element} (h : ReturnlessAll blocks)
    (hothers : ReturnlessAll others) : ReturnlessAll (blocks ++ others) := by
  rw [returnlessAll_iff] at h hothers ⊢
  exact List.forall_mem_append.mpr ⟨h, hothers⟩

theorem forall_mem_some {α : Type} {P : α → Prop} {value : α} (h : P value) :
    ∀ shown ∈ some value, P shown :=
  fun _ hshown ↦ Option.mem_some.mp hshown ▸ h

theorem forall_mem_none {α : Type} {P : α → Prop} : ∀ shown ∈ (none : Option α), P shown :=
  fun shown hshown ↦ absurd hshown (Option.not_mem_none shown)

theorem forall_mem_orElse {P : Text → Prop} {first second : Option Text}
    (hfirst : ∀ text ∈ first, P text) (hsecond : ∀ text ∈ second, P text) :
    ∀ text ∈ first <|> second, P text := by
  cases first with
  | none => exact hsecond
  | some => exact hfirst

theorem returnlessEntries_cons {entry : DescriptionEntry} {rest : List DescriptionEntry}
    (hterms : ReturnlessItems entry.terms)
    (hdescription : ∀ description ∈ entry.description, ReturnlessItem description)
    (hrest : ReturnlessEntries rest) : ReturnlessEntries (entry :: rest) := by
  obtain ⟨terms, description⟩ := entry
  cases description with
  | none => exact ⟨hterms, hrest⟩
  | some description => exact ⟨hterms, hdescription description rfl, hrest⟩

/-- Metadata without carriage returns may be attached. -/
theorem returnless_applyTo (hmetadata : metadata.Returnless) (h : info.Returnless) :
    (metadata.applyTo info).Returnless :=
  ⟨forall_mem_orElse hmetadata.title h.title, forall_mem_orElse hmetadata.id h.id⟩

theorem Returnless.attach (h : element.Returnless) (hmetadata : metadata.Returnless) :
    (metadata.attach element).Returnless := by
  cases element with
  | titledSection | container | paragraph | list | descriptionList | admonition =>
    exact ⟨returnless_applyTo hmetadata h.1, h.2⟩
  | document | listItem => exact h.elim
  | _ => trivial

end Returnless

end Element

/-- No text by which a document is looked for holds a carriage return. -/
structure Document.Returnless (document : Document) : Prop where
  info : document.info.Returnless
  header : ∀ header ∈ document.header, header.Returnless
  blocks : Element.ReturnlessAll document.blocks

end AsciidocSpans
