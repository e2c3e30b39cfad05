import AsciidocSpans.Conversion.Element
import AsciidocSpans.Proofs.Outcome

/-!
What was reported before does not matter. A conversion carries the log along and adds to it, but it
never reads the log; so from whatever log a step of it starts, it comes to the same result
(`Steady`). This file says so of the steps by which a single element is converted.
-/

set_option autoImplicit false
set_option relaxedAutoImplicit false

namespace AsciidocSpans.Converter

variable (converter : Converter)

section Searches

theorem steady_report (channel : LogChannel) (message : String) : Steady (report channel message) :=
  fun _ _ _ _ log ↦ ⟨(), log ++ [{ channel, level := .debug, message }], rfl, rfl⟩

theorem steady_assembled {α : Type} (built : Except AssemblyError α) :
    Steady (assembled built) := by
  cases built with
  | ok result => exact steady_pure result
  | error cause => exact steady_throw _

theorem steady_usable {α : Type} (value : Option α) : Steady (usable value) := by
  cases value with
  | some result => exact steady_pure result
  | none => exact steady_throw _

theorem steady_needMarker (asked : Bool) : Steady (converter.needMarker asked) := by
  rw [needMarker]
  split
  · exact steady_throw _
  · exact steady_pure ()

theorem steady_find (verbatim : Bool) (segments : List Text) (window : Window) :
    Steady (converter.find verbatim segments window) :=
  (steady_needMarker converter _).bind (yields_trivial _) fun _ _ ↦ steady_pure _

theorem steady_locateBefore (segments : List Text) (window : Window) (lookback : Value) :
    Steady (converter.locateBefore segments window lookback) := by
  rw [locateBefore]
  refine (steady_usable _).bind (yields_trivial _) fun highest _ ↦
    (steady_needMarker converter _).bind (yields_trivial _) fun _ _ ↦ ?_
  split
  · exact steady_pure _
  · exact (steady_report _ _).bind (yields_trivial _) fun _ _ ↦ steady_pure _

/-- A node that is built is passed on as the only one there is. -/
theorem steady_some {α : Type} (built : Except AssemblyError α) :
    Steady (do return some (← assembled built)) :=
  (steady_assembled built).bind (yields_trivial _) fun _ _ ↦ steady_pure _

theorem steady_single {α : Type} (built : Except AssemblyError α) :
    Steady (do return [← assembled built]) :=
  (steady_assembled built).bind (yields_trivial _) fun _ _ ↦ steady_pure _

end Searches

section Metadata

theorem steady_convertId (id : Option Text) (window : Window) :
    Steady (converter.convertId id window) := by
  match id with
  | none => exact steady_pure none
  | some [] => exact steady_pure none
  | some (c :: rest) =>
    refine (steady_locateBefore converter _ window _).bind (yields_trivial _) fun found _ ↦ ?_
    cases found with
    | none => exact steady_pure none
    | some location => exact steady_some _

theorem steady_convertBlockTitle (info : ElementInfo) (window : Window) :
    Steady (converter.convertBlockTitle info window) := by
  rw [convertBlockTitle]
  split
  · refine (steady_locateBefore converter _ window _).bind (yields_trivial _) fun found _ ↦ ?_
    cases found with
    | none => exact steady_pure none
    | some location => exact steady_some _
  · exact steady_pure none

theorem steady_convertTableAttributes (attributes : Attributes) (window : Window) :
    Steady (converter.convertTableAttributes attributes window) := by
  rw [convertTableAttributes]
  refine (steady_usable _).bind (yields_trivial _) fun shown _ ↦ ?_
  split
  · exact steady_pure none
  · refine (steady_usable _).bind (yields_trivial _) fun first _ ↦
      (steady_find converter _ _ _).bind (yields_trivial _) fun found _ ↦ ?_
    cases found with
    | none => exact steady_pure none
    | some bracket => exact steady_some _

theorem steady_convertNamedAttribute (info : ElementInfo) (name : Text) :
    Steady (converter.convertNamedAttribute info name) := by
  rw [convertNamedAttribute]
  split
  · refine (steady_find converter _ _ _).bind (yields_trivial _) fun found _ ↦ ?_
    cases found with
    | none => exact (steady_report _ _).bind (yields_trivial _) fun _ _ ↦ steady_pure none
    | some location => exact steady_some _
  · exact steady_pure none

theorem steady_convertNamedAttributes (info : ElementInfo) (names : List Value) :
    Steady (converter.convertNamedAttributes info names) := by
  induction names with
  | nil => exact steady_pure []
  | cons name rest ih =>
    rw [convertNamedAttributes.eq_def]
    split
    · next heq => cases heq
    · next heq =>
      cases heq
      exact (steady_convertNamedAttribute converter info _).bind (yields_trivial _) fun _ _ ↦
        ih.bind (yields_trivial _) fun _ _ ↦ steady_pure _
    · next heq =>
      cases heq
      split
      · exact steady_throw _
      · exact ih

theorem steady_convertImageAttributes (info : ElementInfo) :
    Steady (converter.convertImageAttributes info) :=
  (steady_usable _).bind (yields_trivial _) fun _ _ ↦
    (steady_convertNamedAttributes converter info _).bind (yields_trivial _) fun _ _ ↦
      steady_pure _

theorem steady_convertText? (kind : NodeKind) (value : Text) (window : Window) :
    Steady (converter.convertText? kind value window) := by
  rw [convertText?]
  refine (steady_find converter _ _ _).bind (yields_trivial _) fun found _ ↦ ?_
  cases found with
  | none => exact steady_pure none
  | some location => exact steady_some _

theorem steady_convertAuthorParts (author : Author) (column : Int) :
    Steady (converter.convertAuthorParts author column) := by
  rw [convertAuthorParts]
  refine (steady_convertText? converter _ _ _).bind (yields_trivial _) fun name _ ↦ ?_
  dsimp only
  split
  · exact (steady_convertText? converter _ _ _).bind (yields_trivial _) fun _ _ ↦ steady_pure _
  · exact steady_pure _

theorem steady_convertAuthors (column : Int) (authors : List Author) :
    Steady (converter.convertAuthors column authors) := by
  induction authors generalizing column with
  | nil => exact steady_pure []
  | cons author rest ih =>
    rw [convertAuthors]
    refine (steady_convertAuthorParts converter author column).bind (yields_trivial _)
      fun parts _ ↦ ?_
    split
    · exact (steady_assembled _).bind (yields_trivial _) fun _ _ ↦
        (ih _).bind (yields_trivial _) fun _ _ ↦ steady_pure _
    · exact (steady_report _ _).bind (yields_trivial _) fun _ _ ↦ ih column

end Metadata

section Simple

theorem steady_convertParagraphText (value : Text) (window : Window) :
    Steady (converter.convertParagraphText value window) := by
  rw [convertParagraphText]
  refine (steady_find converter _ _ _).bind (yields_trivial _) fun found _ ↦ ?_
  cases found with
  | none => exact steady_pure []
  | some location => exact steady_single _

theorem steady_convertParagraph (info : ElementInfo) (lines : List Text) (window : Window) :
    Steady (converter.convertParagraph info lines window) := by
  rw [convertParagraph]
  refine (steady_find converter _ _ _).bind (yields_trivial _) fun found _ ↦ ?_
  cases found with
  | none => exact steady_pure []
  | some location =>
    exact (steady_convertBlockTitle converter info window).bind (yields_trivial _) fun title _ ↦
      (steady_assembled _).bind (yields_trivial _) fun leaf _ ↦ steady_single _

theorem steady_convertListing (info : ElementInfo) (lines : List Text) (language : Option Text)
    (window : Window) : Steady (converter.convertListing info lines language window) := by
  rw [convertListing]
  refine (steady_find converter _ _ _).bind (yields_trivial _) fun found _ ↦ ?_
  cases found with
  | none => exact steady_pure []
  | some location =>
    exact (steady_convertBlockTitle converter info window).bind (yields_trivial _) fun title _ ↦
      steady_single _

theorem steady_ownLine (info : ElementInfo) : Steady (converter.ownLine info) := by
  rw [ownLine]
  split
  · exact steady_pure _
  · exact steady_throw _

theorem steady_convertImage (info : ElementInfo) (window : Window) :
    Steady (converter.convertImage info window) := by
  rw [convertImage]
  refine (steady_ownLine converter info).bind (yields_trivial _) fun raw _ ↦
    (steady_find converter _ _ _).bind (yields_trivial _) fun found _ ↦ ?_
  cases found with
  | none => exact steady_pure []
  | some location =>
    exact (steady_convertBlockTitle converter info window).bind (yields_trivial _) fun title _ ↦
      (steady_convertImageAttributes converter info).bind (yields_trivial _) fun attributes _ ↦
        (steady_assembled _).bind (yields_trivial _) fun leaf _ ↦ steady_single _

theorem steady_convertTableOfContents (info : ElementInfo) (window : Window) :
    Steady (converter.convertTableOfContents info window) :=
  (steady_ownLine converter info).bind (yields_trivial _) fun _ _ ↦
    (steady_convertText? converter _ _ window).bind (yields_trivial _) fun _ _ ↦ steady_pure _

theorem steady_wrapped (kind : NodeKind) (children : List Node) :
    Steady (converter.wrapped kind children) := by
  rw [wrapped]
  split
  · exact steady_pure []
  · exact steady_single _

theorem steady_wrappedWithTitle (kind : NodeKind) (info : ElementInfo) (children : List Node)
    (window : Window) : Steady (converter.wrappedWithTitle kind info children window) := by
  rw [wrappedWithTitle]
  split
  · exact steady_pure []
  · exact (steady_convertBlockTitle converter info window).bind (yields_trivial _) fun title _ ↦
      steady_single _

theorem steady_convertHeader (id : Option Text) (header : Header) (window : Window) :
    Steady (converter.convertHeader id header window) := by
  rw [convertHeader]
  refine (steady_convertId converter id _).bind (yields_trivial _) fun idNode _ ↦
    (steady_convertText? converter _ _ _).bind (yields_trivial _) fun title _ ↦ ?_
  split
  · exact (steady_convertAuthors converter 0 header.authors).bind (yields_trivial _) fun _ _ ↦
      steady_pure _
  · exact (steady_pure []).bind (yields_trivial _) fun _ _ ↦ steady_pure _

theorem steady_reportOmission (element : Element) (nodes : List Node) :
    Steady (reportOmission element nodes) := by
  rw [reportOmission]
  split
  · exact steady_report _ _
  · exact steady_pure ()

/-- The node of a document around what there is in it. -/
theorem steady_root (children : List Node) :
    Steady (do
      if children.isEmpty then return []
      else return [← assembled (Node.documentAround converter.source children)] :
      Conversion (List Node)) := by
  split
  · exact steady_pure []
  · exact steady_single _

end Simple

end AsciidocSpans.Converter
