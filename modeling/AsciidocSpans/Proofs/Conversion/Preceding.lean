import AsciidocSpans.Conversion.Document
import AsciidocSpans.Proofs.Conversion.Provenance
import AsciidocSpans.Proofs.Span.Preceding

/-!
Where ids and block titles are located. They are looked for before the window of the block that they
belong to. So the node of an id or a title stands above the window unless its text stands in the
first line of the window too and not on the line directly above (`precedes_of_findBefore?`). In that
case it is located in the block itself, although the id or the title is written further up
(`located_in_owner`).
-/

set_option autoImplicit false
set_option relaxedAutoImplicit false

namespace AsciidocSpans.Converter

/-- A node of some text was located before a window, no more than so many lines above it. -/
def LocatedBefore (converter : Converter) (raw : Text) (window : Window) (lookback : Int)
    (node : Node) : Prop :=
  converter.locator.Precedes false [raw] window (window.highestLine lookback) node.location

section Searches

variable {converter : Converter} {window : Window}

theorem one_le_highestLine (window : Window) (lookback : Int) : 1 ≤ window.highestLine lookback :=
  Int.le_max_left _ _

/-- What gives no result gives none that breaks a rule. -/
theorem yields_no_result {α : Type} (P : α → Prop) :
    Yields (pure none : Conversion (Option α)) fun result ↦ ∀ found ∈ result, P found :=
  yields_pure fun found hfound ↦ absurd hfound (Option.not_mem_none found)

/-- A search that goes back a number of lines locates segments before the window. -/
theorem yields_precedes (segments : List Text) (lookback : Int) :
    Yields (converter.locateBefore segments window (.integer lookback)) fun found ↦
      ∀ location ∈ found, converter.locator.Precedes false segments window
        (window.highestLine lookback) location := by
  have hhighest : (Value.integer lookback).highestLine? window =
      some (window.highestLine lookback) := rfl
  rw [locateBefore, hhighest, usable, pure_bind]
  refine (yields_trivial _).bind fun _ _ ↦ ?_
  split
  · next location hlocation =>
    refine yields_pure fun found hfound ↦ ?_
    cases hfound
    exact Locator.precedes_of_findBackTo? (one_le_highestLine window lookback) hlocation
  · exact (yields_trivial _).bind fun _ _ ↦ yields_no_result _

/-- The node around text that was located before a window has the span that was found. -/
theorem yields_locatedBefore (kind : NodeKind) (raw : Text) (lookback : Int) :
    Yields (do
      match ← converter.locateBefore [raw] window (.integer lookback) with
      | some location =>
        return some (← assembled (Node.aroundText converter.source kind raw location))
      | none => return none : Conversion (Option Node))
      fun result ↦ ∀ node ∈ result, converter.LocatedBefore raw window lookback node := by
  refine (yields_precedes [raw] lookback).bind fun found hfound ↦ ?_
  cases found with
  | none => exact yields_no_result _
  | some location =>
    refine (yields_assembled fun node hnode ↦ hnode).bind fun node hnode ↦
      yields_pure fun other hother ↦ ?_
    cases hother
    obtain ⟨range, leaf, -, -, rfl⟩ := aroundText_eq_ok hnode
    exact hfound location rfl

theorem yields_convertId_locatedBefore (id : Option Text) {lookback : Int}
    (hlookback : converter.settings.idLookback = .integer lookback) :
    Yields (converter.convertId id window) fun result ↦ ∀ node ∈ result,
      ∃ shown ∈ id, converter.LocatedBefore shown window lookback node := by
  cases id with
  | none => exact yields_no_result _
  | some shown =>
    cases shown with
    | nil => exact yields_no_result _
    | cons c rest =>
      rw [convertId, hlookback]
      intro s result s' hrun node hnode
      exact ⟨_, rfl, yields_locatedBefore .identifier (c :: rest) lookback s result s' hrun node
        hnode⟩

theorem yields_convertBlockTitle_locatedBefore (info : ElementInfo) {lookback : Int}
    (hlookback : converter.settings.titleLookback = .integer lookback) :
    Yields (converter.convertBlockTitle info window) fun result ↦ ∀ node ∈ result,
      ∃ title ∈ info.title, converter.LocatedBefore ('.' :: title) window lookback node := by
  rw [convertBlockTitle]
  cases info.title with
  | none => exact yields_no_result _
  | some title =>
    cases title with
    | nil => exact yields_no_result _
    | cons c rest =>
      rw [hlookback]
      intro s result s' hrun node hnode
      exact ⟨_, rfl, yields_locatedBefore .blockTitle ('.' :: c :: rest) lookback s result s' hrun
        node hnode⟩

end Searches

/-- A search before a window locates its text above the window, unless the text stands in the lines
of the window too. So does the conversion of an id or a block title of whatever block. -/
theorem precedes_of_findBefore? (locator : Locator) (settings : Settings) (text : Text)
    (window : Window) :
    (∀ verbatim segments lookback location,
      locator.findBefore? verbatim segments window lookback = some location →
        locator.Precedes verbatim segments window (window.highestLine lookback) location) ∧
    (∀ id, Yields ((ofText settings.loosen text).convertId id window) fun result ↦
      ∀ node ∈ result, ∃ shown ∈ id,
        (ofText settings.loosen text).LocatedBefore shown window settings.idLookback node) ∧
    ∀ info, Yields ((ofText settings.loosen text).convertBlockTitle info window) fun result ↦
      ∀ node ∈ result, ∃ title ∈ info.title, (ofText settings.loosen text).LocatedBefore
        ('.' :: title) window settings.titleLookback node :=
  ⟨fun _ _ lookback _ h ↦
      Locator.precedes_of_findBackTo? (one_le_highestLine window lookback) h,
    fun id ↦ yields_convertId_locatedBefore id rfl,
    fun info ↦ yields_convertBlockTitle_locatedBefore info rfl⟩

/-- An id is located in the attribute list above a title. -/
theorem precedes_idAbove :
    let locator : Locator :=
      { source := .ofText "[id='x']\n= Title".toList, commentMarker := "//".toList }
    let window : Window := { minLine := 2, maxLine := 2 }
    locator.findBefore? false ["x".toList] window 2 = some ⟨⟨1, 5⟩, ⟨1, 6⟩⟩ ∧
      locator.Precedes false ["x".toList] window (window.highestLine 2) ⟨⟨1, 5⟩, ⟨1, 6⟩⟩ := by
  intro locator window
  have hfound : locator.findBefore? false ["x".toList] window 2 = some ⟨⟨1, 5⟩, ⟨1, 6⟩⟩ := by
    decide
  exact ⟨hfound, (precedes_of_findBefore? locator .default [] window).1 false _ 2 _ hfound⟩

/-- Whether a text makes a tree with a node of a kind at a span. -/
def showsAt (text : Text) (kind : NodeKind) (location : Location) : Bool :=
  okAnd (locateText Settings.default.loosen text).1 fun root ↦
    root.nodes.any fun node ↦ node.kind == kind && node.location == location

/-- An id is found in the first line of the block that it belongs to, although it is written within
the lookback above it. So the id of a section is shown in the section's title, and the title of a
paragraph in the paragraph; behind a comment the span starts on the comment. -/
theorem located_in_owner :
    (let locator : Locator :=
        { source := .ofText "[[x]]\n.t\nx".toList, commentMarker := "//".toList }
      let window : Window := { minLine := 3, maxLine := 3 }
      ["x".toList] ≠ [] ∧ (0 : Int) ≤ 2 ∧
        locator.findBefore? false ["x".toList] window 2 = some ⟨⟨3, 0⟩, ⟨3, 1⟩⟩ ∧
        ¬(3 : Int) < window.minLine) ∧
    showsAt "[[x]]\n.t\n== x".toList .identifier ⟨⟨3, 3⟩, ⟨3, 4⟩⟩ ∧
    showsAt "[[x]]\n// c\n== x".toList .identifier ⟨⟨2, 0⟩, ⟨3, 4⟩⟩ ∧
    showsAt ".b\n[normal]\nx.b".toList .blockTitle ⟨⟨3, 1⟩, ⟨3, 3⟩⟩ := by
  decide +kernel

end AsciidocSpans.Converter
