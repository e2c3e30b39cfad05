import AsciidocSpans.Proofs.Attributes.Lookup
import AsciidocSpans.Proofs.Blocks.Lines
import Mathlib.Data.List.Induction

/-!
What stands between two blocks. A `Gap` is passed line by line: blank lines, comments, attribute
entries and metadata lines, and comment blocks as a whole. The metadata that waits behind a gap is
what its lines gave in turn (`Metadata.after`): the id is the last one given (`id_after`), and so is
the style (`style_after`).
-/

set_option autoImplicit false
set_option relaxedAutoImplicit false

namespace AsciidocSpans

/-- Whether a line alone gives no block, so that the metadata goes on waiting behind it. -/
def Line.Shape.isWaiting : Line.Shape → Bool
  | blank | comment _ | attributeEntry .. | blockAnchor .. | blockAttributes _ | blockTitle _ =>
    true
  | _ => false

namespace Blocks

open Line

/-- The lines behind a comment block whose opening line has been read. -/
def behindComment (delimiter : Text) (lines : List Line) : List Line :=
  behindClosing (fun line ↦ line.shape == .commentDelimiter delimiter) lines

/-- Lines up to some rest stand between two blocks. Those outside comment blocks are given. -/
inductive Gap : List Line → List Line → List Line → Prop
  | nil (rest : List Line) : Gap rest [] rest
  | line {line : Line} {lines given rest : List Line} (waits : line.shape.isWaiting)
      (gap : Gap lines given rest) : Gap (line :: lines) (line :: given) rest
  | commentBlock {line : Line} {delimiter : Text} {lines given rest : List Line}
      (opens : line.shape = .commentDelimiter delimiter)
      (gap : Gap (behindComment delimiter lines) given rest) : Gap (line :: lines) given rest

/-- The metadata that waits behind some lines. -/
def Metadata.after (metadata : Metadata) (lines : List Line) : Metadata :=
  lines.foldl (fun waiting line ↦ (waiting.add? line.shape).getD waiting) metadata

/-- The id that a line gives: the one of an anchor, or the one in an attribute list. -/
def givenId (line : Line) : Option Text :=
  match line.shape with
  | .blockAnchor id _ => some id
  | .blockAttributes body => (AttributeList.parse body).get? "id".toList
  | _ => none

/-- The style that a line gives. -/
def givenStyle (line : Line) : Option Text :=
  match line.shape with
  | .blockAttributes body => (AttributeList.parse body).get? "style".toList
  | _ => none

/-- The last id that some lines give. -/
def lastId (lines : List Line) : Option Text :=
  (lines.filterMap givenId).getLast?

/-- The last style that some lines give. -/
def lastStyle (lines : List Line) : Option Text :=
  (lines.filterMap givenStyle).getLast?

section Metadata

variable (metadata : Metadata) (line : Line)

theorem Metadata.after_append (lines others : List Line) :
    metadata.after (lines ++ others) = (metadata.after lines).after others :=
  List.foldl_append

theorem id_after_singleton :
    (metadata.after [line]).id = (givenId line <|> metadata.id) := by
  change ((metadata.add? line.shape).getD metadata).id = _
  rw [givenId]
  cases line.shape with
  | blockAttributes body =>
    simp only [Metadata.add?, Option.getD_some, Metadata.addAttributes]
    split
    · next id hid => rw [hid]; rfl
    · next hid => rw [hid]; rfl
  | _ => rfl

theorem style_after_singleton :
    (metadata.after [line]).style = (givenStyle line <|> metadata.style) := by
  change ((metadata.add? line.shape).getD metadata).style = _
  rw [givenStyle]
  cases line.shape with
  | blockAttributes body =>
    have hdistinct := AttributeList.distinct_parse body
    simp only [Metadata.add?, Option.getD_some, Metadata.addAttributes]
    split
    · rw [Metadata.style, Attributes.get?_update _ (hdistinct.erase _),
        Attributes.get?_erase_of_ne _ (by decide)]
      rfl
    · rw [Metadata.style, Attributes.get?_update _ hdistinct]
      rfl
  | _ => rfl

/-- The last of some values, given the last one of the values before them. -/
theorem getLast?_filterMap_append_singleton {α β : Type} (f : α → Option β) (items : List α)
    (item : α) : ((items ++ [item]).filterMap f).getLast? =
      (f item <|> (items.filterMap f).getLast?) := by
  rw [List.filterMap_append]
  cases h : f item with
  | none => simp [h]
  | some value => simp [h]

/-- The id that waits behind some lines is the last one that they give. -/
theorem id_after (lines : List Line) : (Metadata.empty.after lines).id = lastId lines := by
  induction lines using List.reverseRecOn with
  | nil => rfl
  | append_singleton lines line ih =>
    rw [Metadata.after_append, id_after_singleton, ih, lastId, lastId,
      getLast?_filterMap_append_singleton]

/-- The style that waits behind some lines is the last one that they give. -/
theorem style_after (lines : List Line) : (Metadata.empty.after lines).style = lastStyle lines := by
  induction lines using List.reverseRecOn with
  | nil => rfl
  | append_singleton lines line ih =>
    rw [Metadata.after_append, style_after_singleton, ih, lastStyle, lastStyle,
      getLast?_filterMap_append_singleton]

end Metadata

/-- Behind a comment block are the lines behind its closing line. -/
theorem runs_skipCommentBlock_behind {E : ParseError → Prop} (delimiter : Text) (number : Int)
    (s : ReadState) :
    Runs (skipCommentBlock delimiter number) s
      (fun _ s' ↦ s'.lines = behindComment delimiter s.lines) E := by
  obtain ⟨s', heq, hlines, -⟩ :=
    readUntil_eq (fun line ↦ line.shape == .commentDelimiter delimiter) _ s
  exact Runs.bind_of_eq heq (runs_pure hlines)

end Blocks

end AsciidocSpans
