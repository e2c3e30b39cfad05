import AsciidocSpans.Blocks.Header
import AsciidocSpans.Blocks.Reader

/-!
Reading a whole text into a document. The blocks between a document header and the first section
are wrapped into a preamble. Document attributes are those recorded in this text alone, so texts
read in turn do not influence one another; only the log goes on.
-/

set_option autoImplicit false
set_option relaxedAutoImplicit false

namespace AsciidocSpans

namespace Blocks

/-- The top-level blocks of a document, with those before the first section wrapped into a
preamble if the document has a header and a section. -/
def wrapPreamble (hasHeader : Bool) (blocks : List Element) : List Element :=
  let before := blocks.takeWhile (!·.isSection)
  let sections := blocks.dropWhile (!·.isSection)
  match before with
  | first :: _ =>
    if hasHeader && !sections.isEmpty then
      .container { lineno := first.lineno } .preamble before :: sections
    else blocks
  | [] => blocks

/-- Read the lines of a text as a document. -/
def readDocument (commentMarker : Text) (lineCount : Nat) : Reading Document := do
  let head ← readHeader
  let blocks ← readBlocks commentMarker (stepsFor lineCount) none none .empty
  let revision := match head.bind (·.revision) with
    | some text => Attributes.ofList [("revnumber".toList, text)]
    | none => ∅
  let attributes := revision.update (← get).entries
  return {
    info := { lineno := 1, id := head.bind (·.header.info.id), attributes }
    header := head.map (·.header)
    blocks := wrapPreamble head.isSome blocks }

/-- Read a text as a document, in the state that earlier readings left. -/
def readText (commentMarker text : Text) : Reading Document := do
  modify fun state ↦ { state with entries := ∅ }
  let lines := text.lines
  withLines (Line.classifyAll commentMarker 1 lines) (readDocument commentMarker lines.length)

/-- The result and the final state of a reading. -/
def outcome {α : Type} (reading : Reading α) (state : ReadState) :
    Except ParseError α × ReadState :=
  match reading state with
  | .ok result final => (.ok result, final)
  | .error problem final => (.error problem, final)

/-- Read texts in turn, each in the state that the one before it left. -/
def readTexts (commentMarker : Text) (state : ReadState) :
    List Text → List (Except ParseError Document)
  | [] => []
  | text :: rest =>
    let (result, final) := outcome (readText commentMarker text) state
    result :: readTexts commentMarker final rest

end Blocks

/-- The document that a text makes, or why it makes none, and what there was to report. -/
def Document.ofText (commentMarker text : Text) : Except ParseError Document × List LogRecord :=
  let (result, final) := Blocks.outcome (Blocks.readText commentMarker text) .initial
  (result, final.log)

/-- The documents of texts that are read in turn. -/
def Document.ofTexts (commentMarker : Text) (texts : List Text) :
    List (Except ParseError Document) :=
  Blocks.readTexts commentMarker .initial texts

end AsciidocSpans
