import AsciidocSpans.Blocks.Document
import AsciidocSpans.Conversion.Element
import AsciidocSpans.Node.Validation

/-!
Converting whole documents and texts. A document in which nothing can be located becomes the empty
document. `locateText` reads a text and converts what it read; `validated` checks a converted tree
against its text.
-/

set_option autoImplicit false
set_option relaxedAutoImplicit false

namespace AsciidocSpans

/-- Why a text has no located tree. -/
inductive TextError where
  | parse (cause : ParseError)
  | conversion (cause : ConversionError)
  deriving DecidableEq, Repr

namespace Converter

/-- The tree of a document. -/
def convertRoot (converter : Converter) (document : Document) : Conversion Node := do
  let window := { minLine := 1, maxLine := converter.source.lineCount }
  let nodes ← converter.convertDocument window document
  let root := nodes.headD Node.emptyDocument
  report .documentConversion (s!"Converted document: {root.children.length} top-level nodes, " ++
    s!"range ({root.range.1}, {root.range.2})")
  return root

end Converter

/-- The located tree of a document that was read from a text, or why there is none, and what there
was to report. -/
def locateDocument (settings : LooseSettings) (document : Document) (text : Text) :
    Except ConversionError Node × List LogRecord :=
  match (Converter.ofText settings text).convertRoot document [] with
  | .ok node log => (.ok node, log)
  | .error cause log => (.error cause, log)

/-- The located tree of a text, or why there is none, and what there was to report. A text is only
read with a text for the comment marker. -/
def locateText (settings : LooseSettings) (text : Text) :
    Except TextError Node × List LogRecord :=
  match settings.marker? with
  | none => (.error (.conversion .unusableSetting), [])
  | some marker =>
    match Document.ofText marker text with
    | (.error cause, log) => (.error (.parse cause), log)
    | (.ok document, log) =>
      let (result, further) := locateDocument settings document text
      (result.mapError .conversion, log ++ further)

/-- The result of validating a tree against a text, and what there was to report. -/
def validated (text : Text) (node : LooseNode) :
    Except ValidationError Unit × List LogRecord :=
  match node.validate text with
  | .error problem => (.error problem, [])
  | .ok () =>
    (.ok (), [{ channel := .validation, level := .debug
                message := s!"Validated {String.ofList node.kind.name} tree" }])

end AsciidocSpans
