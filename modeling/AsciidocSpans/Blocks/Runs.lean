import AsciidocSpans.Element.Basic
import AsciidocSpans.Text.Blank

/-!
Runs of text lines: the lines of a paragraph, the lines that continue the text of a list item, and
the terms that share a description. Each function returns what it read together with the lines
behind it. Comment lines inside a run are skipped.
-/

set_option autoImplicit false
set_option relaxedAutoImplicit false

namespace AsciidocSpans.Blocks

open Text

/-- Whether a line that stands behind the first line of a paragraph ends that paragraph. A
paragraph attached to a list item also ends before the next item. -/
def endsParagraph (attached : Bool) (shape : Line.Shape) : Bool :=
  shape.isDelimiter || (attached && shape.endsAttachedText)

/-- The further lines of a paragraph, without white space at their ends. -/
def paragraphTail (attached : Bool) : List Line → List Text × List Line
  | [] => ([], [])
  | line :: rest =>
    match line.shape with
    | .blank => ([], line :: rest)
    | .comment _ => paragraphTail attached rest
    | shape =>
      if endsParagraph attached shape then ([], line :: rest)
      else
        let (lines, behind) := paragraphTail attached rest
        (trimRight line.input :: lines, behind)

/-- The lines of a paragraph that starts with a given line, and the lines behind it. -/
def paragraphLines (attached : Bool) (first : Line) (rest : List Line) : List Text × List Line :=
  let (lines, behind) := paragraphTail attached rest
  (trimRight first.input :: lines, behind)

/-- The lines that continue the text of a list item, trimmed. -/
def itemTail : List Line → List Text × List Line
  | [] => ([], [])
  | line :: rest =>
    match line.shape with
    | .plainText _ | .indentedText .. =>
      let (lines, behind) := itemTail rest
      (trim line.input :: lines, behind)
    | .comment _ => itemTail rest
    | _ => ([], line :: rest)

/-- The text of a list item, given the text on its first line and the lines behind that. -/
def itemText (first : Text) (rest : List Line) : Text × List Line :=
  let (lines, behind) := itemTail rest
  (unlines (first :: lines), behind)

/-- A list item that has nothing but its text. -/
def plainItem (lineno : Int) (text : Option Text) : ListItem :=
  { info := { lineno }, text, checkbox := none, blocks := [] }

/-- What the reading of terms found: the terms, the line and the text of the description that
follows the last of them on its line, and the lines behind. -/
structure TermRun where
  terms : List ListItem
  description : Option (Int × Text)
  rest : List Line

/-- The terms on consecutive lines, up to the first one with a description on its line. -/
def termRun (delimiter : Text) : List Line → TermRun
  | [] => ⟨[], none, []⟩
  | line :: rest =>
    match line.shape with
    | .term text marker description =>
      if marker = delimiter then
        let item := plainItem line.number (some text)
        match description with
        | some first => ⟨[item], some (line.number, first), rest⟩
        | none =>
          let run := termRun delimiter rest
          { run with terms := item :: run.terms }
      else ⟨[], none, line :: rest⟩
    | _ => ⟨[], none, line :: rest⟩

/-- The width of the indentation of a line. -/
def indentWidth (line : Text) : Nat :=
  (line.takeWhile isIndent).length

/-- Lines without the indentation that all lines but the blank ones share. -/
def dedent (lines : List Text) : List Text :=
  match ((lines.filter (!allBlank ·)).map indentWidth).min? with
  | some width => lines.map (·.drop width)
  | none => lines

end AsciidocSpans.Blocks
