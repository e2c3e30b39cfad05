import AsciidocSpans.AttributeList
import AsciidocSpans.Text.Digit
import AsciidocSpans.Text.Quoted
import AsciidocSpans.Text.Search
import AsciidocSpans.Line.Classify
import AsciidocSpans.Element.Summary
import AsciidocSpans.Log
import AsciidocSpans.Blocks.State
import AsciidocSpans.Blocks.Metadata
import AsciidocSpans.Blocks.Runs
import AsciidocSpans.Blocks.Header
import AsciidocSpans.Blocks.CellSpec
import AsciidocSpans.Blocks.Cells
import AsciidocSpans.Blocks.Image
import AsciidocSpans.Blocks.Reader
import AsciidocSpans.Blocks.Document
import AsciidocSpans.Position
import AsciidocSpans.Window
import AsciidocSpans.Source.Basic
import AsciidocSpans.Source.Locator
import AsciidocSpans.Binary64.Shortest
import AsciidocSpans.Moment
import AsciidocSpans.Value
import AsciidocSpans.Node.Assembly
import AsciidocSpans.Node.Serialized
import AsciidocSpans.Node.Outline
import AsciidocSpans.Node.Validation
import AsciidocSpans.Conversion.Document
import AsciidocSpans.Settings.Use
import AsciidocSpans.Yaml.Reader
import AsciidocSpans.Yaml.Writer
import AsciidocSpans.Settings.File
import AsciidocSpans.Settings.Yaml
import AsciidocSpans.CommandLine.Usage
import AsciidocSpans.CommandLine.Arguments
import AsciidocSpans.CommandLine.Outcome
import AsciidocSpans.CommandLine.Run
import AsciidocSpans.Main
import AsciidocSpans.Proofs.Outcome
import AsciidocSpans.Proofs.Text.Lines
import AsciidocSpans.Proofs.Text.Occurrence
import AsciidocSpans.Proofs.Text.Trimmed
import AsciidocSpans.Proofs.Attributes.Lookup
import AsciidocSpans.Proofs.Line.Recognised
import AsciidocSpans.Proofs.Line.Captured
import AsciidocSpans.Proofs.Span.Order
import AsciidocSpans.Proofs.Span.Offsets
import AsciidocSpans.Proofs.Span.Search
import AsciidocSpans.Proofs.Span.Verbatim
import AsciidocSpans.Proofs.Span.Written
import AsciidocSpans.Proofs.Span.Matched
import AsciidocSpans.Proofs.Span.Passages
import AsciidocSpans.Proofs.Node.Subtree
import AsciidocSpans.Proofs.Node.Checkpoints
import AsciidocSpans.Proofs.Node.Accepted
import AsciidocSpans.Proofs.Element.OwnText
import AsciidocSpans.Proofs.Element.Preorder
import AsciidocSpans.Proofs.Blocks.Lines
import AsciidocSpans.Proofs.Blocks.Header
import AsciidocSpans.Proofs.Element.Parts
import AsciidocSpans.Proofs.Blocks.Making
import AsciidocSpans.Proofs.Blocks.CellReading
import AsciidocSpans.Proofs.Blocks.CellDocuments
import AsciidocSpans.Proofs.Blocks.Gap
import AsciidocSpans.Proofs.Blocks.Titles
import AsciidocSpans.Proofs.Blocks.Outline
import AsciidocSpans.Proofs.Blocks.Origin
import AsciidocSpans.Proofs.Blocks.Steps
import AsciidocSpans.Proofs.Blocks.LineNumbers
import AsciidocSpans.Proofs.Blocks.CellLayout
import AsciidocSpans.Proofs.Blocks.Grammar
import AsciidocSpans.Proofs.Blocks.Adequacy
import AsciidocSpans.Proofs.Blocks.DocumentOrder
import AsciidocSpans.Proofs.Blocks.OpenLists
import AsciidocSpans.Proofs.Blocks.Layout
import AsciidocSpans.Proofs.Blocks.Running
import AsciidocSpans.Proofs.Blocks.Verbatim
import AsciidocSpans.Proofs.Blocks.PlainText
import AsciidocSpans.Proofs.Conversion.Provenance
import AsciidocSpans.Proofs.Conversion.Elements
import AsciidocSpans.Proofs.Conversion.WellPlaced
import AsciidocSpans.Proofs.Conversion.Containment
import AsciidocSpans.Proofs.Conversion.Faithful
import AsciidocSpans.Proofs.Conversion.Leaves
import AsciidocSpans.Proofs.Conversion.Located
import AsciidocSpans.Proofs.Conversion.RunningText
import AsciidocSpans.Proofs.Conversion.Steady
import AsciidocSpans.Proofs.Conversion.Unfailing
import AsciidocSpans.Proofs.Element.Inside
import AsciidocSpans.Proofs.Conversion.Visits
import AsciidocSpans.Proofs.Conversion.Failures
import AsciidocSpans.Proofs.Conversion.TableCells
import AsciidocSpans.Proofs.Conversion.Verbatim
import AsciidocSpans.Proofs.CommandLine.Answer
import AsciidocSpans.Proofs.Conversion.Traced
import AsciidocSpans.Proofs.Conversion.BlockTitles
import AsciidocSpans.Proofs.Conversion.PlainText
import AsciidocSpans.Proofs.Text.LineEndings
import AsciidocSpans.Proofs.Span.LineEndings
import AsciidocSpans.Proofs.Attributes.Identifier
import AsciidocSpans.Proofs.Line.Returnless
import AsciidocSpans.Proofs.Element.Returnless
import AsciidocSpans.Proofs.Blocks.Returnless
import AsciidocSpans.Proofs.Conversion.LineEndings
import AsciidocSpans.Proofs.Span.Admissible
import AsciidocSpans.Proofs.Blocks.Isolation
import AsciidocSpans.Proofs.Blocks.OpenBlocks
import AsciidocSpans.Proofs.Blocks.Reported
import AsciidocSpans.Proofs.Blocks.Unterminated
import AsciidocSpans.Proofs.Conversion.Siblings
import AsciidocSpans.Proofs.Span.Preceding
import AsciidocSpans.Proofs.Conversion.Preceding
import AsciidocSpans.Proofs.Blocks.MoreSteps
import AsciidocSpans.Proofs.Blocks.Progress
import AsciidocSpans.Proofs.Blocks.Sectionless
import AsciidocSpans.Proofs.Blocks.SectionTree
import AsciidocSpans.Proofs.Element.ListStack
import AsciidocSpans.Proofs.Blocks.ListNesting
import AsciidocSpans.Proofs.Span.Excerpt
import AsciidocSpans.Proofs.Blocks.Formation
import AsciidocSpans.Proofs.Blocks.Sites
import AsciidocSpans.Proofs.Conversion.Known
import AsciidocSpans.Proofs.Span.Started
import AsciidocSpans.Proofs.Conversion.Images
import AsciidocSpans.Proofs.Conversion.TableAttributes
import AsciidocSpans.Proofs.Blocks.Captures
import AsciidocSpans.Proofs.Conversion.InTurn
import AsciidocSpans.Proofs.Blocks.CellLine
import AsciidocSpans.Proofs.Blocks.TableRows
import AsciidocSpans.Proofs.Conversion.Introduced
import AsciidocSpans.Proofs.Line.Literal
import AsciidocSpans.Proofs.Line.Marked
import AsciidocSpans.Proofs.Attributes.Entries
import AsciidocSpans.Proofs.Attributes.Named
import AsciidocSpans.Proofs.Attributes.Shorthands
import AsciidocSpans.Proofs.Span.Contained
import AsciidocSpans.Proofs.Blocks.Authors
import AsciidocSpans.Proofs.Conversion.Authors
import AsciidocSpans.Proofs.Conversion.Admonitions
import AsciidocSpans.Proofs.Node.ReadBack
import AsciidocSpans.Proofs.Span.Widening
import AsciidocSpans.Proofs.Conversion.Asides
import AsciidocSpans.Proofs.Conversion.Lookback
import AsciidocSpans.Proofs.Conversion.Raised
