import AsciidocSpans.Element.Basic
import AsciidocSpans.Log
import AsciidocSpans.Node.Assembly
import AsciidocSpans.Settings.Use
import AsciidocSpans.Source.Locator
import AsciidocSpans.Text.Quoted

/-!
The setting of a conversion: what it knows (`Converter`), what it does (`Conversion`), and where it
looks for the next one of several siblings. Siblings are located in order: in a window that narrows,
each is looked for from its own line to the line of the next one, and never before the end of the
sibling located last.
-/

set_option autoImplicit false
set_option relaxedAutoImplicit false

namespace AsciidocSpans

/-- Why a document cannot be converted. -/
inductive ConversionError where
  /-- An admonition has neither blocks nor text. -/
  | emptyAdmonition (line : Int)
  /-- A node cannot be built. -/
  | assembly (cause : AssemblyError)
  /-- A setting is needed and its value is of no use. -/
  | unusableSetting
  deriving DecidableEq, Repr

namespace ConversionError

/-- The wording of the error about an admonition without content. -/
def emptyAdmonitionMessage (line : Int) : String :=
  s!"Found an admonition without a block and without a paragraph: line {line}"

end ConversionError

/-- What a conversion knows. -/
structure Converter where
  locator : Locator
  settings : LooseSettings

/-- A conversion: it reports, and yields a result or fails. -/
abbrev Conversion := EStateM ConversionError (List LogRecord)

namespace Converter

/-- The converter of a text. -/
def ofText (settings : LooseSettings) (text : Text) : Converter :=
  { locator := { source := .ofText text, commentMarker := settings.marker?.getD [] }, settings }

/-- The source that is converted. -/
def source (converter : Converter) : Source :=
  converter.locator.source

/-- Report something of no consequence. -/
def report (channel : LogChannel) (message : String) : Conversion Unit :=
  modify fun log ↦ log ++ [{ channel, level := .debug, message }]

/-- The node that was built, or the failure to build it. -/
def assembled {α : Type} : Except AssemblyError α → Conversion α
  | .ok result => pure result
  | .error cause => throw (.assembly cause)

/-- What a setting is good for, or the failure to use it. -/
def usable {α : Type} : Option α → Conversion α
  | some result => pure result
  | none => throw .unusableSetting

/-- Make sure that comment lines can be told from others, if that is asked for. -/
def needMarker (converter : Converter) (asked : Bool) : Conversion Unit :=
  if asked && converter.settings.marker?.isNone then throw .unusableSetting else pure ()

/-- Where text occurs in a window. -/
def find (converter : Converter) (verbatim : Bool) (segments : List Text) (window : Window) :
    Conversion (Option Location) := do
  converter.needMarker (!verbatim && converter.locator.looks segments window)
  return converter.locator.find? verbatim segments window

/-- Where text occurs before a window. A search in vain is reported. -/
def locateBefore (converter : Converter) (segments : List Text) (window : Window)
    (lookback : Value) : Conversion (Option Location) := do
  let highest ← usable (lookback.highestLine? window)
  converter.needMarker (converter.locator.looksBackTo segments window highest)
  match converter.locator.findBackTo? false segments window highest with
  | some location => return some location
  | none =>
    let wanted := String.ofList (Value.list (segments.map .text)).shown
    let lines := lookback.asCount
    report .spanLocating s!"No match for {wanted} within {lines} lines before line {window.minLine}"
    return none

/-- The window of a sibling that starts no earlier than the sibling located last. -/
def afterSibling (window : Window) (lastEnd : Option Position) : Window :=
  match lastEnd with
  | some stop =>
    if window.minLine ≤ stop.line ∧ stop.line ≤ window.maxLine then
      (window.narrowed stop.line none).fromColumn stop.column
    else window
  | none => window

/-- The window in which a sibling on a given line is looked for, given the line of the next one. -/
def siblingWindow (window : Window) (lineno following : Int) (lastEnd : Option Position) : Window :=
  afterSibling
    (if window.narrows then window.narrowed lineno (some following) else window.fromColumn 0)
    lastEnd

/-- The latest end of some nodes, or the earlier end if there are none. -/
def endOf (lastEnd : Option Position) : List Node → Option Position
  | [] => lastEnd
  | first :: rest =>
    some (rest.foldl (fun stop node ↦ stop.later node.location.stop) first.location.stop)

end Converter

end AsciidocSpans
