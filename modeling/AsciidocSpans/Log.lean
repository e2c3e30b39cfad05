import AsciidocSpans.Text.Basic

/-!
Log records. Reading, converting and validating return what they have to report as a list of
records in order, next to their result and also next to an error.
-/

set_option autoImplicit false
set_option relaxedAutoImplicit false

namespace AsciidocSpans

/-- How much a record matters. -/
inductive LogLevel where
  | debug
  | warning
  deriving DecidableEq, Repr

/-- The name of a level as log lines show it. -/
def LogLevel.name : LogLevel → String
  | debug => "DEBUG"
  | warning => "WARNING"

/-- The activity that reports. -/
inductive LogChannel where
  | blockReading
  | spanLocating
  | metadataConversion
  | treeConversion
  | documentConversion
  | validation
  deriving DecidableEq, Repr

/-- The name of a channel as log lines show it. -/
def LogChannel.name : LogChannel → String
  | blockReading => "AdocElementBuilder"
  | spanLocating => "SpanLocator"
  | metadataConversion => "AdocMetadataConverter"
  | treeConversion => "AdocTxtASTTreeWalker"
  | documentConversion => "AdocTxtASTConverter"
  | validation => "TxtASTValidator"

/-- One report. -/
structure LogRecord where
  channel : LogChannel
  level : LogLevel
  message : String
  deriving DecidableEq, Repr

/-- A record as a line of a log. -/
def LogRecord.line (record : LogRecord) : String :=
  s!"{record.channel.name} - {record.level.name} - {record.message}"

end AsciidocSpans
