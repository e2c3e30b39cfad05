import AsciidocSpans.CommandLine.Arguments
import AsciidocSpans.CommandLine.Files
import AsciidocSpans.Conversion.Document
import AsciidocSpans.Node.Outline
import AsciidocSpans.Node.Serialized
import AsciidocSpans.Settings.File

/-!
What a run of the program comes to: from its arguments and the files there are to what it writes
and its exit code. The code is zero for a tree that was written, one for an input that was refused,
and two for wrong arguments. Some errors are not among those that the program reports; they end the
run without an exit code.

The notation of the settings files is left open: a run takes the reader for it.
-/

set_option autoImplicit false
set_option relaxedAutoImplicit false

namespace AsciidocSpans.CommandLine

/-- An error that ends a run without being reported. -/
inductive RunError (ε : Type) where
  | parse (cause : ParseError)
  | assembly (cause : AssemblyError)
  | unusableSetting
  /-- The reader refuses the settings file. -/
  | settings (cause : ε)
  | incomparableOffsets
  /-- A directory stands where a file should. -/
  | directoryAsFile
  /-- A file stands where a directory should. -/
  | fileAsDirectory
  /-- There is no directory for a file. -/
  | noDirectory
  | separatorAsValue
  deriving DecidableEq, Repr

variable {ε : Type}

/-- The wording of such an error, with that of a reader's reasons. -/
def RunError.message (wording : ε → String) : RunError ε → String
  | parse cause => cause.message
  | assembly .noSuchLine => "A span names a line that the text does not have"
  | assembly .nothingToCover => "There is nothing for a node to cover"
  | unusableSetting => "The value of a setting is of no use"
  | settings cause => s!"The configuration file is not valid: {wording cause}"
  | incomparableOffsets => "A child's offsets cannot be compared with those of its parent"
  | directoryAsFile => "A directory is not a file"
  | fileAsDirectory => "A file is not a directory"
  | noDirectory => "The directory of the log file does not exist"
  | separatorAsValue => "The value of an option is missing"

/-- What a run comes to. -/
structure Outcome (ε : Type) where
  /-- The exit code, or the error that ended the run. -/
  result : Except (RunError ε) Nat
  output : Text
  diagnostics : Text
  /-- The file that log lines are added to, and the lines. -/
  log : Option (Text × Text)

/-- What a run of some arguments has come to, before the log is written: its end, its output, what
it reports, and what it logs. -/
structure Ending (ε : Type) where
  result : Except (RunError ε) Nat
  output : Text := []
  report : Text := []
  records : List LogRecord := []

namespace Ending

/-- The end of a run that refuses its input. -/
def refused (message : String) (records : List LogRecord) : Ending ε :=
  { result := .ok 1, report := message.toList ++ ['\n'], records }

/-- The end of a run that refuses its input because of an error. -/
def errorReported (message : String) (records : List LogRecord) : Ending ε :=
  refused ("Error: " ++ message) records

/-- The end of a run that an error ended. -/
def failed (cause : RunError ε) (records : List LogRecord) : Ending ε :=
  { result := .error cause, records }

end Ending

/-- A path that was given and is not empty. -/
def given (path : Option Text) : Option Text :=
  path.filter (!·.isEmpty)

/-- The text that shows a tree. -/
def shown (format : Format) (tree : Node) : Text :=
  match format with
  | .tree => tree.outline
  | .json => tree.toJson.render (some 2) ++ ['\n']

/-- Convert a text and write its tree. -/
def convertText (arguments : Arguments) (settings : Settings) (text : Text) : Ending ε :=
  match locateText settings.loosen text with
  | (.error (.parse cause), records) => .failed (.parse cause) records
  | (.error (.conversion (.assembly cause)), records) => .failed (.assembly cause) records
  | (.error (.conversion .unusableSetting), records) => .failed .unusableSetting records
  | (.error (.conversion (.emptyAdmonition line)), records) =>
    .errorReported (ConversionError.emptyAdmonitionMessage line) records
  | (.ok tree, records) =>
    let done := fun records ↦ { result := .ok 0, output := shown arguments.format tree, records }
    if arguments.validates then
      match validated text tree.loosen with
      | (.ok (), further) => done (records ++ further)
      | (.error (.broken rule kind), further) =>
        .errorReported (rule.report kind) (records ++ further)
      | (.error .incomparable, further) => .failed .incomparableOffsets (records ++ further)
    else done records

/-- The records that a run shows: without `verbose` only the warnings. -/
def isShown (arguments : Arguments) (record : LogRecord) : Bool :=
  arguments.verbose || record.level == .warning

/-- The lines of some records. -/
def logText (records : List LogRecord) : Text :=
  records.flatMap fun record ↦ record.line.toList ++ ['\n']

/-- The paths of the files and directories that a run looks at. -/
def pathsRead (arguments : List Text) : List Text :=
  match Arguments.ofTexts arguments with
  | .ok arguments =>
    let log := (given arguments.logFile).toList.flatMap fun path ↦
      [shortestPath path, directoryOf path]
    arguments.file :: (given arguments.config).toList ++ log
  | .error _ => []

/-- Why no log lines can be added to a file, if they can not. -/
def logFailure? (files : Files) (path : Text) : Option (RunError ε) :=
  match entryAt files path, entryAt files (directoryOf path) with
  | .directory, _ => some .directoryAsFile
  | .file _, _ | .missing, .directory => none
  | .missing, .file _ => some .fileAsDirectory
  | .missing, .missing => some .noDirectory

section Reader

variable (read : ValueReader ε)

/-- Go on with the settings of a run. -/
def withSettings (arguments : Arguments) (files : Files) (go : Settings → Ending ε) : Ending ε :=
  match given arguments.config with
  | none => go .default
  | some path =>
    let goOn := fun contents ↦
      match Settings.ofFileWith read path contents with
      | .ok settings => go settings
      | .error (.malformed cause) => .failed (.settings cause) []
      | .error error => .errorReported (error.message?.getD "") []
    match entryAt files path with
    | .file contents => goOn (some contents)
    | .missing => goOn none
    | .directory => .failed .directoryAsFile []

/-- Convert the file that the arguments name. -/
def convertFile (arguments : Arguments) (files : Files) : Ending ε :=
  match entryAt files arguments.file with
  | .missing => .refused s!"File not found: {String.ofList arguments.file}" []
  | .directory => withSettings read arguments files fun _ ↦ .failed .directoryAsFile []
  | .file contents => withSettings read arguments files fun settings ↦
      convertText arguments settings contents.uniformNewlines

/-- Convert, and add log lines to a file. The file is there from the start, empty if it is new. -/
def convertLogging (arguments : Arguments) (files : Files) (path : Text) : Outcome ε :=
  match logFailure? files path with
  | some failure => ⟨.error failure, [], [], none⟩
  | none =>
    let ending := convertFile read arguments (files ++ [(path, [])])
    { result := ending.result
      output := ending.output
      diagnostics := ending.report
      log := some (path, logText (ending.records.filter (isShown arguments))) }

/-- Convert as the arguments say, and log to where they say. -/
def convert (arguments : Arguments) (files : Files) : Outcome ε :=
  match given arguments.logFile with
  | some path => convertLogging read arguments files (shortestPath path)
  | none =>
    let ending := convertFile read arguments files
    { result := ending.result
      output := ending.output
      diagnostics := logText (ending.records.filter (isShown arguments)) ++ ending.report
      log := none }

/-- Run the program with a reader for its settings files. -/
def runWith (arguments : List Text) (files : Files) : Outcome ε :=
  match Arguments.ofTexts arguments with
  | .ok arguments => convert read arguments files
  | .error .help => ⟨.ok 0, helpText.toList, [], none⟩
  | .error (.usage error) => ⟨.ok 2, [], error.text.toList, none⟩
  | .error .separatorAsValue => ⟨.error .separatorAsValue, [], [], none⟩

end Reader

end AsciidocSpans.CommandLine
