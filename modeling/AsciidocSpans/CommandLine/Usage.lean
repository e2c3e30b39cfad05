import AsciidocSpans.Text.Quoted

/-!
The options of the command line, the ways in which arguments can be wrong, and the texts that tell
about both. An option has one or two names; `OptionKind.named` lists all names in the order in
which abbreviations are looked up.
-/

set_option autoImplicit false
set_option relaxedAutoImplicit false

namespace AsciidocSpans.CommandLine

/-- What an option is about. -/
inductive OptionKind where
  | help
  | config
  | format
  | noValidate
  | verbose
  | logFile
  deriving DecidableEq, Repr

namespace OptionKind

/-- All options, in the order in which they are shown. -/
def all : List OptionKind :=
  [help, config, format, noValidate, verbose, logFile]

/-- The names of an option. -/
def names : OptionKind → List String
  | help => ["-h", "--help"]
  | config => ["--config", "-c"]
  | format => ["--format", "-f"]
  | noValidate => ["--no-validate"]
  | verbose => ["--verbose", "-v"]
  | logFile => ["--log-file"]

/-- Whether an option is followed by a value. -/
def takesValue : OptionKind → Bool
  | config | format | logFile => true
  | help | noValidate | verbose => false

/-- All names of options, each with its option. -/
def named : List (Text × OptionKind) :=
  all.flatMap fun kind ↦ kind.names.map fun name ↦ (name.toList, kind)

/-- The option with a name. -/
def ofName? (name : Text) : Option OptionKind :=
  named.lookup name

/-- How messages refer to an option. -/
def label (kind : OptionKind) : String :=
  String.intercalate "/" kind.names

end OptionKind

/-- How a tree is written. -/
inductive Format where
  | json
  | tree
  deriving DecidableEq, Repr

/-- The format with a name. -/
def Format.ofName? (name : Text) : Option Format :=
  if name = "json".toList then some json
  else if name = "tree".toList then some tree
  else none

/-- What is wrong with arguments. -/
inductive UsageError where
  /-- An abbreviation stands for several options. -/
  | ambiguous (argument : Text) (candidates : List Text)
  /-- An option lacks its value. -/
  | missingValue (kind : OptionKind)
  /-- An option that has no value was given one. -/
  | unexpectedValue (kind : OptionKind) (value : Text)
  /-- A format is not among the known ones. -/
  | unknownFormat (name : Text)
  /-- No file was given. -/
  | missingFile
  /-- There are arguments that mean nothing. -/
  | unrecognized (arguments : List Text)
  deriving DecidableEq, Repr

/-- The wording of what is wrong. -/
def UsageError.message : UsageError → String
  | ambiguous argument candidates =>
    let shown := String.intercalate ", " (candidates.map String.ofList)
    s!"ambiguous option: {String.ofList argument} could match {shown}"
  | missingValue kind => s!"argument {kind.label}: expected one argument"
  | unexpectedValue kind value =>
    s!"argument {kind.label}: ignored explicit argument {String.ofList value.quoted}"
  | unknownFormat name =>
    s!"argument {OptionKind.format.label}: invalid choice: {String.ofList name.quoted} " ++
      "(choose from 'json', 'tree')"
  | missingFile => "the following arguments are required: file"
  | unrecognized arguments =>
    "unrecognized arguments: " ++ String.intercalate " " (arguments.map String.ofList)

/-- The name of the program. -/
def programName : String :=
  "adoc-txtast"

/-- How the program is called. -/
def usageText : String :=
  s!"usage: {programName} [-h] [--config CONFIG] [--format \x7bjson,tree\x7d]\n" ++
    "                   [--no-validate] [--verbose] [--log-file LOG_FILE]\n" ++
    "                   file\n"

/-- What the program does and which options it has. -/
def helpText : String :=
  usageText ++ "\n" ++
    "Convert AsciiDoc to a text AST with exact source locations\n\n" ++
    "positional arguments:\n" ++
    "  file                  AsciiDoc file to convert\n\n" ++
    "options:\n" ++
    "  -h, --help            show this help message and exit\n" ++
    "  --config CONFIG, -c CONFIG\n" ++
    "                        Configuration file path\n" ++
    "  --format \x7bjson,tree\x7d, -f \x7bjson,tree\x7d\n" ++
    "                        Output format\n" ++
    "  --no-validate         Skip structural validation of the result\n" ++
    "  --verbose, -v         Verbose logging\n" ++
    "  --log-file LOG_FILE   Write log messages to this file\n\n" ++
    "Examples:\n" ++
    s!"  {programName} README.adoc                      # Print the AST as JSON\n" ++
    s!"  {programName} README.adoc --format tree        # Print an indented tree\n" ++
    s!"  {programName} README.adoc -c txtast.yaml       # Use a configuration file\n" ++
    "        \n"

/-- What the program says about wrong arguments. -/
def UsageError.text (error : UsageError) : String :=
  usageText ++ s!"{programName}: error: {error.message}\n"

end AsciidocSpans.CommandLine
