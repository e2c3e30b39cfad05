import AsciidocSpans.CommandLine.Usage
import AsciidocSpans.Text.Digit

/-!
Reading arguments. Each argument is first told apart on its own: it is an option, looks like one
that does not exist, is the separator behind which nothing is an option, or is plain. A long option
may be abbreviated and may have its value behind an equals sign; a short one may have its value
attached, and short options without values may be joined. Then the arguments are consumed from left
to right. The first plain one is the file, and the separator beside it belongs to it.
-/

set_option autoImplicit false
set_option relaxedAutoImplicit false

namespace AsciidocSpans.CommandLine

/-- What a run of the program is asked to do. -/
structure Arguments where
  file : Text
  config : Option Text
  format : Format
  validates : Bool
  verbose : Bool
  logFile : Option Text
  deriving DecidableEq, Repr

/-- Why arguments do not lead to a run. -/
inductive Stop where
  /-- Help is asked for. -/
  | help
  /-- The arguments are wrong. -/
  | usage (error : UsageError)
  /-- The separator was attached to an option as its value, and is taken away from it. -/
  | separatorAsValue
  deriving DecidableEq, Repr

/-! ### Telling arguments apart -/

/-- What an argument is on its own. -/
inductive Argument where
  | plain (text : Text)
  | option (kind : OptionKind) (name : Text) (value : Option Text)
  | unknownOption (text : Text)
  | separator
  deriving DecidableEq, Repr

/-- The two parts of a text around its first equals sign. -/
def splitEquals? (text : Text) : Option (Text × Text) :=
  match text.dropWhile (· != '=') with
  | _ :: value => some (text.takeWhile (· != '='), value)
  | [] => none

/-- The options for which a long name may stand: those that begin with it. -/
def longCandidates (text : Text) : List (OptionKind × Text × Option Text) :=
  let (start, value) := match splitEquals? text with
    | some (start, value) => (start, some value)
    | none => (text, none)
  OptionKind.named.filterMap fun (name, kind) ↦
    if start.isPrefixOf name then some (kind, name, value) else none

/-- The options for which a short name may stand, with what is attached to it. -/
def shortCandidates (text : Text) : List (OptionKind × Text × Option Text) :=
  OptionKind.named.filterMap fun (name, kind) ↦
    if name = text.take 2 then some (kind, name, some (text.drop 2))
    else if text.isPrefixOf name then some (kind, name, none)
    else none

/-- Whether a text behind a minus sign writes a number. -/
def isNumber (text : Text) : Bool :=
  let digits := if text.endsWith ['\n'] then Text.dropRight 1 text else text
  let isNumeral := fun (part : Text) ↦ !part.isEmpty && part.all Text.isDecimal
  isNumeral digits || match digits.dropWhile Text.isDecimal with
    | '.' :: fraction => isNumeral fraction
    | _ => false

/-- The option that an argument is, if it is one without any doubt. -/
def exactOption? (text : Text) : Option Argument :=
  match OptionKind.ofName? text with
  | some kind => some (.option kind text none)
  | none =>
    match splitEquals? text with
    | some (name, value) => (OptionKind.ofName? name).map fun kind ↦ .option kind name (some value)
    | none => none

/-- Tell what an argument is. -/
def Argument.ofText (text : Text) : Except UsageError Argument :=
  match text with
  | '-' :: second :: rest =>
    match exactOption? text with
    | some argument => .ok argument
    | none =>
      match if second = '-' then longCandidates text else shortCandidates text with
      | [(kind, name, value)] => .ok (.option kind name value)
      | [] =>
        if isNumber (second :: rest) || text.contains ' ' then .ok (.plain text)
        else .ok (.unknownOption text)
      | candidates => .error (.ambiguous text (candidates.map (·.2.1)))
  | _ => .ok (.plain text)

/-- Tell what each argument is; behind the separator all of them are plain. -/
def Argument.ofTexts : List Text → Except UsageError (List Argument)
  | [] => .ok []
  | text :: rest =>
    if text = ['-', '-'] then .ok (.separator :: rest.map .plain)
    else do
      let argument ← ofText text
      return argument :: (← ofTexts rest)

/-! ### Consuming arguments -/

/-- An option with its value, which is empty for an option without one. -/
abbrev Setting := OptionKind × Text

/-- What an option and the letters joined to it say: the settings they make, and the option that
still lacks its value if the last one does. -/
def joinedSettings (kind : OptionKind) :
    Text → Except UsageError (List Setting × Option OptionKind)
  | [] => if kind.takesValue then .ok ([], some kind) else .ok ([(kind, [])], none)
  | letter :: rest =>
    if kind.takesValue then .ok ([(kind, letter :: rest)], none)
    else match OptionKind.ofName? ['-', letter] with
      | some next => do
        let (settings, lacking) ← joinedSettings next rest
        return ((kind, []) :: settings, lacking)
      | none => .error (.unexpectedValue kind (letter :: rest))

/-- What an option says, given the value attached to it. -/
def optionSettings (kind : OptionKind) (name : Text) :
    Option Text → Except UsageError (List Setting × Option OptionKind)
  | none => joinedSettings kind []
  | some value =>
    if kind.takesValue then .ok ([(kind, value)], none)
    else if value.isEmpty || "--".toList.isPrefixOf name then
      .error (.unexpectedValue kind value)
    else joinedSettings kind value

/-- What has been consumed so far: the options, the file and what means nothing. -/
structure Progress where
  arguments : Arguments
  file : Option Text
  /-- Whether the file is the argument consumed last. -/
  isBehindFile : Bool
  extras : List Text
  deriving DecidableEq, Repr

/-- The progress before anything has been consumed. -/
def Progress.initial : Progress where
  arguments :=
    { file := [], config := none, format := .json, validates := true, verbose := false
      logFile := none }
  file := none
  isBehindFile := false
  extras := []

/-- Take note of an option. -/
def applySetting (arguments : Arguments) (setting : Setting) : Except Stop Arguments :=
  let (kind, value) := setting
  if kind.takesValue && value = ['-', '-'] then .error .separatorAsValue
  else match kind with
    | .help => .error .help
    | .config => .ok { arguments with config := some value }
    | .format => match Format.ofName? value with
      | some format => .ok { arguments with format }
      | none => .error (.usage (.unknownFormat value))
    | .noValidate => .ok { arguments with validates := false }
    | .verbose => .ok { arguments with verbose := true }
    | .logFile => .ok { arguments with logFile := some value }

/-- Take note of options in turn. -/
def Progress.apply (progress : Progress) (settings : List Setting) : Except Stop Progress := do
  let arguments ← settings.foldlM applySetting progress.arguments
  return { progress with arguments, isBehindFile := false }

/-- Take note of something that means nothing. -/
def Progress.ignore (progress : Progress) (text : Text) : Progress :=
  { progress with extras := progress.extras ++ [text], isBehindFile := false }

/-- Consume arguments from left to right. The separator means nothing by itself unless it comes
before the file or directly behind it. -/
def consume (progress : Progress) : List Argument → Except Stop Progress
  | [] => .ok progress
  | .plain text :: rest =>
    if progress.file.isSome then consume (progress.ignore text) rest
    else consume { progress with file := some text, isBehindFile := true } rest
  | .separator :: rest =>
    if progress.file.isNone || progress.isBehindFile then
      consume { progress with isBehindFile := false } rest
    else consume (progress.ignore ['-', '-']) rest
  | .unknownOption text :: rest => consume (progress.ignore text) rest
  | .option kind name value :: rest =>
    match optionSettings kind name value with
    | .error error => .error (.usage error)
    | .ok (settings, none) => do consume (← progress.apply settings) rest
    | .ok (settings, some lacking) =>
      match rest with
      | .plain text :: more => do consume (← progress.apply (settings ++ [(lacking, text)])) more
      | _ => .error (.usage (.missingValue lacking))

/-- The run that arguments ask for. -/
def Arguments.ofTexts (texts : List Text) : Except Stop Arguments := do
  let arguments ← (Argument.ofTexts texts).mapError .usage
  let progress ← consume .initial arguments
  match progress.file with
  | none => throw (.usage .missingFile)
  | some file =>
    if progress.extras.isEmpty then return { progress.arguments with file }
    else throw (.usage (.unrecognized progress.extras))

end AsciidocSpans.CommandLine
