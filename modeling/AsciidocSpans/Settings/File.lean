import AsciidocSpans.Settings.Loose

/-!
Settings files. A settings file holds a dictionary in a notation for values, for which a reader is
given; an empty file leaves every setting at its default. The settings are checked when they are
read.
-/

set_option autoImplicit false
set_option relaxedAutoImplicit false

namespace AsciidocSpans

/-- A reader of a notation for values: it gives the value of a text, or the reason why the text has
none. -/
abbrev ValueReader (ε : Type) : Type :=
  Text → Except ε Value

/-- Why a settings file gives no settings. -/
inductive SettingsFileError (ε : Type) where
  | noFile (path : Text)
  /-- The reader refuses the text of the file. -/
  | malformed (cause : ε)
  | noDictionary (path : Text)
  | invalid (problems : List SettingsProblem)

variable {ε : Type}

namespace SettingsFileError

/-- What is wrong with the settings in a file, if it has been read. -/
def reasons : SettingsFileError ε → List String
  | noFile _ | malformed _ => []
  | noDictionary path => [s!"Expected a mapping at the top level of {String.ofList path}"]
  | invalid problems => problems.map SettingsProblem.message

/-- The wording of an error; none for a file that the reader refuses. -/
def message? : SettingsFileError ε → Option String
  | noFile path => some s!"Configuration file not found: {String.ofList path}"
  | malformed _ => none
  | error => some ("Invalid configuration: " ++ String.intercalate "; " error.reasons)

end SettingsFileError

/-- The settings that the value of a file gives. -/
def Settings.ofValue (path : Text) (value : Value) : Except (SettingsFileError ε) Settings :=
  match value with
  | .null => (LooseSettings.ofEntries []).checked.mapError .invalid
  | .dictionary entries => (LooseSettings.ofEntries entries).checked.mapError .invalid
  | _ => .error (.noDictionary path)

/-- The settings that a file gives; its contents are none if there is no such file. -/
def Settings.ofFileWith (read : ValueReader ε) (path : Text) (contents : Option Text) :
    Except (SettingsFileError ε) Settings :=
  match contents with
  | none => .error (.noFile path)
  | some text =>
    match read text.uniformNewlines with
    | .error cause => .error (.malformed cause)
    | .ok value => Settings.ofValue path value

end AsciidocSpans
