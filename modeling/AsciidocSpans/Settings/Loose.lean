import AsciidocSpans.Settings.Basic
import AsciidocSpans.Value

/-!
Settings as they come from outside, with values of any type. Any value is taken as it is; what is
not given has its default. `LooseSettings.checked` gives the settings, or every reason for which
there are none: first what is wrong with the comment marker, then with the lookbacks, the lists of
names and the switch for authors.
-/

set_option autoImplicit false
set_option relaxedAutoImplicit false

namespace AsciidocSpans

/-- What is wrong with one of the settings. -/
inductive SettingsProblem where
  | commentMarkerNotText
  | lookbackNotNatural (name : String) (value : Value)
  | namesNotTexts (name : String)
  | authorsNotBoolean (value : Value)

/-- The wording of a problem. -/
def SettingsProblem.message : SettingsProblem → String
  | commentMarkerNotText => "comment_marker must be a non-empty string"
  | lookbackNotNatural name value =>
    s!"{name} must be a non-negative integer, got {String.ofList value.shown}"
  | namesNotTexts name => s!"{name} must be a list of strings"
  | authorsNotBoolean value =>
    s!"include_authors must be true or false, got {String.ofList value.shown}"

/-- Settings with values of any type. -/
structure LooseSettings where
  commentMarker : Value
  idLookback : Value
  titleLookback : Value
  attributesLookback : Value
  tableAttributeDenylist : Value
  imageAttributeNames : Value
  includeAuthors : Value

/-- Settings as ones with values of any type. -/
def Settings.loosen (settings : Settings) : LooseSettings where
  commentMarker := .text settings.commentMarker
  idLookback := .integer settings.idLookback
  titleLookback := .integer settings.titleLookback
  attributesLookback := .integer settings.attributesLookback
  tableAttributeDenylist := .list (settings.tableAttributeDenylist.map .text)
  imageAttributeNames := .list (settings.imageAttributeNames.map .text)
  includeAuthors := .boolean settings.includeAuthors

namespace LooseSettings

/-- The settings with their names, sorted by name. -/
def entries (settings : LooseSettings) : List (Text × Value) :=
  [("attributes_lookback".toList, settings.attributesLookback),
    ("comment_marker".toList, settings.commentMarker),
    ("id_lookback".toList, settings.idLookback),
    ("image_attribute_names".toList, settings.imageAttributeNames),
    ("include_authors".toList, settings.includeAuthors),
    ("table_attribute_denylist".toList, settings.tableAttributeDenylist),
    ("title_lookback".toList, settings.titleLookback)]

/-- The settings that the entries of a dictionary give; other entries say nothing. -/
def ofEntries (entries : List (Value × Value)) : LooseSettings :=
  let default := Settings.default.loosen
  let get := fun (name : String) (value : Value) ↦
    match entries.find? fun entry ↦ match entry.1 with
      | .text key => key = name.toList
      | _ => false with
    | some entry => entry.2
    | none => value
  { commentMarker := get "comment_marker" default.commentMarker
    idLookback := get "id_lookback" default.idLookback
    titleLookback := get "title_lookback" default.titleLookback
    attributesLookback := get "attributes_lookback" default.attributesLookback
    tableAttributeDenylist := get "table_attribute_denylist" default.tableAttributeDenylist
    imageAttributeNames := get "image_attribute_names" default.imageAttributeNames
    includeAuthors := get "include_authors" default.includeAuthors }

/-- A comment marker: a text that is not empty. -/
def checkMarker : Value → Except SettingsProblem Text
  | .text (c :: rest) => .ok (c :: rest)
  | _ => .error .commentMarkerNotText

/-- A number of lines: an integer that is not negative. -/
def checkLookback (name : String) : Value → Except SettingsProblem Int
  | .integer n => if 0 ≤ n then .ok n else .error (.lookbackNotNatural name (.integer n))
  | value => .error (.lookbackNotNatural name value)

/-- The texts that a list of values holds, if it holds nothing else. -/
def texts? : List Value → Option (List Text)
  | [] => some []
  | .text t :: rest => (texts? rest).map (t :: ·)
  | _ :: _ => none

/-- A list of names. -/
def checkNames (name : String) : Value → Except SettingsProblem (List Text)
  | .list items => match texts? items with
    | some names => .ok names
    | none => .error (.namesNotTexts name)
  | _ => .error (.namesNotTexts name)

/-- Whether authors are included. -/
def checkAuthors : Value → Except SettingsProblem Bool
  | .boolean b => .ok b
  | value => .error (.authorsNotBoolean value)

/-- The problem of a check that failed, as a list. -/
def problemOf {α : Type} : Except SettingsProblem α → List SettingsProblem
  | .ok _ => []
  | .error problem => [problem]

/-- All that is wrong with the settings. -/
def problems (settings : LooseSettings) : List SettingsProblem :=
  problemOf (checkMarker settings.commentMarker) ++
    problemOf (checkLookback "id_lookback" settings.idLookback) ++
    problemOf (checkLookback "title_lookback" settings.titleLookback) ++
    problemOf (checkLookback "attributes_lookback" settings.attributesLookback) ++
    problemOf (checkNames "table_attribute_denylist" settings.tableAttributeDenylist) ++
    problemOf (checkNames "image_attribute_names" settings.imageAttributeNames) ++
    problemOf (checkAuthors settings.includeAuthors)

/-- The settings, or the first thing that is wrong with them. -/
def firstChecked (settings : LooseSettings) : Except SettingsProblem Settings := do
  return {
    commentMarker := ← checkMarker settings.commentMarker
    idLookback := ← checkLookback "id_lookback" settings.idLookback
    titleLookback := ← checkLookback "title_lookback" settings.titleLookback
    attributesLookback := ← checkLookback "attributes_lookback" settings.attributesLookback
    tableAttributeDenylist :=
      ← checkNames "table_attribute_denylist" settings.tableAttributeDenylist
    imageAttributeNames := ← checkNames "image_attribute_names" settings.imageAttributeNames
    includeAuthors := ← checkAuthors settings.includeAuthors }

/-- The settings, or all that is wrong with them. -/
def checked (settings : LooseSettings) : Except (List SettingsProblem) Settings :=
  match settings.firstChecked with
  | .ok result => .ok result
  | .error _ => .error settings.problems

end LooseSettings

end AsciidocSpans
