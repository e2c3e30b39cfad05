import AsciidocSpans.Settings.File
import AsciidocSpans.Yaml.Reader
import AsciidocSpans.Yaml.Writer

/-!
Settings files in YAML. Settings are checked when they are read and not when they are written.
-/

set_option autoImplicit false
set_option relaxedAutoImplicit false

namespace AsciidocSpans

/-- Why a settings file in YAML gives no settings. -/
abbrev SettingsError : Type :=
  SettingsFileError Yaml.ReadError

/-- The settings that a file gives; its contents are none if there is no such file. -/
def Settings.ofFile (path : Text) (contents : Option Text) : Except SettingsError Settings :=
  Settings.ofFileWith Yaml.read path contents

/-- The contents of a file that gives some settings. -/
def LooseSettings.toFile (settings : LooseSettings) : Text :=
  Yaml.write (settings.entries.map fun entry ↦ (.text entry.1, entry.2))

end AsciidocSpans
