import AsciidocSpans.CommandLine.Outcome
import AsciidocSpans.Settings.Yaml

/-!
A run of the program, with settings files in YAML.
-/

set_option autoImplicit false
set_option relaxedAutoImplicit false

namespace AsciidocSpans.CommandLine

/-- An error that ends a run without being reported. -/
abbrev Failure : Type :=
  RunError Yaml.ReadError

/-- Run the program. -/
def run (arguments : List Text) (files : Files) : Outcome Yaml.ReadError :=
  runWith Yaml.read arguments files

end AsciidocSpans.CommandLine
