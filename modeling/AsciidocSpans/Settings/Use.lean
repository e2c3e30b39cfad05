import AsciidocSpans.Settings.Loose
import AsciidocSpans.Text.Search
import AsciidocSpans.Window

/-!
What values of any type are good for as settings. A conversion takes its settings as they are, and a
setting only matters where it is used: any value can tell whether authors are included, a lookback
can be any number that leads to a line, and a text or a dictionary can stand for a list of names.
What is good for nothing is `none`. A setting of its own type always means what it says.
-/

set_option autoImplicit false
set_option relaxedAutoImplicit false

namespace AsciidocSpans

namespace Value

/-- The highest line that a search may reach which goes back so many lines before a window. Going
back by a fraction leads to no line, unless it leads to the first one. -/
def highestLine? (lookback : Value) (window : Window) : Option Int :=
  match lookback with
  | .integer n => some (window.highestLine n)
  | .boolean b => some (window.highestLine (if b then 1 else 0))
  | .float x =>
    match ((Binary64.ofInt window.minLine).add x.negated).compareInt? 1 with
    | some .gt => none
    | _ => some 1
  | _ => none

/-- The whole number that a report gives for a lookback. -/
def asCount : Value → Int
  | .integer n => n
  | .boolean b => if b then 1 else 0
  | .float x => x.truncated?.getD 0
  | _ => 0

/-- Whether a name is among those that a value holds: the items of a list, the texts inside a text
or the keys of a dictionary. -/
def membership? : Value → Option (Text → Bool)
  | .list items => some fun name ↦ items.any (isText name)
  | .text t => some fun name ↦ (Text.find? name t).isSome
  | .dictionary entries => some fun name ↦ entries.any fun entry ↦ isText name entry.1
  | _ => none

/-- What a value lists: the items of a list, the characters of a text or the keys of a
dictionary. -/
def listed? : Value → Option (List Value)
  | .list items => some items
  | .text t => some (t.map fun c ↦ .text [c])
  | .dictionary entries => some (entries.map (·.1))
  | _ => none

end Value

/-- The text that a comment line starts with. -/
def LooseSettings.marker? (settings : LooseSettings) : Option Text :=
  match settings.commentMarker with
  | .text marker => some marker
  | _ => none

/-- The comment marker of settings of the right types is their own. -/
@[simp] theorem Settings.marker?_loosen (settings : Settings) :
    settings.loosen.marker? = some settings.commentMarker :=
  rfl

/-- The names that a list of texts holds are those texts. -/
theorem Value.membership?_texts (names : List Text) (name : Text) :
    (Value.list (names.map .text)).membership?.map (· name) = some (names.contains name) := by
  have h : (fun t : Text ↦ t == name) = (fun t ↦ name == t) := by
    funext t
    exact BEq.comm
  simp only [membership?, Option.map_some, List.any_map, Function.comp_def, isText, h,
    List.contains_eq_any_beq]

end AsciidocSpans
