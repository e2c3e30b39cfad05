import AsciidocSpans.Binary64.Shortest
import AsciidocSpans.Moment
import AsciidocSpans.Text.Quoted

/-!
Values of any type, as a settings file or a hand-made tree may hold them, and the text by which
messages show them.
-/

set_option autoImplicit false
set_option relaxedAutoImplicit false

namespace AsciidocSpans

/-- A value of any type. A dictionary keeps the order of its keys, which are values too. -/
inductive Value where
  | null
  | boolean (value : Bool)
  | integer (value : Int)
  | float (value : Binary64)
  | moment (value : Moment)
  | text (value : Text)
  | list (items : List Value)
  | dictionary (entries : List (Value × Value))

namespace Value

mutual

/-- The text by which messages show a value. -/
def shown : Value → Text
  | null => "None".toList
  | boolean true => "True".toList
  | boolean false => "False".toList
  | integer n => Text.ofInt n
  | float x => x.text
  | moment m => m.shown
  | text t => t.quoted
  | list items => '[' :: Text.joinWith [',', ' '] (shownItems items) ++ [']']
  | dictionary entries => '{' :: Text.joinWith [',', ' '] (shownEntries entries) ++ ['}']

/-- The texts by which messages show the items of a list. -/
def shownItems : List Value → List Text
  | [] => []
  | item :: rest => item.shown :: shownItems rest

/-- The texts by which messages show the entries of a dictionary. -/
def shownEntries : List (Value × Value) → List Text
  | [] => []
  | (key, item) :: rest => (key.shown ++ [':', ' '] ++ item.shown) :: shownEntries rest

end

/-- Whether a value counts as true: everything does but null, false, zero and what is empty. -/
def isTrue : Value → Bool
  | null => false
  | boolean b => b
  | integer n => n != 0
  | float x => !x.isZero
  | moment _ => true
  | text t => !t.isEmpty
  | list items => !items.isEmpty
  | dictionary entries => !entries.isEmpty

/-- Whether a value holds other values. -/
def isCollection : Value → Bool
  | list _ | dictionary _ => true
  | _ => false

/-- Whether a value is a given text. -/
def isText (name : Text) : Value → Bool
  | text t => t == name
  | _ => false

end Value

end AsciidocSpans
