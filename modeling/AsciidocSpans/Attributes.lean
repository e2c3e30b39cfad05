import AsciidocSpans.Text.Basic

/-!
Named attributes in the order of their first assignment. Assigning a name that is already there
changes its value and keeps its place; erasing a name and assigning it again moves it to the end.
-/

set_option autoImplicit false
set_option relaxedAutoImplicit false

namespace AsciidocSpans

/-- Names with their values, in the order in which the names were first assigned. -/
structure Attributes where
  toList : List (Text × Text)
  deriving DecidableEq, Repr

namespace Attributes

/-- No attributes. -/
def empty : Attributes :=
  ⟨[]⟩

instance : EmptyCollection Attributes :=
  ⟨empty⟩

instance : Inhabited Attributes :=
  ⟨empty⟩

/-- Whether there are no attributes. -/
def isEmpty (attributes : Attributes) : Bool :=
  attributes.toList.isEmpty

/-- The value of a name. -/
def get? (attributes : Attributes) (name : Text) : Option Text :=
  attributes.toList.lookup name

/-- Whether a name has a value. -/
def contains (attributes : Attributes) (name : Text) : Bool :=
  (attributes.get? name).isSome

/-- The pairs with one name's value changed, or with the name added at the end. -/
def insertPair (name value : Text) : List (Text × Text) → List (Text × Text)
  | [] => [(name, value)]
  | (other, old) :: rest =>
    if other = name then (name, value) :: rest else (other, old) :: insertPair name value rest

/-- Assign a value to a name. -/
def insert (attributes : Attributes) (name value : Text) : Attributes :=
  ⟨insertPair name value attributes.toList⟩

/-- Remove a name and its value. -/
def erase (attributes : Attributes) (name : Text) : Attributes :=
  ⟨attributes.toList.filter (·.1 != name)⟩

/-- Keep the attributes whose name and value pass a test. -/
def filter (attributes : Attributes) (test : Text → Text → Bool) : Attributes :=
  ⟨attributes.toList.filter fun pair ↦ test pair.1 pair.2⟩

/-- Assign all the attributes of another collection, in its order. -/
def update (attributes others : Attributes) : Attributes :=
  others.toList.foldl (fun result pair ↦ result.insert pair.1 pair.2) attributes

/-- The attributes made by assigning the pairs of a list in turn. -/
def ofList (pairs : List (Text × Text)) : Attributes :=
  empty.update ⟨pairs⟩

end Attributes

end AsciidocSpans
