import AsciidocSpans.Element.Basic

/-!
The parts of an element. `Element.parts` are the elements directly inside an element, `Holds` goes
from an element to everything in it, however deep, and `HasCell` to the cells of the tables in it.
What holds of an element and of everything in it is said with `Everywhere`: it is put together from
the element and its parts (`everywhere_of_parts`), and it weakens like any other property
(`Everywhere.mono`).
-/

set_option autoImplicit false
set_option relaxedAutoImplicit false

namespace AsciidocSpans.Element

/-- The elements directly inside an element. -/
def parts : Element → List Element
  | document d => d.blocks
  | titledSection _ _ blocks | container _ _ blocks | admonition _ _ _ blocks => blocks
  | list _ _ _ items => items.flatMap (·.blocks)
  | listItem item => item.blocks
  | descriptionList _ _ entries =>
    entries.flatMap fun entry ↦ (entry.terms ++ entry.description.toList).flatMap (·.blocks)
  | table _ _ headRows bodyRows =>
    (headRows ++ bodyRows).flatten.flatMap fun cell ↦ (cell.inner.map (·.blocks)).getD []
  | tableCell cell => (cell.inner.map (·.blocks)).getD []
  | header _ | author _ | paragraph .. | listing .. | image .. | tableOfContents _ | unhandled .. =>
    []

theorem parts_mapInfo {element : Element} (change : ElementInfo → ElementInfo) :
    (element.mapInfo change).parts = element.parts := by
  cases element <;> rfl

/-- A cell of a table somewhere inside an element. -/
inductive HasCell : Element → TableCell → Prop
  | here {info : ElementInfo} {columns : Nat} {headRows bodyRows : List (List TableCell)}
      {cell : TableCell} (mem : cell ∈ (headRows ++ bodyRows).flatten) :
      HasCell (.table info columns headRows bodyRows) cell
  | inside {element part : Element} {cell : TableCell} (mem : part ∈ element.parts)
      (has : HasCell part cell) : HasCell element cell

/-- An element somewhere inside an element, or the element itself. -/
inductive Holds : Element → Element → Prop
  | self {element : Element} : Holds element element
  | inside {element part held : Element} (mem : part ∈ element.parts) (holds : Holds part held) :
      Holds element held

/-- A property of an element and of all elements inside it. -/
def Everywhere (P : Element → Prop) (element : Element) : Prop :=
  ∀ held, element.Holds held → P held

/-- A property of some elements and of all elements inside them. -/
def AllEverywhere (P : Element → Prop) (elements : List Element) : Prop :=
  ∀ element ∈ elements, element.Everywhere P

section Everywhere

variable {P Q : Element → Prop} {element part : Element} {elements others : List Element}

theorem Everywhere.here (h : element.Everywhere P) : P element :=
  h element .self

theorem Everywhere.parts (h : element.Everywhere P) : AllEverywhere P element.parts :=
  fun _ hpart held hheld ↦ h held (.inside hpart hheld)

theorem Everywhere.mono (h : element.Everywhere P) (himp : ∀ held, P held → Q held) :
    element.Everywhere Q :=
  fun held hheld ↦ himp held (h held hheld)

theorem AllEverywhere.mono (h : AllEverywhere P elements) (himp : ∀ held, P held → Q held) :
    AllEverywhere Q elements :=
  fun element helement ↦ (h element helement).mono himp

/-- What holds of an element and everywhere in its parts holds everywhere in it. -/
theorem everywhere_of_parts (h : P element) (hparts : AllEverywhere P element.parts) :
    element.Everywhere P := by
  intro held hheld
  cases hheld with
  | self => exact h
  | inside mem holds => exact hparts _ mem held holds

theorem allEverywhere_nil : AllEverywhere P [] := by
  intro element helement
  cases helement

theorem AllEverywhere.cons (h : element.Everywhere P) (hothers : AllEverywhere P others) :
    AllEverywhere P (element :: others) :=
  List.forall_mem_cons.mpr ⟨h, hothers⟩

theorem AllEverywhere.append (h : AllEverywhere P elements) (hothers : AllEverywhere P others) :
    AllEverywhere P (elements ++ others) := by
  intro element helement
  rcases List.mem_append.mp helement with hmem | hmem
  · exact h element hmem
  · exact hothers element hmem

theorem allEverywhere_flatMap {items : List ListItem}
    (h : ∀ item ∈ items, AllEverywhere P item.blocks) :
    AllEverywhere P (items.flatMap (·.blocks)) := by
  intro element helement
  obtain ⟨item, hitem, hmem⟩ := List.mem_flatMap.mp helement
  exact h item hitem element hmem

end Everywhere

end AsciidocSpans.Element
