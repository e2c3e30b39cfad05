/-!
Search windows: the lines among which the text of an element is looked for, and the column from
which its first line is searched. Inside a window that narrows, the elements of a container are
looked for from their own lines on; inside any other window they are looked for all over it.
-/

set_option autoImplicit false
set_option relaxedAutoImplicit false

namespace AsciidocSpans

/-- The bounds of a search. -/
structure Window where
  /-- The first line on which the text may start. -/
  minLine : Int
  /-- The last line that the search may consider. -/
  maxLine : Int
  /-- Whether the elements inside this window narrow it by their own lines. -/
  narrows : Bool := true
  /-- The column from which the first line is searched. -/
  startColumn : Int := 0
  deriving DecidableEq, Repr

namespace Window

/-- The window from another first line on, and up to another last line if one is given. -/
def narrowed (window : Window) (minLine : Int) (maxLine : Option Int) : Window :=
  { window with minLine, maxLine := maxLine.getD window.maxLine, startColumn := 0 }

/-- The window with narrowing switched on or off. -/
def withNarrowing (window : Window) (narrows : Bool) : Window :=
  { window with narrows }

/-- The window with its first line searched from another column on. -/
def fromColumn (window : Window) (startColumn : Int) : Window :=
  { window with startColumn }

/-- The highest line that a search may reach which goes back so many lines before a window. -/
def highestLine (window : Window) (lookback : Int) : Int :=
  max 1 (window.minLine - lookback)

end Window

end AsciidocSpans
