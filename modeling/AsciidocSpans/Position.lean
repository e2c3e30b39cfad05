/-!
Positions and spans in a source text. Lines count from one and columns from zero; the end of a
span is exclusive. Positions are ordered by line and then by column. Line numbers and columns are
integers, because a request may ask about any of them, also one that no text has.
-/

set_option autoImplicit false
set_option relaxedAutoImplicit false

namespace AsciidocSpans

/-- A line and a column on it. -/
structure Position where
  line : Int
  column : Int
  deriving DecidableEq, Repr

namespace Position

/-- Positions are ordered by line and then by column. -/
instance : LE Position :=
  ⟨fun a b ↦ a.line < b.line ∨ (a.line = b.line ∧ a.column ≤ b.column)⟩

instance (a b : Position) : Decidable (a ≤ b) :=
  inferInstanceAs (Decidable (a.line < b.line ∨ (a.line = b.line ∧ a.column ≤ b.column)))

theorem le_iff {a b : Position} :
    a ≤ b ↔ a.line < b.line ∨ (a.line = b.line ∧ a.column ≤ b.column) :=
  Iff.rfl

/-- The earlier one of two positions. -/
def earlier (a b : Position) : Position :=
  if a ≤ b then a else b

/-- The later one of two positions. -/
def later (a b : Position) : Position :=
  if b ≤ a then a else b

end Position

/-- A span of a source text, from its start up to but not including its stop. -/
structure Location where
  start : Position
  stop : Position
  deriving DecidableEq, Repr

namespace Location

/-- The span from the earlier start to the later stop of two spans. -/
def union (a b : Location) : Location :=
  ⟨a.start.earlier b.start, a.stop.later b.stop⟩

/-- The span that covers a first one and others. -/
def unionAll (first : Location) (others : List Location) : Location :=
  others.foldl union first

end Location

end AsciidocSpans
