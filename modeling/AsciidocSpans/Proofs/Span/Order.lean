import AsciidocSpans.Position

/-!
Positions in order. Positions are linearly ordered, and a span is `Ordered` if it ends no earlier
than it starts. `Location.Within` is containment of spans. The span that covers several spans
contains each of them (`within_unionAll`), and its two ends are ends of theirs
(`exists_start_unionAll`, `exists_stop_unionAll`), so it is as well formed as they are.
-/

set_option autoImplicit false
set_option relaxedAutoImplicit false

namespace AsciidocSpans

namespace Position

variable {a b c : Position}

theorem le_refl (a : Position) : a ≤ a :=
  Or.inr ⟨rfl, Int.le_refl _⟩

theorem le_trans (hab : a ≤ b) (hbc : b ≤ c) : a ≤ c := by
  rw [le_iff] at hab hbc ⊢
  omega

theorem le_antisymm (hab : a ≤ b) (hba : b ≤ a) : a = b := by
  rw [le_iff] at hab hba
  rcases a with ⟨line, column⟩
  rcases b with ⟨other, second⟩
  rw [Position.mk.injEq]
  dsimp only at hab hba
  omega

theorem le_total (a b : Position) : a ≤ b ∨ b ≤ a := by
  rw [le_iff, le_iff]
  omega

/-- A position on a later line comes later. -/
theorem le_of_line_lt (h : a.line < b.line) : a ≤ b :=
  Or.inl h

/-- The line of a position that comes no later is no later line. -/
theorem line_le_of_le (h : a ≤ b) : a.line ≤ b.line := by
  rw [le_iff] at h
  omega

theorem earlier_eq_or (a b : Position) : a.earlier b = a ∨ a.earlier b = b := by
  rw [earlier]
  split
  · exact Or.inl rfl
  · exact Or.inr rfl

theorem later_eq_or (a b : Position) : a.later b = a ∨ a.later b = b := by
  rw [later]
  split
  · exact Or.inl rfl
  · exact Or.inr rfl

theorem earlier_le_left (a b : Position) : a.earlier b ≤ a := by
  rw [earlier]
  split
  · exact le_refl a
  · next h => exact (le_total a b).resolve_left h

theorem earlier_le_right (a b : Position) : a.earlier b ≤ b := by
  rw [earlier]
  split
  · next h => exact h
  · exact le_refl b

theorem left_le_later (a b : Position) : a ≤ a.later b := by
  rw [later]
  split
  · exact le_refl a
  · next h => exact (le_total b a).resolve_left h

theorem right_le_later (a b : Position) : b ≤ a.later b := by
  rw [later]
  split
  · next h => exact h
  · exact le_refl b

end Position

namespace Location

variable {inner outer : Location}

/-- A span that ends no earlier than it starts. -/
def Ordered (location : Location) : Prop :=
  location.start ≤ location.stop

/-- A span that starts no earlier and ends no later than another one. -/
def Within (inner outer : Location) : Prop :=
  outer.start ≤ inner.start ∧ inner.stop ≤ outer.stop

theorem within_refl (location : Location) : location.Within location :=
  ⟨Position.le_refl _, Position.le_refl _⟩

theorem Within.trans {middle : Location} (hinner : inner.Within middle)
    (houter : middle.Within outer) : inner.Within outer :=
  ⟨Position.le_trans houter.1 hinner.1, Position.le_trans hinner.2 houter.2⟩

theorem within_union_left (a b : Location) : a.Within (a.union b) :=
  ⟨Position.earlier_le_left _ _, Position.left_le_later _ _⟩

theorem within_union_right (a b : Location) : b.Within (a.union b) :=
  ⟨Position.earlier_le_right _ _, Position.right_le_later _ _⟩

/-- The span that covers some spans contains each of them. -/
theorem within_unionAll {first location : Location} {others : List Location}
    (h : location ∈ first :: others) : location.Within (first.unionAll others) := by
  induction others generalizing first location with
  | nil =>
    rw [List.mem_singleton.mp h]
    exact within_refl first
  | cons next rest ih =>
    have hstep : (first.union next).Within (first.unionAll (next :: rest)) :=
      ih (List.mem_cons_self)
    rcases List.mem_cons.mp h with rfl | hrest
    · exact (within_union_left location next).trans hstep
    · rcases List.mem_cons.mp hrest with rfl | hrest
      · exact (within_union_right first location).trans hstep
      · exact ih (List.mem_cons_of_mem _ hrest)

/-- The span that covers some spans starts where one of them starts. -/
theorem exists_start_unionAll (first : Location) (others : List Location) :
    ∃ location ∈ first :: others, (first.unionAll others).start = location.start := by
  induction others generalizing first with
  | nil => exact ⟨first, List.mem_cons_self, rfl⟩
  | cons next rest ih =>
    obtain ⟨location, hmem, hstart⟩ := ih (first.union next)
    rcases List.mem_cons.mp hmem with rfl | hrest
    · rcases Position.earlier_eq_or first.start next.start with hfirst | hnext
      · exact ⟨first, List.mem_cons_self, hstart.trans hfirst⟩
      · exact ⟨next, List.mem_cons_of_mem _ List.mem_cons_self, hstart.trans hnext⟩
    · exact ⟨location, List.mem_cons_of_mem _ (List.mem_cons_of_mem _ hrest), hstart⟩

/-- The span that covers some spans stops where one of them stops. -/
theorem exists_stop_unionAll (first : Location) (others : List Location) :
    ∃ location ∈ first :: others, (first.unionAll others).stop = location.stop := by
  induction others generalizing first with
  | nil => exact ⟨first, List.mem_cons_self, rfl⟩
  | cons next rest ih =>
    obtain ⟨location, hmem, hstop⟩ := ih (first.union next)
    rcases List.mem_cons.mp hmem with rfl | hrest
    · rcases Position.later_eq_or first.stop next.stop with hfirst | hnext
      · exact ⟨first, List.mem_cons_self, hstop.trans hfirst⟩
      · exact ⟨next, List.mem_cons_of_mem _ List.mem_cons_self, hstop.trans hnext⟩
    · exact ⟨location, List.mem_cons_of_mem _ (List.mem_cons_of_mem _ hrest), hstop⟩

end Location

end AsciidocSpans
