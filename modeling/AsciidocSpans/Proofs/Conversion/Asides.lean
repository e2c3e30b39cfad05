import AsciidocSpans.Proofs.Conversion.Containment
import AsciidocSpans.Proofs.Conversion.Located

/-!
Ids and block titles that are kept. `Keeps` says of some nodes and of others, among which there may
be more nodes of ids and block titles: those there are in the one are in the other, as they are and
in order, and the others end where the one ends, but for ends that are excepted. This holds of nodes
side by side if it holds of each part (`Keeps.append`), and of what they are gathered in
(`Keeps.gathered`).

A position need not be excepted if the nodes reach it anyway (`Keeps.settled`). Where none is, a
sibling behind the ones is looked for where it is behind the others (`Keeps.endOf_eq`).
-/

set_option autoImplicit false
set_option relaxedAutoImplicit false

namespace AsciidocSpans

/-- Whether nodes of a kind are those of ids or of block titles. -/
def NodeKind.isAside : NodeKind → Bool
  | .identifier | .blockTitle => true
  | _ => false

namespace Node

/-- The nodes of ids and block titles in a tree, in document order. -/
def asides (root : Node) : List Node :=
  root.nodes.filter (·.kind.isAside)

/-- The nodes of ids and block titles in some trees. -/
def asidesOf (nodes : List Node) : List Node :=
  nodes.flatMap asides

theorem asidesOf_append (nodes others : List Node) :
    asidesOf (nodes ++ others) = asidesOf nodes ++ asidesOf others :=
  List.flatMap_append

theorem asidesOf_singleton (node : Node) : asidesOf [node] = node.asides :=
  List.flatMap_singleton ..

theorem filter_nodesOfAll (children : List Node) :
    (NodeOf.nodesOfAll children).filter (·.kind.isAside) = asidesOf children := by
  induction children with
  | nil => rfl
  | cons child rest ih =>
    rw [NodeOf.nodesOfAll, List.filter_append, ih]
    rfl

/-- The ids and block titles in the tree of any other node are those below it. -/
theorem asides_mk {kind : NodeKind} (hkind : kind.isAside = false) (raw : Text)
    (location : Location) (range : Int × Int) (children : List Node) :
    asides (.mk kind raw location range children) = asidesOf children := by
  rw [asides, NodeOf.nodes, List.filter_cons_of_neg, filter_nodesOfAll]
  exact Bool.eq_false_iff.mp hkind

end Node

namespace Converter

open Node (asidesOf asidesOf_append asidesOf_singleton asides_mk)

/-! ### Ends -/

/-- One of some nodes ends at a position or behind it. -/
def EndBehind (nodes : List Node) (position : Position) : Prop :=
  ∃ node ∈ nodes, position ≤ node.location.stop

theorem EndBehind.of_mem {nodes : List Node} {node : Node} (hnode : node ∈ nodes) :
    EndBehind nodes node.location.stop :=
  ⟨node, hnode, Position.le_refl _⟩

theorem EndBehind.of_le {nodes : List Node} {position earlier : Position}
    (h : EndBehind nodes position) (hle : earlier ≤ position) : EndBehind nodes earlier := by
  obtain ⟨node, hnode, hstop⟩ := h
  exact ⟨node, hnode, Position.le_trans hle hstop⟩

theorem EndBehind.mono {nodes others : List Node} {position : Position}
    (h : EndBehind nodes position) (hsubset : nodes ⊆ others) : EndBehind others position := by
  obtain ⟨node, hnode, hstop⟩ := h
  exact ⟨node, hsubset hnode, hstop⟩

/-- The latest of some ends is no earlier than any of them. -/
theorem le_foldl_later (nodes : List Node) (stop : Position) :
    let latest := nodes.foldl (fun stop node ↦ stop.later node.location.stop) stop
    stop ≤ latest ∧ ∀ node ∈ nodes, node.location.stop ≤ latest := by
  induction nodes generalizing stop with
  | nil => exact ⟨Position.le_refl _, nofun⟩
  | cons first rest ih =>
    obtain ⟨hfirst, hrest⟩ := ih (stop.later first.location.stop)
    refine ⟨Position.le_trans (Position.left_le_later _ _) hfirst, fun node hnode ↦ ?_⟩
    rcases List.mem_cons.mp hnode with rfl | hmem
    · exact Position.le_trans (Position.right_le_later _ _) hfirst
    · exact hrest node hmem

/-- The end of the sibling located last is the latest one of the ends of its nodes. -/
theorem exists_endOf {nodes : List Node} (hnodes : nodes ≠ []) (lastEnd : Option Position) :
    ∃ stop, endOf lastEnd nodes = some stop ∧
      ∀ position, EndBehind nodes position ↔ position ≤ stop := by
  cases nodes with
  | nil => exact absurd rfl hnodes
  | cons first rest =>
    obtain ⟨hfirst, hrest⟩ := le_foldl_later rest first.location.stop
    refine ⟨_, rfl, fun position ↦ ⟨?_, fun hle ↦ ?_⟩⟩
    · rintro ⟨node, hnode, hle⟩
      rcases List.mem_cons.mp hnode with rfl | hmem
      · exact Position.le_trans hle hfirst
      · exact Position.le_trans hle (hrest node hmem)
    · rcases foldl_later_eq_or rest first.location.stop with heq | ⟨node, hnode, heq⟩
      · exact ⟨first, List.mem_cons_self, heq ▸ hle⟩
      · exact ⟨node, List.mem_cons_of_mem _ hnode, heq ▸ hle⟩

/-! ### Keeping ids and block titles -/

/-- Other nodes keep the ids and block titles of some nodes. They also end where those end, unless
they end later at a position that is excepted. -/
structure Keeps (excepted : Position → Prop) (nodes others : List Node) : Prop where
  asides : (asidesOf nodes).Sublist (asidesOf others)
  reaches : ∀ node ∈ nodes, EndBehind others node.location.stop
  reached : ∀ other ∈ others, excepted other.location.stop ∨ EndBehind nodes other.location.stop

/-- No position is excepted. -/
def never (_ : Position) : Prop :=
  False

section Keeps

variable {excepted : Position → Prop} {nodes others more further : List Node}

theorem keeps_refl (nodes : List Node) : Keeps excepted nodes nodes where
  asides := List.Sublist.refl _
  reaches := fun _ hnode ↦ EndBehind.of_mem hnode
  reached := fun _ hnode ↦ Or.inr (EndBehind.of_mem hnode)

theorem Keeps.append (h : Keeps excepted nodes others) (hmore : Keeps excepted more further) :
    Keeps excepted (nodes ++ more) (others ++ further) where
  asides := by
    rw [asidesOf_append, asidesOf_append]
    exact h.asides.append hmore.asides
  reaches := by
    intro node hnode
    rcases List.mem_append.mp hnode with hmem | hmem
    · exact (h.reaches node hmem).mono (List.subset_append_left _ _)
    · exact (hmore.reaches node hmem).mono (List.subset_append_right _ _)
  reached := by
    intro other hother
    rcases List.mem_append.mp hother with hmem | hmem
    · exact (h.reached other hmem).imp_right (·.mono (List.subset_append_left _ _))
    · exact (hmore.reached other hmem).imp_right (·.mono (List.subset_append_right _ _))

/-- A position need not be excepted if the nodes reach it anyway. -/
theorem Keeps.settled {still : Position → Prop} (h : Keeps excepted nodes others)
    (hreached : ∀ position, excepted position → still position ∨ EndBehind nodes position) :
    Keeps still nodes others where
  asides := h.asides
  reaches := h.reaches
  reached := fun other hother ↦ (h.reached other hother).elim (hreached _) Or.inr

/-- What ends where it did needs no exception. -/
theorem Keeps.of_never (h : Keeps never nodes others) : Keeps excepted nodes others :=
  h.settled fun _ ↦ False.elim

theorem Keeps.eq_nil_iff (h : Keeps never nodes others) : others = [] ↔ nodes = [] := by
  constructor
  · rintro rfl
    refine List.eq_nil_iff_forall_not_mem.mpr fun node hnode ↦ ?_
    obtain ⟨other, hother, -⟩ := h.reaches node hnode
    cases hother
  · rintro rfl
    refine List.eq_nil_iff_forall_not_mem.mpr fun other hother ↦ ?_
    obtain ⟨node, hnode, -⟩ := (h.reached other hother).resolve_left id
    cases hnode

theorem Keeps.endBehind_iff (h : Keeps never nodes others) {position : Position} :
    EndBehind others position ↔ EndBehind nodes position := by
  constructor
  · rintro ⟨other, hother, hle⟩
    exact ((h.reached other hother).resolve_left id).of_le hle
  · rintro ⟨node, hnode, hle⟩
    exact (h.reaches node hnode).of_le hle

/-- Behind the others, the sibling located last ends where it does behind the nodes. -/
theorem Keeps.endOf_eq (h : Keeps never nodes others) (lastEnd : Option Position) :
    endOf lastEnd others = endOf lastEnd nodes := by
  by_cases hnil : nodes = []
  · rw [hnil, h.eq_nil_iff.mpr hnil]
  · obtain ⟨stop, heq, hstop⟩ := exists_endOf hnil lastEnd
    obtain ⟨last, hlast, hends⟩ := exists_endOf (mt h.eq_nil_iff.mp hnil) lastEnd
    have hsame : ∀ position, position ≤ stop ↔ position ≤ last := fun position ↦
      (hstop position).symm.trans (h.endBehind_iff.symm.trans (hends position))
    rw [heq, hlast, Position.le_antisymm ((hsame last).mpr (Position.le_refl _))
      ((hsame stop).mp (Position.le_refl _))]

/-- A node keeps what another one holds if it does so below, and if it ends no earlier. -/
theorem keeps_single {kind : NodeKind} (hkind : kind.isAside = false) {raw shown : Text}
    {location place : Location} {range offsets : Int × Int} (hle : location.stop ≤ place.stop)
    (hlater : excepted place.stop ∨ place.stop = location.stop)
    (h : (asidesOf nodes).Sublist (asidesOf others)) :
    Keeps excepted [.mk kind raw location range nodes] [.mk kind shown place offsets others] where
  asides := by
    rw [asidesOf_singleton, asidesOf_singleton, asides_mk hkind, asides_mk hkind]
    exact h
  reaches := by
    intro node hnode
    rw [List.mem_singleton.mp hnode]
    exact ⟨_, List.mem_singleton_self _, hle⟩
  reached := by
    intro other hother
    rw [List.mem_singleton.mp hother]
    refine hlater.imp_right fun hstop ↦ ⟨_, List.mem_singleton_self _, ?_⟩
    exact hstop ▸ Position.le_refl _

end Keeps

/-! ### Gathering nodes in one -/

/-- Some nodes are gathered in others: these hold the same ids and block titles, and end where those
end. -/
structure Gathered (children result : List Node) : Prop where
  asides : asidesOf result = asidesOf children
  stops : ∀ node ∈ result, ∃ child ∈ children, node.location.stop = child.location.stop
  covers : ∀ child ∈ children, EndBehind result child.location.stop

section Gathered

variable {excepted : Position → Prop} {children others result further : List Node}

theorem gathered_nil : Gathered [] [] :=
  ⟨rfl, nofun, nofun⟩

/-- A node gathers what it covers. -/
theorem gathered_of_coveringSpan {kind : NodeKind} (hkind : kind.isAside = false) {raw : Text}
    {location : Location} {range : Int × Int}
    (hcovers : Node.coveringSpan (children.map (·.location)) = .ok location) :
    Gathered children [.mk kind raw location range children] where
  asides := (asidesOf_singleton _).trans (asides_mk hkind raw location range children)
  stops := by
    intro node hnode
    rw [List.mem_singleton.mp hnode]
    cases children with
    | nil => cases hcovers
    | cons first rest =>
      obtain ⟨place, hplace, hstop⟩ :=
        Location.exists_stop_unionAll first.location (rest.map (·.location))
      obtain ⟨child, hchild, rfl⟩ :=
        List.mem_map.mp (show place ∈ (first :: rest).map (·.location) from hplace)
      cases hcovers
      exact ⟨child, hchild, hstop⟩
  covers := fun child hchild ↦
    ⟨_, List.mem_singleton_self _, (within_of_coveringSpan hcovers hchild).2⟩

theorem Gathered.eq_nil_iff (h : Gathered children result) : result = [] ↔ children = [] := by
  constructor
  · rintro rfl
    refine List.eq_nil_iff_forall_not_mem.mpr fun child hchild ↦ ?_
    obtain ⟨node, hnode, -⟩ := h.covers child hchild
    cases hnode
  · rintro rfl
    refine List.eq_nil_iff_forall_not_mem.mpr fun node hnode ↦ ?_
    obtain ⟨child, hchild, -⟩ := h.stops node hnode
    cases hchild

/-- What is kept is kept where it is gathered. -/
theorem Keeps.gathered (h : Keeps excepted children others) (hresult : Gathered children result)
    (hfurther : Gathered others further) : Keeps excepted result further where
  asides := by
    rw [hresult.asides, hfurther.asides]
    exact h.asides
  reaches := by
    intro node hnode
    obtain ⟨child, hchild, hstop⟩ := hresult.stops node hnode
    obtain ⟨other, hother, hle⟩ := h.reaches child hchild
    rw [hstop]
    exact (hfurther.covers other hother).of_le hle
  reached := by
    intro node hnode
    obtain ⟨other, hother, hstop⟩ := hfurther.stops node hnode
    rw [hstop]
    refine (h.reached other hother).imp_right ?_
    rintro ⟨child, hchild, hle⟩
    exact (hresult.covers child hchild).of_le hle

end Gathered

section Steps

variable {source : Source} {converter : Converter} {kind : NodeKind} {children : List Node}

theorem yields_gathered_around (hkind : kind.isAside = false) (raw : Text) :
    Yields (do return [← assembled (Node.around source kind raw children)])
      (Gathered children) := by
  refine (yields_assembled (P := fun node ↦ Gathered children [node]) fun node hnode ↦ ?_).bind
    fun _ hnode ↦ yields_pure hnode
  obtain ⟨location, range, hcovers, -, rfl⟩ := around_eq_ok hnode
  exact gathered_of_coveringSpan hkind hcovers

theorem yields_gathered_wrapped (hkind : kind.isAside = false) :
    Yields (converter.wrapped kind children) (Gathered children) := by
  rw [wrapped]
  split
  · next hnil =>
    rw [List.isEmpty_iff.mp hnil]
    exact yields_pure gathered_nil
  · exact yields_gathered_around hkind []

/-- A document gathers what there is in it. -/
theorem yields_gathered_root :
    Yields (do
      if children.isEmpty then return []
      else return [← assembled (Node.documentAround source children)])
      (Gathered children) := by
  split
  · next hnil =>
    rw [List.isEmpty_iff.mp hnil]
    exact yields_pure gathered_nil
  · refine (yields_assembled (P := fun node ↦ Gathered children [node]) fun node hnode ↦ ?_).bind
      fun _ hnode ↦ yields_pure hnode
    obtain ⟨location, range, hcovers, -, rfl⟩ := documentAround_eq_ok hnode
    exact gathered_of_coveringSpan rfl hcovers

end Steps

end Converter

end AsciidocSpans
