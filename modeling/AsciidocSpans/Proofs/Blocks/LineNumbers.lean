import AsciidocSpans.Proofs.Blocks.Formation

/-!
Elements stand on lines of the text. The lines of a text are numbered from one on without gaps, and
so are the lines of the document inside a cell, from a line of the table on and no further than the
table goes: blank lines at the start of a cell move its first line down by as many lines as are
dropped. So all lines that are ever read are numbered within the text (`lasting_fits`), and with
them all elements (`lineno_of_ofText`).
-/

set_option autoImplicit false
set_option relaxedAutoImplicit false

namespace AsciidocSpans.Blocks

open Element

variable {commentMarker : Text} {last : Int}

/-- Lines are numbered from one on at the earliest, and each has room for the lines behind it up to
a last number. -/
def Fits (last : Int) (lines : List Line) : Prop :=
  ∀ line rest, line :: rest <:+ lines → 1 ≤ line.number ∧ line.number + rest.length ≤ last

theorem Fits.of_suffix {rest lines : List Line} (h : Fits last lines) (hrest : rest <:+ lines) :
    Fits last rest :=
  fun line others hline ↦ h line others (hline.trans hrest)

theorem Fits.of_prefix {content lines : List Line} (h : Fits last lines)
    (hcontent : content <+: lines) : Fits last content := by
  obtain ⟨behind, rfl⟩ := hcontent
  intro line rest ⟨before, hline⟩
  have hsuffix : line :: (rest ++ behind) <:+ content ++ behind :=
    ⟨before, by rw [← hline, List.append_assoc]; rfl⟩
  obtain ⟨hfirst, hlast⟩ := h line _ hsuffix
  rw [List.length_append] at hlast
  exact ⟨hfirst, by omega⟩

/-- Lines that are classified are numbered one by one. -/
theorem number_of_suffix_classifyAll {first : Int} {texts : List Text} {line : Line}
    {rest : List Line} (h : line :: rest <:+ Line.classifyAll commentMarker first texts) :
    first ≤ line.number ∧ line.number + rest.length + 1 = first + texts.length := by
  induction texts generalizing first with
  | nil =>
    rw [Line.classifyAll, List.suffix_nil] at h
    cases h
  | cons text others ih =>
    rw [Line.classifyAll] at h
    rw [List.length_cons]
    rcases List.suffix_cons_iff.mp h with heq | hsuffix
    · cases heq
      refine ⟨Int.le_refl first, ?_⟩
      change first + _ + 1 = _
      rw [length_classifyAll]
      omega
    · obtain ⟨hfirst, hlast⟩ := ih hsuffix
      push_cast
      omega

/-- Lines that are classified fit if their numbers do. -/
theorem fits_classifyAll {first : Int} {texts : List Text} (hfirst : 1 ≤ first)
    (hlast : first + texts.length ≤ last + 1) :
    Fits last (Line.classifyAll commentMarker first texts) := by
  intro line rest h
  obtain ⟨hline, hrest⟩ := number_of_suffix_classifyAll h
  omega

theorem lineno_of_mem_rawCells {number : Int} {further : List Text} {segments : List CellSegment} :
    ∀ raw ∈ rawCells number further segments, raw.lineno = number := by
  induction segments with
  | nil => exact nofun
  | cons segment rest ih =>
    cases rest with
    | nil =>
      intro raw hraw
      rw [List.mem_singleton.mp hraw]
    | cons next others =>
      intro raw hraw
      rcases List.mem_cons.mp hraw with rfl | hrest
      · rfl
      · exact ih raw hrest

/-- The lines of a cell fit where the lines of the table do. -/
theorem fits_of_gatherCells {separator : Char} {content : List Line} (h : Fits last content) :
    ∀ raw ∈ (gatherCells separator content).2,
      1 ≤ raw.lineno ∧ raw.lineno + raw.lines.length ≤ last + 1 := by
  induction content with
  | nil => exact nofun
  | cons line rest ih =>
    have hmore := ih (h.of_suffix (List.suffix_cons line rest))
    have hfurther := (length_of_gatherCells separator rest).1
    obtain ⟨hfirst, hlast⟩ := h line rest List.suffix_rfl
    rw [gatherCells]
    dsimp only
    split
    · exact hmore
    · split
      · exact hmore
      · intro raw hraw
        rcases List.mem_append.mp hraw with hhere | hrest
        · have hlength := length_of_mem_rawCells raw hhere
          rw [lineno_of_mem_rawCells raw hhere]
          omega
        · exact hmore raw hrest

/-- Blank lines that are dropped move the first line down. -/
theorem lineno_dropBlankStart (number : Int) (lines : List Text) :
    number ≤ (dropBlankStart number lines).1 ∧
      (dropBlankStart number lines).1 + (dropBlankStart number lines).2.length =
        number + lines.length := by
  induction lines generalizing number with
  | nil => exact ⟨Int.le_refl _, rfl⟩
  | cons first rest ih =>
    cases rest with
    | nil => exact ⟨Int.le_refl _, rfl⟩
    | cons second others =>
      rw [dropBlankStart]
      split
      · obtain ⟨hnumber, hlength⟩ := ih (number + 1)
        rw [List.length_cons] at hlength ⊢
        rw [List.length_cons]
        push_cast at hlength ⊢
        omega
      · exact ⟨Int.le_refl _, rfl⟩

/-- Reading keeps lines numbered within bounds. -/
theorem lasting_fits : Lasting commentMarker (Fits last) where
  suffix hsuffix h := h.of_suffix hsuffix
  cell := by
    intro separator content lines raw hcontent h hraw
    obtain ⟨hfirst, hlast⟩ := fits_of_gatherCells (h.of_prefix hcontent) raw hraw
    obtain ⟨hnumber, hlength⟩ := lineno_dropBlankStart raw.lineno raw.lines
    have hdropped := length_dropBlankEnd (dropBlankStart raw.lineno raw.lines).2
    refine fits_classifyAll (Int.le_trans hfirst hnumber) ?_
    rw [length_documentLines]
    omega

/-- Every element of a document stands on a line of the text. -/
theorem lineno_of_ofText {text : Text} {document : Document}
    (h : (Document.ofText commentMarker text).1 = .ok document) :
    AllEverywhere (fun element ↦ 1 ≤ element.lineno ∧ element.lineno ≤ text.lines.length)
      document.blocks := by
  have hfits : Fits text.lines.length (Line.classifyAll commentMarker 1 text.lines) :=
    fits_classifyAll (Int.le_refl 1) (by omega)
  intro element helement held hheld
  obtain ⟨line, rest, hlines, hnumber⟩ :=
    (origin_of_ofText lasting_fits hfits h element helement held hheld).stands
  obtain ⟨hfirst, hlast⟩ := hlines line rest List.suffix_rfl
  rw [hnumber]
  omega

end AsciidocSpans.Blocks
