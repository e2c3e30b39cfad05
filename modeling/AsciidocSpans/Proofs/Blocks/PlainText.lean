import AsciidocSpans.Proofs.Blocks.Outline
import AsciidocSpans.Proofs.Blocks.Steps
import AsciidocSpans.Proofs.Blocks.Verbatim
import Mathlib.Data.List.TakeWhile

/-!
Plain text: lines of white space, comments and text, and nothing else. Without its comments it falls
into runs, the maximal stretches without a line of white space (`runsOf`), and reading it makes one
paragraph of each run and nothing else (`blocks_of_plain`): there is no header, and the reader skips
comments inside a paragraph just as if they were not there.

`Splits` is the recursion of the reader as a relation between lines and their runs. It holds of the
lines and `runsOf` of them (`splits_runsOf`), and what is said of runs elsewhere is proved by
induction on it.
-/

set_option autoImplicit false
set_option relaxedAutoImplicit false

namespace AsciidocSpans

namespace Line.Shape

/-- Whether a line stands in plain text: white space, a comment, or text. -/
def isPlain : Shape → Bool
  | blank | comment _ | plainText _ => true
  | _ => false

theorem exists_of_isComment {shape : Shape} (h : shape.isComment = true) :
    ∃ shown, shape = .comment shown := by
  cases shape with
  | comment shown => exact ⟨shown, rfl⟩
  | _ => cases h

end Line.Shape

namespace Blocks

open Text

/-- Lines one behind the other, of which there is at least one. -/
structure Run where
  first : Line
  others : List Line

namespace Run

def lines (run : Run) : List Line :=
  run.first :: run.others

/-- The last line of a run. -/
def last (run : Run) : Line :=
  run.others.getLastD run.first

/-- Some lines as a run; none if there are no lines. -/
def ofList? : List Line → Option Run
  | [] => none
  | first :: others => some ⟨first, others⟩

/-- The lines of a run without white space at their ends. -/
def segments (run : Run) : List Text :=
  run.lines.map fun line ↦ trimRight line.input

/-- The paragraph of a run. -/
def paragraph (run : Run) : Element :=
  .paragraph { lineno := run.first.number } false run.segments

theorem last_cons (first next : Line) (others : List Line) :
    (Run.mk first (next :: others)).last = (Run.mk next others).last :=
  List.getLastD_cons

theorem last_mem (run : Run) : run.last ∈ run.lines :=
  List.getLastD_mem_cons

end Run

/-- Lines without the comments among them. -/
def withoutComments (lines : List Line) : List Line :=
  lines.filter (!·.shape.isComment)

/-- The maximal runs of lines that are not white space. -/
def runsOf (lines : List Line) : List Run :=
  (lines.splitOnP (·.shape == .blank)).filterMap Run.ofList?

/-- The runs of a text that are left without its comments. -/
def plainRuns (marker text : Text) : List Run :=
  runsOf (withoutComments (Line.classifyAll marker 1 text.lines))

section Runs

/-- Lines and their runs: white space goes before a run, or a run goes as far as it can. -/
inductive Splits : List Line → List Run → Prop
  | done : Splits [] []
  | blank {line : Line} {rest : List Line} {runs : List Run} (here : line.shape = .blank)
      (others : Splits rest runs) : Splits (line :: rest) runs
  | run {run : Run} {rest : List Line} {runs : List Run}
      (here : ∀ line ∈ run.lines, line.shape ≠ .blank)
      (ends : ∀ line ∈ rest.head?, line.shape = .blank)
      (others : Splits rest runs) : Splits (run.lines ++ rest) (run :: runs)

@[simp] theorem runsOf_nil : runsOf [] = [] :=
  rfl

/-- White space separates what is before it from what is behind it. -/
theorem runsOf_append_blank {line : Line} (h : line.shape = .blank) (before behind : List Line) :
    runsOf (before ++ line :: behind) = runsOf before ++ runsOf behind := by
  rw [runsOf, List.splitOnP_append_cons before behind (by rw [h]; rfl), List.filterMap_append]
  rfl

theorem runsOf_cons_blank {line : Line} (h : line.shape = .blank) (rest : List Line) :
    runsOf (line :: rest) = runsOf rest :=
  runsOf_append_blank h [] rest

theorem runsOf_run {run : Run} (h : ∀ line ∈ run.lines, line.shape ≠ .blank) :
    runsOf run.lines = [run] := by
  rw [runsOf, List.splitOnP_eq_singleton fun line hline ↦ beq_eq_false_iff_ne.mpr (h line hline)]
  rfl

/-- A run goes up to the next line of white space. -/
theorem runsOf_run_append {run : Run} {rest : List Line}
    (h : ∀ line ∈ run.lines, line.shape ≠ .blank)
    (hends : ∀ line ∈ rest.head?, line.shape = .blank) :
    runsOf (run.lines ++ rest) = run :: runsOf rest := by
  cases rest with
  | nil => rw [List.append_nil, runsOf_run h, runsOf_nil]
  | cons line others =>
    have hline := hends line rfl
    rw [runsOf_append_blank hline, runsOf_run h, runsOf_cons_blank hline, List.singleton_append]

/-- Whether a line stands in a run. -/
def isText (line : Line) : Bool :=
  line.shape != .blank

theorem head?_dropWhile_isText (lines : List Line) :
    ∀ line ∈ (lines.dropWhile isText).head?, line.shape = .blank := by
  intro line hline
  have hnot := List.head?_dropWhile_not isText lines
  rw [Option.mem_def.mp hline] at hnot
  exact bne_eq_false_iff_eq.mp hnot

theorem shape_ne_blank_of_mem_takeWhile {lines : List Line} :
    ∀ line ∈ lines.takeWhile isText, line.shape ≠ .blank := by
  intro line hline
  have htext : isText line = true := List.mem_takeWhile_imp hline
  exact bne_iff_ne.mp htext

/-- The first run of lines that start with text, and the runs behind it. -/
theorem runsOf_cons_text {line : Line} (h : line.shape ≠ .blank) (rest : List Line) :
    runsOf (line :: rest) =
      ⟨line, rest.takeWhile isText⟩ :: runsOf (rest.dropWhile isText) := by
  have hrun : ∀ other ∈ (Run.mk line (rest.takeWhile isText)).lines, other.shape ≠ .blank :=
    List.forall_mem_cons.mpr ⟨h, shape_ne_blank_of_mem_takeWhile⟩
  rw [← runsOf_run_append hrun (head?_dropWhile_isText rest), Run.lines, List.cons_append,
    List.takeWhile_append_dropWhile]

/-- Lines are related to the runs of them. -/
theorem splits_runsOf : (lines : List Line) → Splits lines (runsOf lines)
  | [] => .done
  | line :: rest => by
    by_cases hblank : line.shape = .blank
    · rw [runsOf_cons_blank hblank]
      exact .blank hblank (splits_runsOf rest)
    · have hfirst : ∀ text ∈ (Run.mk line (rest.takeWhile isText)).lines, text.shape ≠ .blank :=
        List.forall_mem_cons.mpr ⟨hblank, shape_ne_blank_of_mem_takeWhile⟩
      have hsplits := Splits.run hfirst (head?_dropWhile_isText rest)
        (splits_runsOf (rest.dropWhile isText))
      rw [Run.lines, List.cons_append, List.takeWhile_append_dropWhile] at hsplits
      rwa [runsOf_cons_text hblank]
termination_by lines => lines.length
decreasing_by
  · exact Nat.lt_succ_self _
  · exact Nat.lt_succ_of_le (List.dropWhile_suffix (l := rest) isText).length_le

end Runs

section Reading

variable {marker text : Text} {lines : List Line}

/-- The lines of a paragraph in plain text are those up to the next line of white space, without the
comments among them. -/
theorem paragraphTail_of_plain (h : ∀ line ∈ lines, line.shape.isPlain = true) :
    (paragraphTail false lines).1 =
        ((withoutComments lines).takeWhile isText).map (fun line ↦ trimRight line.input) ∧
      withoutComments (paragraphTail false lines).2 = (withoutComments lines).dropWhile isText := by
  induction lines with
  | nil => exact ⟨rfl, rfl⟩
  | cons line rest ih =>
    obtain ⟨hline, hrest⟩ := List.forall_mem_cons.mp h
    obtain ⟨hlines, hbehind⟩ := ih hrest
    obtain ⟨shape, input, number⟩ := line
    dsimp only at hline
    rw [paragraphTail.eq_def]
    cases shape with
    | blank => exact ⟨rfl, rfl⟩
    | comment shown => exact ⟨hlines, hbehind⟩
    | plainText shown => exact ⟨congrArg (trimRight input :: ·) hlines, hbehind⟩
    | _ => cases hline

/-- Plain text is read as the paragraphs of its runs. -/
theorem runs_readBlocks_of_plain (steps : Nat) (s : ReadState)
    (h : ∀ line ∈ s.lines, line.shape.isPlain = true) (hsteps : s.lines.length + 2 ≤ steps) :
    Runs (readBlocks marker steps none none .empty) s
      (fun blocks _ ↦ blocks = (runsOf (withoutComments s.lines)).map Run.paragraph)
      fun _ ↦ False := by
  induction steps generalizing s with
  | zero => cases hsteps
  | succ steps ih =>
    rw [readBlocks]
    refine Runs.bind_of_eq (x := get) rfl ?_
    obtain ⟨lines, entries, log⟩ := s
    dsimp only at h hsteps ⊢
    cases lines with
    | nil => exact runs_pure rfl
    | cons line rest =>
      obtain ⟨hline, hrest⟩ := List.forall_mem_cons.mp h
      rw [List.length_cons] at hsteps
      obtain ⟨steps, rfl⟩ : ∃ more, steps = more + 1 := ⟨steps - 1, by omega⟩
      obtain ⟨shape, input, number⟩ := line
      dsimp only at hline
      cases shape with
      | blank =>
        exact (ih { lines := rest, entries, log } hrest (by dsimp only; omega))
      | comment shown =>
        exact (ih { lines := rest, entries, log } hrest (by dsimp only; omega))
      | plainText shown =>
        obtain ⟨hsegments, hbehind⟩ := paragraphTail_of_plain hrest
        have hsuffix := paragraphTail_suffix false rest
        have hblock : readBlock marker (steps + 1) .body .empty ⟨.plainText shown, input, number⟩
            rest { lines := ⟨.plainText shown, input, number⟩ :: rest, entries, log } =
            .ok (.block (.paragraph { lineno := number } false
                (trimRight input :: (paragraphTail false rest).1)))
              { lines := (paragraphTail false rest).2, entries, log } := rfl
        refine Runs.bind_of_eq hblock ?_
        refine (ih { lines := (paragraphTail false rest).2, entries, log }
          (fun other hother ↦ hrest other (hsuffix.subset hother)) ?_).bind fun others _ hothers ↦
            runs_pure ?_
        · have hlength := hsuffix.length_le
          dsimp only
          omega
        · have hfirst : runsOf (withoutComments (⟨.plainText shown, input, number⟩ :: rest)) =
              ⟨⟨.plainText shown, input, number⟩, (withoutComments rest).takeWhile isText⟩ ::
                runsOf ((withoutComments rest).dropWhile isText) :=
            runsOf_cons_text (show Line.Shape.plainText shown ≠ .blank from nofun) _
          rw [hothers, hfirst, hsegments, hbehind]
          rfl
      | _ => cases hline

/-- Plain text has no header, and its blocks are the paragraphs of its runs. -/
theorem blocks_of_plain
    (h : ∀ line ∈ Line.classifyAll marker 1 text.lines, line.shape.isPlain = true) :
    ∃ document, (Document.ofText marker text).1 = .ok document ∧ document.header = none ∧
      document.blocks = (plainRuns marker text).map Run.paragraph := by
  obtain ⟨document, hdocument⟩ : ∃ document, (Document.ofText marker text).1 = .ok document :=
    exists_document_of_ofText fun line hline separator delimiter hshape ↦ by
      have hplain := h line hline
      rw [hshape] at hplain
      cases hplain
  obtain ⟨head, begun, before, behind, blocks, hbegun, hhead, hblocks, hheader, hwrapped⟩ :=
    exists_readBlocks_of_ofText hdocument
  have htitle : ∀ line ∈ begun.lines, ∀ title, line.shape ≠ .sectionTitle ['='] title := by
    intro line hline title hshape
    have hplain := h line (hbegun ▸ hline)
    rw [hshape] at hplain
    cases hplain
  obtain ⟨rfl, hlines⟩ := (runs_readHeader_of_ne (E := fun _ ↦ True) htitle).of_eq_ok hhead
  rw [hbegun] at hlines
  refine ⟨document, hdocument, hheader, ?_⟩
  have hsteps : before.lines.length + 2 ≤ stepsFor text.lines.length := by
    rw [hlines, length_classifyAll, stepsFor]
    omega
  have hread := (runs_readBlocks_of_plain _ before (by rwa [hlines]) hsteps).of_eq_ok hblocks
  rw [hlines] at hread
  rw [hwrapped, plainRuns, ← hread]
  exact wrapPreamble_false blocks

end Reading

end Blocks

end AsciidocSpans
