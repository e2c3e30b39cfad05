import AsciidocSpans.Blocks.Reader
import AsciidocSpans.Proofs.Outcome

/-!
Lines that are read leave the lines behind them. Whatever a run of lines is, a paragraph, the text
of an item, terms, or the content of a block, what is left is a final part of the lines that were
there (`paragraphLines_suffix`, `itemText_suffix`, `termRun_suffix`, `splitAtClosing_suffix`).

None of the readers of such runs fails. Reading up to a closing line always succeeds
(`readUntil_eq`); behind a term there is a last term for the description to fall back on
(`runs_readDescriptionStart`), and every letter that a cell specifier can have is that of a style
(`exists_readCellStyle`).
-/

set_option autoImplicit false
set_option relaxedAutoImplicit false

namespace AsciidocSpans.Blocks

/-- Whether a line is a fence. -/
def isFence : Line.Shape → Bool
  | .fence _ => true
  | _ => false

/-- What is left behind the closing line of some lines; nothing if there is none. -/
def behindClosing (closes : Line → Bool) (lines : List Line) : List Line :=
  (splitAtClosing closes lines).2.getD []

/-- The lines before the first one of a shape that closes a block. -/
def contentBefore (closes : Line.Shape → Bool) (lines : List Line) : List Line :=
  (splitAtClosing (fun line ↦ closes line.shape) lines).1

/-- The content before a closing line and what is left behind it are parts of the lines. -/
theorem splitAtClosing_suffix (closes : Line → Bool) (lines : List Line) :
    behindClosing closes lines <:+ lines ∧ (splitAtClosing closes lines).1 <+: lines := by
  induction lines with
  | nil => exact ⟨List.suffix_rfl, List.prefix_rfl⟩
  | cons line rest ih =>
    rw [behindClosing, splitAtClosing]
    split
    · exact ⟨List.suffix_cons line rest, List.nil_prefix⟩
    · exact ⟨ih.1.trans (List.suffix_cons line rest), List.cons_prefix_cons.mpr ⟨rfl, ih.2⟩⟩

/-- The content of a block and what is left behind it are fewer lines than the block. -/
theorem length_contentBefore_add_le (closes : Line.Shape → Bool) (lines : List Line) :
    (contentBefore closes lines).length + (behindClosing (closes ·.shape) lines).length ≤
      lines.length := by
  induction lines with
  | nil => exact Nat.le_refl 0
  | cons line rest ih =>
    rw [contentBefore, behindClosing] at ih ⊢
    rw [splitAtClosing]
    split
    · rw [Option.getD_some, List.length_nil, List.length_cons]
      omega
    · cases hsplit : splitAtClosing (fun line ↦ closes line.shape) rest with
      | mk content left =>
        rw [hsplit] at ih
        dsimp only at ih ⊢
        rw [List.length_cons, List.length_cons]
        omega

/-- Reading up to a closing line succeeds: it gives the content and leaves what is behind. -/
theorem readUntil_eq (closes : Line → Bool) (warning : String) (s : ReadState) :
    ∃ s', readUntil closes warning s = .ok (splitAtClosing closes s.lines).1 s' ∧
      s'.lines = behindClosing closes s.lines ∧ s'.entries = s.entries := by
  rw [readUntil, behindClosing]
  cases h : splitAtClosing closes s.lines with
  | mk content behind =>
    cases behind with
    | some rest =>
      refine ⟨{ s with lines := rest }, bind_eq_ok.mpr ⟨s, s, rfl, ?_⟩, rfl, rfl⟩
      rw [h]
      rfl
    | none =>
      refine ⟨{ s with lines := [], log := s.log ++
        [{ channel := .blockReading, level := .warning, message := warning }] },
        bind_eq_ok.mpr ⟨s, s, rfl, ?_⟩, rfl, rfl⟩
      rw [h]
      rfl

/-- Reading other lines is reading them in the same state otherwise. -/
theorem exists_ok_of_withLines {α : Type} {lines : List Line} {reading : Reading α} {result : α}
    {s s' : ReadState} (h : withLines lines reading s = .ok result s') :
    ∃ final, reading { s with lines } = .ok result final := by
  rw [withLines] at h
  split at h
  · next found final hread =>
    cases h
    exact ⟨final, hread⟩
  · cases h

theorem significant_suffix (lines : List Line) : significant lines <:+ lines :=
  List.dropWhile_suffix _

theorem paragraphTail_suffix (attached : Bool) (lines : List Line) :
    (paragraphTail attached lines).2 <:+ lines := by
  induction lines with
  | nil => exact List.suffix_rfl
  | cons line rest ih =>
    rw [paragraphTail]
    split
    · exact List.suffix_rfl
    · exact ih.trans (List.suffix_cons line rest)
    · split
      · exact List.suffix_rfl
      · exact ih.trans (List.suffix_cons line rest)

theorem paragraphLines_suffix (attached : Bool) (first : Line) (rest : List Line) :
    (paragraphLines attached first rest).2 <:+ rest :=
  paragraphTail_suffix attached rest

theorem itemTail_suffix (lines : List Line) : (itemTail lines).2 <:+ lines := by
  induction lines with
  | nil => exact List.suffix_rfl
  | cons line rest ih =>
    rw [itemTail]
    split
    · exact ih.trans (List.suffix_cons line rest)
    · exact ih.trans (List.suffix_cons line rest)
    · exact ih.trans (List.suffix_cons line rest)
    · exact List.suffix_rfl

theorem itemText_suffix (first : Text) (rest : List Line) : (itemText first rest).2 <:+ rest :=
  itemTail_suffix rest

theorem termRun_suffix (delimiter : Text) (lines : List Line) :
    (termRun delimiter lines).rest <:+ lines := by
  induction lines with
  | nil => exact List.suffix_rfl
  | cons line rest ih =>
    rw [termRun]
    split
    · split
      · split
        · exact List.suffix_cons line rest
        · exact ih.trans (List.suffix_cons line rest)
      · exact List.suffix_rfl
    · exact List.suffix_rfl

/-- A run that starts with a term leaves only lines behind that. -/
theorem termRun_suffix_of_term {delimiter text : Text} {description : Option Text} {line : Line}
    (hshape : line.shape = .term text delimiter description) (rest : List Line) :
    (termRun delimiter (line :: rest)).rest <:+ rest := by
  rw [termRun, hshape]
  dsimp only
  rw [if_pos rfl]
  cases description with
  | some first => exact List.suffix_rfl
  | none => exact termRun_suffix delimiter rest

/-- Terms have no blocks. -/
theorem blocks_of_mem_termRun {delimiter : Text} {lines : List Line} :
    ∀ term ∈ (termRun delimiter lines).terms, term.blocks = [] := by
  induction lines with
  | nil => exact nofun
  | cons line rest ih =>
    rw [termRun]
    intro term hterm
    split at hterm
    · split at hterm
      · split at hterm
        · rw [List.mem_singleton.mp hterm]
          rfl
        · rcases List.mem_cons.mp hterm with rfl | hrest
          · rfl
          · exact ih term hrest
      · cases hterm
    · cases hterm

/-- A run that starts with a term has one. -/
theorem terms_termRun_ne_nil {delimiter text : Text} {description : Option Text} {line : Line}
    (hshape : line.shape = .term text delimiter description) (rest : List Line) :
    (termRun delimiter (line :: rest)).terms ≠ [] := by
  rw [termRun, hshape]
  dsimp only
  rw [if_pos rfl]
  cases description with
  | some first => exact List.cons_ne_nil _ _
  | none => exact List.cons_ne_nil _ _

/-- The last of some terms has a line. -/
theorem exists_lastTermLine {terms : List ListItem} (hterms : terms ≠ []) (s : ReadState) :
    ∃ lineno, lastTermLine terms s = .ok lineno s := by
  rw [lastTermLine, List.getLast?_eq_some_getLast hterms]
  exact ⟨_, rfl⟩

/-- Behind terms there is a place for a description, and what is left is behind the terms. -/
theorem runs_readDescriptionStart {E : ParseError → Prop} {run : TermRun} (hterms : run.terms ≠ [])
    (s : ReadState) :
    Runs (readDescriptionStart run) s (fun start s' ↦ s' = s ∧ start.2.2 <:+ run.rest) E := by
  have hfallback : Runs (do return (← lastTermLine run.terms, none, run.rest) :
      Reading (Int × Option Text × List Line)) s
      (fun start s' ↦ s' = s ∧ start.2.2 <:+ run.rest) E := by
    obtain ⟨lineno, hlineno⟩ := exists_lastTermLine hterms s
    exact Runs.bind_of_eq hlineno (runs_pure ⟨rfl, List.suffix_rfl⟩)
  rw [readDescriptionStart]
  split
  · next number first _ => exact runs_pure ⟨rfl, itemText_suffix first run.rest⟩
  · split
    · next candidate following hsignificant =>
      have hfollowing : following <:+ run.rest := by
        have hsuffix := significant_suffix run.rest
        rw [hsignificant] at hsuffix
        exact (List.suffix_cons candidate following).trans hsuffix
      split
      · exact runs_pure
          ⟨rfl, (itemText_suffix (Text.trim candidate.input) following).trans hfollowing⟩
      · exact runs_pure
          ⟨rfl, (itemText_suffix (Text.trim candidate.input) following).trans hfollowing⟩
      · exact hfallback
    · exact hfallback

/-- A cell specifier has no letter but those of styles. -/
theorem mem_styleLetters_of_parse? {text : Text} {spec : CellSpec} {letter : Char}
    (h : CellSpec.parse? text = some spec) (hletter : spec.letter = some letter) :
    letter ∈ CellSpec.styleLetters := by
  rw [CellSpec.parse?] at h
  dsimp only at h
  split at h
  · cases h
    cases hletter
  · next found _ =>
    split at h
    · next hfound =>
      cases h
      cases hletter
      exact List.contains_iff_mem.mp hfound
    · cases h
  · cases h

/-- Every letter that may name a style does. -/
theorem isSome_styleOf? : ∀ letter ∈ CellSpec.styleLetters, (CellSpec.styleOf? letter).isSome := by
  have hall :
      CellSpec.styleLetters.all (fun letter ↦ (CellSpec.styleOf? letter).isSome) = true := by
    decide
  exact List.all_eq_true.mp hall

/-- The style of a cell can be told from its specifier, whatever that is. -/
theorem exists_readCellStyle (text : Text) (s : ReadState) : ∃ style,
    readCellStyle ((CellSpec.parse? text).getD { colspan := none, letter := none }).letter s =
      .ok style s := by
  cases hspec : CellSpec.parse? text with
  | none => exact ⟨none, rfl⟩
  | some spec =>
    rw [Option.getD_some]
    cases hletter : spec.letter with
    | none => exact ⟨none, rfl⟩
    | some letter =>
      obtain ⟨style, hstyle⟩ := Option.isSome_iff_exists.mp
        (isSome_styleOf? letter (mem_styleLetters_of_parse? hspec hletter))
      rw [readCellStyle, hstyle]
      exact ⟨some style, rfl⟩

end AsciidocSpans.Blocks
