import AsciidocSpans.Proofs.Blocks.Header
import AsciidocSpans.Proofs.Blocks.Lines

/-!
The bound on the steps suffices. Between two calls that consume no line a reader makes fewer than
eight, so eight steps for each line that is left and a few for the readers that are open are never
used up (`runs_readBlocks` and the theorems beside it, one for each reader). What they also say is
that a reader leaves a final part of the lines, and a shorter one where it has to go on. So a text
fails to make a document for one reason only, a cell that spans no columns
(`spansNoColumns_of_ofText`), and without a table for none (`exists_document_of_ofText`).
-/

set_option autoImplicit false
set_option relaxedAutoImplicit false

namespace AsciidocSpans.Blocks

variable {commentMarker : Text} {E : ParseError → Prop}

/-- What is left are final ones of some lines. -/
def LeavesOf {α : Type} (lines : List Line) (_ : α) (s : ReadState) : Prop :=
  s.lines <:+ lines

/-- `E` holds of all that may be wrong with the cells of a table, if one of the lines opens one. -/
def Excuses (E : ParseError → Prop) (lines : List Line) : Prop :=
  ∀ line ∈ lines, ∀ separator delimiter, line.shape = .tableDelimiter separator delimiter →
    ∀ spec number, E (.spansNoColumns spec number)

theorem Excuses.of_suffix {lines others : List Line} (h : Excuses E lines)
    (hothers : others <:+ lines) : Excuses E others :=
  fun line hline ↦ h line (hothers.subset hline)

theorem runs_leaves {α : Type} {x : Reading α} {s : ReadState} {lines others : List Line}
    (h : Runs x s (LeavesOf lines) E) (hlines : lines <:+ others) :
    Runs x s (LeavesOf others) E :=
  h.mono (fun _ _ hleft ↦ hleft.trans hlines) fun _ hproblem ↦ hproblem

section Runs

/-- The lines behind the first one that matters are fewer than the lines. -/
theorem length_significant_lt {lines rest : List Line} {line : Line}
    (h : significant lines = line :: rest) : rest.length < lines.length := by
  have hlength := (significant_suffix lines).length_le
  rw [h, List.length_cons] at hlength
  omega

/-- Where the first line matters, the lines that matter are all lines. -/
theorem significant_cons {line : Line} {rest : List Line}
    (h : line.shape.isIgnorable = false) : significant (line :: rest) = line :: rest := by
  rw [significant, List.dropWhile_cons, h]
  rfl

/-- A line is an item of the list with a marker. -/
def IsItem (itemMarker : Text) (line : Line) : Prop :=
  ∃ kind text checkbox, line.shape = .listItem kind itemMarker text checkbox

/-- A line is a term of the description list with a delimiter. -/
def IsTerm (delimiter : Text) (line : Line) : Prop :=
  ∃ text description, line.shape = .term text delimiter description

theorem IsItem.significant {itemMarker : Text} {line : Line} (h : IsItem itemMarker line)
    (rest : List Line) : significant (line :: rest) = line :: rest := by
  obtain ⟨kind, text, checkbox, hshape⟩ := h
  exact significant_cons (by rw [hshape]; rfl)

theorem IsTerm.significant {delimiter : Text} {line : Line} (h : IsTerm delimiter line)
    (rest : List Line) : significant (line :: rest) = line :: rest := by
  obtain ⟨text, description, hshape⟩ := h
  exact significant_cons (by rw [hshape]; rfl)

/-- Reading up to a closing line gives no more lines than there are. -/
theorem runs_readUntil (closes : Line → Bool) (warning : String) (s : ReadState) :
    Runs (readUntil closes warning) s
      (fun content s' ↦ content.length ≤ s.lines.length ∧ s'.lines <:+ s.lines) E := by
  obtain ⟨s', heq, hlines, -⟩ := readUntil_eq closes warning s
  obtain ⟨hbehind, hcontent⟩ := splitAtClosing_suffix closes s.lines
  rw [Runs, heq]
  exact ⟨hcontent.length_le, by rw [hlines]; exact hbehind⟩

theorem runs_skipCommentBlock (delimiter : Text) (number : Int) (s : ReadState) :
    Runs (skipCommentBlock delimiter number) s (LeavesOf s.lines) E :=
  (runs_readUntil _ _ s).bind fun _ _ h ↦ runs_pure h.2

theorem runs_readVerbatim (opening : Line) (closes : Line.Shape → Bool) (s : ReadState) :
    Runs (readVerbatim opening closes) s (LeavesOf s.lines) E :=
  (runs_readUntil _ _ s).bind fun _ _ h ↦ runs_pure h.2

theorem runs_readVerbatimBlock? (metadata : Metadata) (opening : Line) (kind : DelimitedKind)
    (delimiter : Text) (s : ReadState) :
    Runs (readVerbatimBlock? metadata opening kind delimiter) s (LeavesOf s.lines) E := by
  cases kind with
  | listing =>
    exact (runs_readVerbatim opening _ s).bind fun _ middle h ↦
      Runs.bind_of_eq (x := get) rfl (runs_pure h)
  | literal => exact (runs_readVerbatim opening _ s).bind fun _ _ h ↦ runs_pure h
  | passthrough => exact (runs_readVerbatim opening _ s).bind fun _ _ h ↦ runs_pure h
  | _ => exact runs_pure List.suffix_rfl

theorem runs_readFenced (opening : Line) (language : Text) (s : ReadState) :
    Runs (readFenced opening language) s (LeavesOf s.lines) E :=
  (runs_readVerbatim opening _ s).bind fun _ _ h ↦ runs_pure h

theorem runs_readMacro (number : Int) (name target body : Text) (s : ReadState) :
    Runs (readMacro number name target body) s (LeavesOf s.lines) E := by
  rw [readMacro]
  split
  · exact runs_pure List.suffix_rfl
  · split
    · exact Runs.bind_of_eq (x := get) rfl (runs_pure List.suffix_rfl)
    · exact runs_pure List.suffix_rfl

theorem runs_readParagraph (attached : Bool) (metadata : Metadata) (first : Line)
    (rest : List Line) (s : ReadState) :
    Runs (readParagraph attached metadata first rest) s (LeavesOf rest) E :=
  Runs.bind_of_eq (x := setLines _) rfl
    (Runs.bind_of_eq (x := get) rfl (runs_pure (paragraphLines_suffix attached first rest)))

theorem runs_readAdmonition (attached : Bool) (style text : Text) (first : Line)
    (rest : List Line) (s : ReadState) :
    Runs (readAdmonition attached style text first rest) s (LeavesOf rest) E :=
  Runs.bind_of_eq (x := setLines _) rfl
    (runs_pure (paragraphLines_suffix attached first rest))

/-- Other lines are read in between; the lines that are left stay as they are. -/
theorem runs_withLines {α : Type} {lines : List Line} {reading : Reading α} {s : ReadState}
    {Q : α → ReadState → Prop} (h : Runs reading { s with lines } Q E) :
    Runs (withLines lines reading) s (fun _ s' ↦ s'.lines = s.lines) E := by
  rw [Runs] at h ⊢
  rw [withLines]
  cases hrun : reading { s with lines } with
  | ok result final => rfl
  | error problem final =>
    rw [hrun] at h
    exact h

end Runs

section Cells

theorem length_classifyAll (first : Int) (texts : List Text) :
    (Line.classifyAll commentMarker first texts).length = texts.length := by
  induction texts generalizing first with
  | nil => rfl
  | cons text rest ih => rw [Line.classifyAll, List.length_cons, List.length_cons, ih]

theorem length_of_mem_rawCells {number : Int} {further : List Text} {segments : List CellSegment} :
    ∀ raw ∈ rawCells number further segments, raw.lines.length ≤ further.length + 1 := by
  induction segments with
  | nil => exact nofun
  | cons segment rest ih =>
    cases rest with
    | nil =>
      intro raw hraw
      rw [List.mem_singleton.mp hraw]
      exact Nat.le_refl _
    | cons next others =>
      intro raw hraw
      rcases List.mem_cons.mp hraw with rfl | hrest
      · rw [List.length_singleton]
        omega
      · exact ih raw hrest

/-- A cell has no more lines than the table. -/
theorem length_of_gatherCells (separator : Char) (content : List Line) :
    (gatherCells separator content).1.length ≤ content.length ∧
      ∀ raw ∈ (gatherCells separator content).2, raw.lines.length ≤ content.length := by
  induction content with
  | nil => exact ⟨Nat.le_refl _, nofun⟩
  | cons line rest ih =>
    obtain ⟨hfurther, hcells⟩ := ih
    have hmore : ∀ raw ∈ (gatherCells separator rest).2,
        raw.lines.length ≤ (line :: rest).length := fun raw hraw ↦
      Nat.le_succ_of_le (hcells raw hraw)
    rw [gatherCells]
    dsimp only
    split
    · exact ⟨Nat.succ_le_succ hfurther, hmore⟩
    · split
      · exact ⟨Nat.succ_le_succ hfurther, hmore⟩
      · next continuation segments _ =>
        constructor
        · split <;> simp
        · intro raw hraw
          rcases List.mem_append.mp hraw with hhere | hrest
          · have hlength := length_of_mem_rawCells raw hhere
            rw [List.length_cons]
            omega
          · exact hmore raw hrest

theorem length_dropBlankStart (number : Int) (lines : List Text) :
    (dropBlankStart number lines).2.length ≤ lines.length := by
  induction lines generalizing number with
  | nil => exact Nat.le_refl _
  | cons first rest ih =>
    cases rest with
    | nil => exact Nat.le_refl _
    | cons second others =>
      rw [dropBlankStart]
      split
      · exact Nat.le_succ_of_le (ih (number + 1))
      · exact Nat.le_refl _

theorem length_dropBlankEnd (lines : List Text) : (dropBlankEnd lines).length ≤ lines.length := by
  rw [dropBlankEnd, List.length_reverse, ← @List.length_reverse _ lines]
  exact (List.dropWhile_suffix _).length_le

theorem length_documentLines (lines : List Text) : (documentLines lines).length = lines.length := by
  cases lines <;> rfl

end Cells

mutual

/-- Reading blocks ends within eight steps for each line and five more. -/
theorem runs_readBlocks (steps : Nat) (terminator : Option Text) (level : Option Nat)
    (metadata : Metadata) (s : ReadState) (hsteps : 8 * s.lines.length + 5 ≤ steps)
    (hexcuses : Excuses E s.lines) :
    Runs (readBlocks commentMarker steps terminator level metadata) s (LeavesOf s.lines) E := by
  match steps with
  | 0 => omega
  | steps + 1 =>
    rw [readBlocks]
    refine Runs.bind_of_eq (x := get) rfl ?_
    have hall : Runs (pure [] : Reading (List Element)) s (LeavesOf s.lines) E :=
      runs_pure List.suffix_rfl
    cases hlines : s.lines with
    | nil =>
      rw [hlines] at hall
      cases terminator with
      | none => exact hall
      | some delimiter => exact Runs.bind_of_eq (x := report _ _) rfl hall
    | cons line rest =>
      rw [hlines, List.length_cons] at hsteps
      rw [hlines] at hall
      dsimp only
      split
      · exact Runs.bind_of_eq (x := setLines rest) rfl (runs_pure (List.suffix_cons line rest))
      · split
        · exact hall
        · refine (runs_readBlock steps _ metadata line rest s hlines (by omega) hexcuses).bind
            fun progress middle hmiddle ↦ ?_
          have hlength := hmiddle.length_le
          have hshorter : middle.lines <:+ s.lines := by
            rw [hlines]
            exact hmiddle.trans (List.suffix_cons line rest)
          have hblocks : ∀ waiting, Runs (readBlocks commentMarker steps terminator level waiting)
              middle (LeavesOf (line :: rest)) E := fun waiting ↦ by
            have hrun := runs_readBlocks steps terminator level waiting middle (by omega)
              (hexcuses.of_suffix hshorter)
            rw [← hlines]
            exact runs_leaves hrun hshorter
          cases progress with
          | pending waiting => exact hblocks waiting
          | block element => exact (hblocks .empty).bind fun _ _ h ↦ runs_pure h

theorem runs_readBlock (steps : Nat) (place : Place) (metadata : Metadata) (line : Line)
    (rest : List Line) (s : ReadState) (hlines : s.lines = line :: rest)
    (hsteps : 8 * rest.length + 12 ≤ steps) (hexcuses : Excuses E s.lines) :
    Runs (readBlock commentMarker steps place metadata line rest) s (LeavesOf rest) E := by
  have hrest : Excuses E rest := hexcuses.of_suffix (by
    rw [hlines]
    exact List.suffix_cons line rest)
  match steps with
  | 0 => omega
  | steps + 1 =>
    rw [readBlock]
    cases hshape : line.shape with
    | blank | comment | blockAnchor | blockAttributes | blockTitle =>
      exact Runs.bind_of_eq (x := setLines rest) rfl (runs_pure List.suffix_rfl)
    | attributeEntry name value =>
      exact Runs.bind_of_eq (x := recordEntry name value) rfl
        (Runs.bind_of_eq (x := setLines rest) rfl (runs_pure List.suffix_rfl))
    | commentDelimiter delimiter =>
      exact Runs.bind_of_eq (x := setLines rest) rfl
        ((runs_skipCommentBlock delimiter line.number _).bind fun _ _ h ↦ runs_pure h)
    | sectionTitle marker title =>
      dsimp only
      split
      · exact Runs.bind_of_eq (x := setLines rest) rfl
          ((runs_readSection steps metadata line.number marker title { s with lines := rest }
            (by dsimp only; omega) hrest).bind fun _ _ h ↦ runs_pure h)
      · exact (runs_readParagraph _ metadata line rest s).bind fun _ _ h ↦ runs_pure h
    | tableDelimiter separator delimiter =>
      have hcells := hexcuses line (by rw [hlines]; exact List.mem_cons_self) _ _ hshape
      exact Runs.bind_of_eq (x := setLines rest) rfl
        ((runs_readTable steps metadata line.number separator { s with lines := rest }
          (by dsimp only; omega) hcells).bind fun _ _ h ↦ runs_pure h)
    | blockDelimiter kind delimiter =>
      refine Runs.bind_of_eq (x := setLines rest) rfl
        ((runs_readVerbatimBlock? metadata line kind delimiter _).bind
          fun found middle hmiddle ↦ ?_)
      cases found with
      | some element => exact runs_pure hmiddle
      | none =>
        have hlength := List.IsSuffix.length_le hmiddle
        have hblocks := runs_readBlocks steps (some delimiter) none .empty middle
          (by dsimp only at hlength; omega) (hrest.of_suffix hmiddle)
        exact hblocks.bind fun _ _ h ↦ runs_pure (List.IsSuffix.trans h hmiddle)
    | fence language =>
      exact Runs.bind_of_eq (x := setLines rest) rfl
        ((runs_readFenced line language _).bind fun _ _ h ↦ runs_pure h)
    | blockMacro name target body =>
      exact Runs.bind_of_eq (x := setLines rest) rfl
        ((runs_readMacro _ _ _ _ _).bind fun _ _ h ↦ runs_pure h)
    | listItem kind marker text checkbox =>
      exact (runs_readList steps [] line.number kind marker line rest s hlines hshape
        (by omega) hexcuses).bind fun _ _ h ↦ runs_pure h
    | term text delimiter description =>
      exact (runs_readDescriptionList steps line.number delimiter line rest s hlines hshape
        (by omega) hexcuses).bind fun _ _ h ↦ runs_pure h
    | thematicBreak | pageBreak =>
      exact Runs.bind_of_eq (x := setLines rest) rfl (runs_pure List.suffix_rfl)
    | admonition style text =>
      exact (runs_readAdmonition _ style text line rest s).bind fun _ _ h ↦ runs_pure h
    | listContinuation | indentedText | plainText =>
      exact (runs_readParagraph _ metadata line rest s).bind fun _ _ h ↦ runs_pure h

theorem runs_readSection (steps : Nat) (metadata : Metadata) (number : Int) (marker title : Text)
    (s : ReadState) (hsteps : 8 * s.lines.length + 6 ≤ steps) (hexcuses : Excuses E s.lines) :
    Runs (readSection commentMarker steps metadata number marker title) s (LeavesOf s.lines) E := by
  match steps with
  | 0 => omega
  | steps + 1 =>
    have hblocks : ∀ s' : ReadState, s'.lines = s.lines → ∀ result : List Element → Element,
        Runs (readBlocks commentMarker steps none (some (marker.length - 1)) .empty >>=
          fun blocks ↦ pure (result blocks)) s' (LeavesOf s.lines) E := by
      intro s' hs' result
      have hrun := runs_readBlocks steps none (some (marker.length - 1)) .empty s'
        (by rw [hs']; omega) (by rw [hs']; exact hexcuses)
      rw [hs'] at hrun
      exact hrun.bind fun _ _ h ↦ runs_pure h
    rw [readSection]
    split
    · exact runs_pure List.suffix_rfl
    · cases metadata.title with
      | none => exact hblocks s rfl _
      | some dropped =>
        refine Runs.bind_of_eq (x := report _ _) rfl ?_
        exact hblocks _ (by rfl) _

theorem runs_readList (steps : Nat) (ancestors : List Text) (number : Int) (kind : ListKind)
    (marker : Text) (line : Line) (rest : List Line) (s : ReadState)
    (hlines : s.lines = line :: rest) {text : Text} {checkbox : Option Checkbox}
    (hshape : line.shape = .listItem kind marker text checkbox)
    (hsteps : 8 * rest.length + 10 ≤ steps) (hexcuses : Excuses E s.lines) :
    Runs (readList commentMarker steps ancestors number kind marker) s (LeavesOf rest) E := by
  match steps with
  | 0 => omega
  | steps + 1 =>
    rw [readList]
    refine (runs_readItems steps (ancestors ++ [marker]) marker s ?_ hexcuses).bind
      fun _ _ h ↦ runs_pure (h.2 line rest hlines ⟨kind, text, checkbox, hshape⟩)
    rw [hlines, List.length_cons]
    omega

/-- Reading items consumes the first line if it is an item of the list. -/
theorem runs_readItems (steps : Nat) (markers : List Text) (marker : Text) (s : ReadState)
    (hsteps : 8 * s.lines.length + 1 ≤ steps) (hexcuses : Excuses E s.lines) :
    Runs (readItems commentMarker steps markers marker) s (fun _ s' ↦ s'.lines <:+ s.lines ∧
      ∀ line rest, s.lines = line :: rest → IsItem marker line → s'.lines <:+ rest) E := by
  match steps with
  | 0 => omega
  | steps + 1 =>
    -- Without an item of the list the first line is none either.
    have hstop : (∀ line ∈ (significant s.lines).head?, ¬ IsItem marker line) →
        Runs (pure [] : Reading (List ListItem)) s (fun _ s' ↦ s'.lines <:+ s.lines ∧
          ∀ line rest, s.lines = line :: rest → IsItem marker line → s'.lines <:+ rest) E := by
      intro hother
      refine runs_pure ⟨List.suffix_rfl, fun line rest hlines hitem ↦ ?_⟩
      rw [hlines, hitem.significant] at hother
      exact absurd hitem (hother line rfl)
    rw [readItems]
    refine Runs.bind_of_eq (x := get) rfl ?_
    cases hsignificant : significant s.lines with
    | nil => exact hstop (by rw [hsignificant]; exact nofun)
    | cons line rest =>
      dsimp only
      split
      · next kind found text checkbox hshape =>
        split
        · next hfound =>
          have hbehind : rest <:+ s.lines := by
            have hsuffix := significant_suffix s.lines
            rw [hsignificant] at hsuffix
            exact (List.suffix_cons line rest).trans hsuffix
          have hlength := length_significant_lt hsignificant
          refine (runs_readItem steps markers line.number text checkbox rest s (by omega)
            (hexcuses.of_suffix hbehind)).bind fun item middle hmiddle ↦ ?_
          have hshorter := List.IsSuffix.length_le hmiddle
          refine (runs_readItems steps markers marker middle (by omega)
            (hexcuses.of_suffix (hmiddle.trans hbehind))).bind fun others final hfinal ↦
              runs_pure ⟨(hfinal.1.trans hmiddle).trans hbehind, ?_⟩
          intro first others hlines hitem
          rw [hlines, hitem.significant] at hsignificant
          cases hsignificant
          exact hfinal.1.trans hmiddle
        · next hfound =>
          refine hstop fun first hfirst ⟨_, _, _, hother⟩ ↦ hfound ?_
          rw [hsignificant] at hfirst
          cases hfirst
          rw [hshape] at hother
          cases hother
          rfl
      · next hnone =>
        refine hstop fun first hfirst ⟨_, _, _, hother⟩ ↦ ?_
        rw [hsignificant] at hfirst
        cases hfirst
        exact hnone _ _ _ _ hother

theorem runs_readItem (steps : Nat) (markers : List Text) (number : Int) (first : Text)
    (checkbox : Option Checkbox) (rest : List Line) (s : ReadState)
    (hsteps : 8 * rest.length + 4 ≤ steps) (hexcuses : Excuses E rest) :
    Runs (readItem commentMarker steps markers number first checkbox rest) s (LeavesOf rest) E := by
  match steps with
  | 0 => omega
  | steps + 1 =>
    have hbehind := itemText_suffix first rest
    have hlength := hbehind.length_le
    rw [readItem]
    exact Runs.bind_of_eq (x := setLines _) rfl
      ((runs_readAttachments steps markers { s with lines := (itemText first rest).2 }
        (by dsimp only; omega) (hexcuses.of_suffix hbehind)).bind
          fun _ _ h ↦ runs_pure (List.IsSuffix.trans h hbehind))

theorem runs_readAttachments (steps : Nat) (markers : List Text) (s : ReadState)
    (hsteps : 8 * s.lines.length + 3 ≤ steps) (hexcuses : Excuses E s.lines) :
    Runs (readAttachments commentMarker steps markers) s (LeavesOf s.lines) E := by
  match steps with
  | 0 => omega
  | steps + 1 =>
    rw [readAttachments]
    refine Runs.bind_of_eq (x := get) rfl ?_
    cases hlines : s.lines with
    | nil =>
      refine runs_pure ?_
      simp only [LeavesOf, hlines, List.suffix_refl]
    | cons line rest =>
      rw [hlines, List.length_cons] at hsteps
      rw [hlines] at hexcuses
      -- Whatever consumed a line, further attachments are read from what it left.
      have hmore : ∀ (middle : ReadState) (behind : List Line), middle.lines <:+ behind →
          behind <:+ line :: rest → behind.length ≤ rest.length →
          ∀ result : List Element → List Element,
          Runs (readAttachments commentMarker steps markers >>= fun others ↦ pure (result others))
            middle (LeavesOf (line :: rest)) E := by
        intro middle behind hmiddle hbehind hshorter result
        have hlength := hmiddle.length_le
        have hsuffix := hmiddle.trans hbehind
        exact (runs_readAttachments steps markers middle (by omega)
          (hexcuses.of_suffix hsuffix)).bind fun _ _ h ↦ runs_pure (List.IsSuffix.trans h hsuffix)
      have hall : Runs (pure [] : Reading (List Element)) s (LeavesOf (line :: rest)) E := by
        refine runs_pure ?_
        simp only [LeavesOf, hlines, List.suffix_refl]
      have hrest := List.suffix_cons line rest
      dsimp only
      split
      · refine Runs.bind_of_eq (x := setLines rest) rfl
          ((runs_readAttached steps .empty { s with lines := rest } (by dsimp only; omega)
            (hexcuses.of_suffix hrest)).bind fun block middle hmiddle ↦ ?_)
        exact hmore middle rest hmiddle hrest (Nat.le_refl _) _
      · cases hsignificant : significant (line :: rest) with
        | nil => exact hall
        | cons candidate behind =>
          have hcandidate : candidate :: behind <:+ line :: rest := by
            rw [← hsignificant]
            exact significant_suffix _
          have hbehind := (List.suffix_cons candidate behind).trans hcandidate
          have hlength := Nat.le_of_succ_le_succ hcandidate.length_le
          dsimp only
          split
          · next kind marker text checkbox hshape =>
            split
            · exact hall
            · refine Runs.bind_of_eq (x := setLines _) rfl
                ((runs_readList steps markers candidate.number kind marker candidate behind
                  { s with lines := candidate :: behind } rfl hshape (by omega)
                  (hexcuses.of_suffix hcandidate)).bind fun list middle hmiddle ↦ ?_)
              exact hmore middle behind hmiddle hbehind hlength _
          · split
            · refine Runs.bind_of_eq (x := setLines _) rfl ?_
              exact hmore _ behind (paragraphLines_suffix true candidate behind) hbehind hlength _
            · exact hall
          · exact hall

theorem runs_readAttached (steps : Nat) (metadata : Metadata) (s : ReadState)
    (hsteps : 8 * s.lines.length + 5 ≤ steps) (hexcuses : Excuses E s.lines) :
    Runs (readAttached commentMarker steps metadata) s (LeavesOf s.lines) E := by
  match steps with
  | 0 => omega
  | steps + 1 =>
    rw [readAttached]
    refine Runs.bind_of_eq (x := get) rfl ?_
    cases hlines : s.lines with
    | nil =>
      refine runs_pure ?_
      simp only [LeavesOf, hlines, List.suffix_refl]
    | cons line rest =>
      rw [hlines, List.length_cons] at hsteps
      refine (runs_readBlock steps .attached metadata line rest s hlines (by omega)
        hexcuses).bind fun progress middle hmiddle ↦ ?_
      have hlength := List.IsSuffix.length_le hmiddle
      have hshorter := List.IsSuffix.trans hmiddle (List.suffix_cons line rest)
      cases progress with
      | pending waiting =>
        have hrun := runs_readAttached steps waiting middle (by omega)
          (hexcuses.of_suffix (by rw [hlines]; exact hshorter))
        exact runs_leaves hrun hshorter
      | block element => exact runs_pure hshorter

theorem runs_readDescriptionList (steps : Nat) (number : Int) (delimiter : Text) (line : Line)
    (rest : List Line) (s : ReadState) (hlines : s.lines = line :: rest) {text : Text}
    {description : Option Text} (hshape : line.shape = .term text delimiter description)
    (hsteps : 8 * rest.length + 11 ≤ steps) (hexcuses : Excuses E s.lines) :
    Runs (readDescriptionList commentMarker steps number delimiter) s (LeavesOf rest) E := by
  match steps with
  | 0 => omega
  | steps + 1 =>
    rw [readDescriptionList]
    refine (runs_readEntries steps delimiter s ?_ hexcuses).bind
      fun _ _ h ↦ runs_pure (h.2 line rest hlines ⟨text, description, hshape⟩)
    rw [hlines, List.length_cons]
    omega

/-- Reading entries consumes the first line if it is a term of the list. -/
theorem runs_readEntries (steps : Nat) (delimiter : Text) (s : ReadState)
    (hsteps : 8 * s.lines.length + 2 ≤ steps) (hexcuses : Excuses E s.lines) :
    Runs (readEntries commentMarker steps delimiter) s (fun _ s' ↦ s'.lines <:+ s.lines ∧
      ∀ line rest, s.lines = line :: rest → IsTerm delimiter line → s'.lines <:+ rest) E := by
  match steps with
  | 0 => omega
  | steps + 1 =>
    have hstop : (∀ line ∈ (significant s.lines).head?, ¬ IsTerm delimiter line) →
        Runs (pure [] : Reading (List DescriptionEntry)) s (fun _ s' ↦ s'.lines <:+ s.lines ∧
          ∀ line rest, s.lines = line :: rest → IsTerm delimiter line → s'.lines <:+ rest) E := by
      intro hother
      refine runs_pure ⟨List.suffix_rfl, fun line rest hlines hterm ↦ ?_⟩
      rw [hlines, hterm.significant] at hother
      exact absurd hterm (hother line rfl)
    rw [readEntries]
    refine Runs.bind_of_eq (x := get) rfl ?_
    cases hsignificant : significant s.lines with
    | nil => exact hstop (by rw [hsignificant]; exact nofun)
    | cons line rest =>
      dsimp only
      split
      · next text found description hshape =>
        split
        · next hfound =>
          subst hfound
          have hhere : line :: rest <:+ s.lines := by
            rw [← hsignificant]
            exact significant_suffix _
          have hbehind := (List.suffix_cons line rest).trans hhere
          have hlength := hhere.length_le
          rw [List.length_cons] at hlength
          refine (runs_readEntry steps found line rest s hshape (by omega)
            (hexcuses.of_suffix hbehind)).bind fun entry middle hmiddle ↦ ?_
          have hshorter := List.IsSuffix.length_le hmiddle
          refine (runs_readEntries steps found middle (by omega)
            (hexcuses.of_suffix (List.IsSuffix.trans hmiddle hbehind))).bind
              fun others final hfinal ↦
                runs_pure ⟨(hfinal.1.trans hmiddle).trans hbehind, ?_⟩
          intro first others hlines hterm
          rw [hlines, hterm.significant] at hsignificant
          cases hsignificant
          exact hfinal.1.trans hmiddle
        · next hfound =>
          refine hstop fun first hfirst ⟨_, _, hother⟩ ↦ hfound ?_
          rw [hsignificant] at hfirst
          cases hfirst
          rw [hshape] at hother
          cases hother
          rfl
      · next hnone =>
        refine hstop fun first hfirst ⟨_, _, hother⟩ ↦ ?_
        rw [hsignificant] at hfirst
        cases hfirst
        exact hnone _ _ _ hother

theorem runs_readEntry (steps : Nat) (delimiter : Text) (line : Line) (rest : List Line)
    (s : ReadState) {text : Text} {description : Option Text}
    (hshape : line.shape = .term text delimiter description)
    (hsteps : 8 * rest.length + 9 ≤ steps) (hexcuses : Excuses E rest) :
    Runs (readEntry commentMarker steps delimiter (line :: rest)) s (LeavesOf rest) E := by
  match steps with
  | 0 => omega
  | steps + 1 =>
    rw [readEntry]
    refine (runs_readDescriptionStart (terms_termRun_ne_nil hshape rest) s).bind
      fun (lineno, text, behind) middle ⟨hmiddle, hbehind⟩ ↦ ?_
    have hsuffix : behind <:+ rest := hbehind.trans (termRun_suffix_of_term hshape rest)
    have hlength := hsuffix.length_le
    rw [hmiddle]
    refine Runs.bind_of_eq (x := setLines behind) rfl ?_
    exact (runs_readDescriptionAttachments steps delimiter { s with lines := behind }
      (by dsimp only; omega) (hexcuses.of_suffix hsuffix)).bind
        fun _ _ h ↦ runs_pure (List.IsSuffix.trans h hsuffix)

theorem runs_readDescriptionAttachments (steps : Nat) (delimiter : Text) (s : ReadState)
    (hsteps : 8 * s.lines.length + 4 ≤ steps) (hexcuses : Excuses E s.lines) :
    Runs (readDescriptionAttachments commentMarker steps delimiter) s (LeavesOf s.lines) E := by
  match steps with
  | 0 => omega
  | steps + 1 =>
    rw [readDescriptionAttachments]
    refine Runs.bind_of_eq (x := get) rfl ?_
    cases hlines : s.lines with
    | nil =>
      refine runs_pure ?_
      simp only [LeavesOf, hlines, List.suffix_refl]
    | cons line rest =>
      rw [hlines, List.length_cons] at hsteps
      rw [hlines] at hexcuses
      have hmore : ∀ (middle : ReadState) (behind : List Line), middle.lines <:+ behind →
          behind <:+ line :: rest → behind.length ≤ rest.length →
          ∀ result : List Element → List Element,
          Runs (readDescriptionAttachments commentMarker steps delimiter >>=
            fun others ↦ pure (result others)) middle (LeavesOf (line :: rest)) E := by
        intro middle behind hmiddle hbehind hshorter result
        have hlength := hmiddle.length_le
        have hsuffix := hmiddle.trans hbehind
        exact (runs_readDescriptionAttachments steps delimiter middle (by omega)
          (hexcuses.of_suffix hsuffix)).bind fun _ _ h ↦ runs_pure (List.IsSuffix.trans h hsuffix)
      have hall : Runs (pure [] : Reading (List Element)) s (LeavesOf (line :: rest)) E := by
        refine runs_pure ?_
        simp only [LeavesOf, hlines, List.suffix_refl]
      have hrest := List.suffix_cons line rest
      dsimp only
      split
      · refine Runs.bind_of_eq (x := setLines rest) rfl
          ((runs_readAttached steps .empty { s with lines := rest } (by dsimp only; omega)
            (hexcuses.of_suffix hrest)).bind fun block middle hmiddle ↦ ?_)
        exact hmore middle rest hmiddle hrest (Nat.le_refl _) _
      · cases hsignificant : significant (line :: rest) with
        | nil => exact hall
        | cons candidate behind =>
          have hcandidate : candidate :: behind <:+ line :: rest := by
            rw [← hsignificant]
            exact significant_suffix _
          have hbehind := (List.suffix_cons candidate behind).trans hcandidate
          have hlength := Nat.le_of_succ_le_succ hcandidate.length_le
          dsimp only
          split
          · next kind marker text checkbox hshape =>
            refine Runs.bind_of_eq (x := setLines _) rfl
              ((runs_readList steps [] candidate.number kind marker candidate behind
                { s with lines := candidate :: behind } rfl hshape (by omega)
                (hexcuses.of_suffix hcandidate)).bind fun list middle hmiddle ↦ ?_)
            exact hmore middle behind hmiddle hbehind hlength _
          · next text found description hshape =>
            split
            · refine Runs.bind_of_eq (x := setLines _) rfl
                ((runs_readDescriptionList steps candidate.number found candidate behind
                  { s with lines := candidate :: behind } rfl hshape (by omega)
                  (hexcuses.of_suffix hcandidate)).bind fun list middle hmiddle ↦ ?_)
              exact hmore middle behind hmiddle hbehind hlength _
            · exact hall
          · exact hall

theorem runs_readTable (steps : Nat) (metadata : Metadata) (number : Int) (separator : Char)
    (s : ReadState) (hsteps : 8 * s.lines.length + 7 ≤ steps)
    (hcells : ∀ spec number, E (.spansNoColumns spec number)) :
    Runs (readTable commentMarker steps metadata number separator) s (LeavesOf s.lines) E := by
  match steps with
  | 0 => omega
  | steps + 1 =>
    rw [readTable]
    refine (runs_readUntil _ _ s).bind fun content middle hmiddle ↦ ?_
    split
    · refine (Runs.mapM (I := fun s' ↦ s'.lines = middle.lines) _ (fun raw hraw s' hs' ↦ ?_)
        rfl).bind fun cells final hfinal ↦ runs_pure ?_
      · have hlength := (length_of_gatherCells separator content).2 raw hraw
        exact (runs_readCell steps raw s' (by omega) hcells).mono
          (fun _ _ h ↦ h.trans hs') fun _ h ↦ h
      · rw [LeavesOf, hfinal]
        exact hmiddle.2
    · exact runs_pure hmiddle.2

/-- A cell is read from lines of its own; the lines that are left stay as they are. -/
theorem runs_readCell (steps : Nat) (raw : RawCell) (s : ReadState)
    (hsteps : 8 * raw.lines.length + 6 ≤ steps)
    (hcells : ∀ spec number, E (.spansNoColumns spec number)) :
    Runs (readCell commentMarker steps raw) s (fun _ s' ↦ s'.lines = s.lines) E := by
  match steps with
  | 0 => omega
  | steps + 1 =>
    have hlength : (documentLines (dropBlankEnd
        (dropBlankStart raw.lineno raw.lines).2)).length ≤ raw.lines.length := by
      rw [length_documentLines]
      exact Nat.le_trans (length_dropBlankEnd _) (length_dropBlankStart _ _)
    obtain ⟨style, hstyle⟩ := exists_readCellStyle raw.spec s
    rw [readCell]
    dsimp only
    refine Runs.bind_of_eq hstyle ?_
    split
    · exact Runs.bind (R := fun _ _ ↦ False) (runs_throw (hcells _ _)) fun _ _ h ↦ h.elim
    · split
      · refine (runs_withLines (runs_readBlocks steps none none .empty _ ?_ ?_)).bind
          fun blocks middle hmiddle ↦ Runs.bind_of_eq (x := get) rfl (runs_pure hmiddle)
        · dsimp only
          rw [length_classifyAll]
          omega
        · exact fun _ _ _ _ _ ↦ hcells
      · exact runs_pure rfl

end

section Documents

variable {text : Text}

theorem runs_readDocument (lineCount : Nat) (s : ReadState) (hcount : s.lines.length ≤ lineCount)
    (hexcuses : Excuses E s.lines) :
    Runs (readDocument commentMarker lineCount) s (fun _ _ ↦ True) E := by
  rw [readDocument]
  refine (runs_readHeader_suffix s).bind fun head before hsuffix ↦ ?_
  have hlength := hsuffix.length_le
  refine (runs_readBlocks (stepsFor lineCount) none none .empty before ?_
    (hexcuses.of_suffix hsuffix)).bind fun blocks behind _ ↦
      Runs.bind_of_eq (x := get) rfl (runs_pure trivial)
  rw [stepsFor]
  omega

/-- Where a text fails to make a document, `E` holds of the problem. -/
theorem excused_of_ofText {problem : ParseError}
    (hexcuses : Excuses E (Line.classifyAll commentMarker 1 text.lines))
    (h : (Document.ofText commentMarker text).1 = .error problem) : E problem := by
  have hread : Runs (readText commentMarker text) .initial (fun _ _ ↦ True) E := by
    rw [readText]
    refine Runs.bind_of_eq (x := modify _) rfl ?_
    refine (runs_withLines (runs_readDocument text.lines.length _ ?_ hexcuses)).mono
      (fun _ _ _ ↦ trivial) fun _ h ↦ h
    exact Nat.le_of_eq (length_classifyAll 1 text.lines)
  rw [Runs] at hread
  rw [Document.ofText, outcome] at h
  cases hrun : readText commentMarker text .initial with
  | ok document final =>
    rw [hrun] at h
    cases h
  | error cause final =>
    rw [hrun] at h hread
    cases h
    exact hread

/-- A text fails to make a document for one reason only: a cell that spans no columns. -/
theorem spansNoColumns_of_ofText {problem : ParseError}
    (h : (Document.ofText commentMarker text).1 = .error problem) :
    ∃ spec number, problem = .spansNoColumns spec number :=
  excused_of_ofText (E := fun problem ↦ ∃ spec number, problem = .spansNoColumns spec number)
    (fun _ _ _ _ _ spec number ↦ ⟨spec, number, rfl⟩) h

/-- A text without tables makes a document. -/
theorem exists_document_of_ofText
    (h : ∀ line ∈ Line.classifyAll commentMarker 1 text.lines, ∀ separator delimiter,
      line.shape ≠ .tableDelimiter separator delimiter) :
    ∃ document, (Document.ofText commentMarker text).1 = .ok document := by
  cases hresult : (Document.ofText commentMarker text).1 with
  | ok document => exact ⟨document, rfl⟩
  | error problem =>
    have hfalse := excused_of_ofText (E := fun _ ↦ False)
      (fun line hline separator delimiter hshape ↦ absurd hshape (h line hline separator delimiter))
      hresult
    exact hfalse.elim

end Documents

end AsciidocSpans.Blocks
