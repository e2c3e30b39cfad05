import AsciidocSpans.Proofs.Blocks.Grammar

/-!
What is read is what the grammar of blocks says (`blocksMade_readBlocks` and the theorems beside it,
by one induction on the steps of the reading; `exists_blocksMade_of_ofText` for a whole text). So
whatever holds of all that is read may be proved by induction on the grammar, without opening the
readers again.
-/

set_option autoImplicit false
set_option relaxedAutoImplicit false

namespace AsciidocSpans

namespace Blocks

/-- A reading comes to a result with which the lines that it leaves are in a relation; it may also
fail. -/
def Comes {α : Type} (x : Reading α) (s : ReadState) (Q : α → List Line → Prop) : Prop :=
  Runs x s (fun result s' ↦ Q result s'.lines) fun _ ↦ True

section Leaves

variable {s : ReadState} {place : Place} {metadata : Metadata} {line : Line} {rest : List Line}

theorem leafMade_readParagraph (starts : line.shape.startsParagraph place) :
    Comes (readParagraph (place == .attached) metadata line rest) s
      (LeafMade place metadata line rest) :=
  Runs.bind_of_eq (x := setLines _) rfl
    (Runs.bind_of_eq (x := get) rfl (runs_pure (.paragraph _ starts)))

theorem leafMade_readAdmonition {style text : Text} (hshape : line.shape = .admonition style text) :
    Comes (readAdmonition (place == .attached) style text line rest) s
      (LeafMade place metadata line rest) :=
  Runs.bind_of_eq (x := setLines _) rfl (runs_pure (.admonition hshape))

/-- The lines of a verbatim block are its content as it was classified. -/
theorem comes_readVerbatim (opening : Line) (closes : Line.Shape → Bool) :
    Comes (readVerbatim opening closes) s fun texts behind ↦
      texts = (contentBefore closes s.lines).map (·.input) ∧
        behind = behindClosing (closes ·.shape) s.lines := by
  obtain ⟨s', heq, hlines, -⟩ := readUntil_eq (fun line ↦ closes line.shape) _ s
  exact Runs.bind_of_eq heq (runs_pure ⟨rfl, hlines⟩)

/-- A delimited block keeps its lines as they are, or no lines are read yet. -/
theorem leafMade_readVerbatimBlock? (place : Place) {kind : DelimitedKind} {delimiter : Text}
    (hshape : line.shape = .blockDelimiter kind delimiter) :
    Comes (readVerbatimBlock? metadata line kind delimiter) s fun found behind ↦
      match found with
      | some element => LeafMade place metadata line s.lines element behind
      | none => isVerbatim kind = false ∧ behind = s.lines := by
  cases kind with
  | listing =>
    refine (comes_readVerbatim line _).bind fun texts middle ⟨htexts, hbehind⟩ ↦
      Runs.bind_of_eq (x := get) rfl (runs_pure ?_)
    rw [htexts, hbehind]
    exact .listing _ hshape
  | literal =>
    refine (comes_readVerbatim line _).bind fun texts middle ⟨htexts, hbehind⟩ ↦ runs_pure ?_
    rw [htexts, hbehind]
    exact .literal hshape
  | passthrough =>
    refine (comes_readVerbatim line _).bind fun _ middle ⟨_, hbehind⟩ ↦ runs_pure ?_
    rw [hbehind]
    exact .passthrough hshape
  | _ => exact runs_pure ⟨rfl, rfl⟩

theorem leafMade_readFenced {language : Text} (hshape : line.shape = .fence language) :
    Comes (readFenced line language) s (LeafMade place metadata line s.lines) := by
  refine (comes_readVerbatim line isFence).bind fun texts middle ⟨htexts, hbehind⟩ ↦ runs_pure ?_
  rw [htexts, hbehind]
  exact .fenced hshape

theorem leafMade_readMacro {name target body : Text}
    (hshape : line.shape = .blockMacro name target body) :
    Comes (readMacro line.number name target body) s (LeafMade place metadata line s.lines) := by
  rw [readMacro]
  split
  · next hname => exact runs_pure (.contents (hname ▸ hshape))
  · next hcontents =>
    split
    · next hname =>
      exact Runs.bind_of_eq (x := get) rfl (runs_pure (.image _ (hname ▸ hshape)))
    · next himage => exact runs_pure (.otherMacro hshape ⟨himage, hcontents⟩)

/-- The description behind some terms starts where the grammar says. -/
theorem descriptionMade_readDescriptionStart (run : TermRun) :
    Runs (readDescriptionStart run) s
      (fun start _ ↦ DescriptionMade run start.1 start.2.1 start.2.2) fun _ ↦ True := by
  have hmissing : Runs (do return (← lastTermLine run.terms, none, run.rest) :
      Reading (Int × Option Text × List Line)) s
      (fun start _ ↦ DescriptionMade run start.1 start.2.1 start.2.2) fun _ ↦ True := by
    rw [lastTermLine]
    cases hlast : run.terms.getLast? with
    | none => exact runs_throw trivial
    | some term => exact runs_pure (.missing hlast)
  rw [readDescriptionStart]
  split
  · next number first hgiven => exact runs_pure (.onTerm hgiven)
  · split
    · next candidate following hsignificant =>
      split
      · next hshape => exact runs_pure (.below hsignificant (by rw [hshape]; rfl))
      · next hshape => exact runs_pure (.below hsignificant (by rw [hshape]; rfl))
      · exact hmissing
    · exact hmissing

end Leaves

/-- What the reading of one step comes to: lines are passed, or a block is read. -/
def StepMade (commentMarker : Text) (place : Place) (metadata : Metadata) (line : Line)
    (rest : List Line) : Progress → List Line → Prop
  | .pending waiting, behind => Passes metadata line rest waiting behind
  | .block element, behind => BlockMade commentMarker place metadata line rest element behind

/-- A cell may stand before any others where the lines of some raw cell stand. -/
def AddsCell (commentMarker : Text) (raw : RawCell) (cell : TableCell) : Prop :=
  ∀ raws cells, CellsMade commentMarker raws cells →
    CellsMade commentMarker (raw :: raws) (cell :: cells)

/-- Other lines are read in between; the lines that are left stay as they are. -/
theorem comes_withLines {α : Type} {lines : List Line} {reading : Reading α} {s : ReadState}
    {Q : α → List Line → Prop} (h : Comes reading { s with lines } Q) :
    Comes (withLines lines reading) s fun result behind ↦
      behind = s.lines ∧ ∃ left, Q result left := by
  rw [Comes, Runs] at h ⊢
  rw [withLines]
  cases hrun : reading { s with lines } with
  | ok result final =>
    rw [hrun] at h
    exact ⟨rfl, final.lines, h⟩
  | error problem final => trivial

/-- Cells that are read one by one are those of the grammar. -/
theorem cellsMade_mapM {commentMarker : Text} {g : RawCell → Reading TableCell}
    (h : ∀ raw s, Comes (g raw) s fun cell behind ↦
      behind = s.lines ∧ AddsCell commentMarker raw cell) (raws : List RawCell) (s : ReadState) :
    Comes (raws.mapM g) s fun cells behind ↦
      behind = s.lines ∧ CellsMade commentMarker raws cells := by
  induction raws generalizing s with
  | nil => exact runs_pure ⟨rfl, .nil⟩
  | cons raw rest ih =>
    rw [List.mapM_cons]
    exact (h raw s).bind fun cell middle ⟨hkept, hcell⟩ ↦
      (ih middle).bind fun cells final ⟨hsame, hcells⟩ ↦
        runs_pure ⟨hsame.trans hkept, hcell rest cells hcells⟩

mutual

/-- The blocks that are read are those of the grammar. -/
theorem blocksMade_readBlocks (commentMarker : Text) (steps : Nat) (terminator : Option Text)
    (level : Option Nat) (metadata : Metadata) (s : ReadState) :
    Comes (readBlocks commentMarker steps terminator level metadata) s
      (BlocksMade commentMarker terminator level metadata s.lines) := by
  match steps with
  | 0 => exact runs_throw trivial
  | steps + 1 =>
    rw [readBlocks]
    refine Runs.bind_of_eq (x := get) rfl ?_
    cases hlines : s.lines with
    | nil =>
      have hended : ∀ s' : ReadState, s'.lines = [] →
          Comes (pure [] : Reading (List Element)) s'
            (BlocksMade commentMarker terminator level metadata []) := by
        intro s' hs'
        refine runs_pure ?_
        rw [hs']
        exact .ended
      cases terminator with
      | none => exact hended s hlines
      | some delimiter => exact Runs.bind_of_eq (x := report _ _) rfl (hended _ hlines)
    | cons line rest =>
      dsimp only
      split
      · next hcloses => exact Runs.bind_of_eq (x := setLines rest) rfl (runs_pure (.closed hcloses))
      · split
        · next hends =>
          refine runs_pure ?_
          rw [hlines]
          exact .left hends
        · next hends =>
          refine (stepMade_readBlock commentMarker steps _ metadata line rest s hlines).bind
            fun progress middle hstep ↦ ?_
          cases progress with
          | pending waiting =>
            exact (blocksMade_readBlocks commentMarker steps terminator level waiting middle).mono
              (fun _ _ h ↦ .passed hstep h) fun _ h ↦ h
          | block element =>
            exact (blocksMade_readBlocks commentMarker steps terminator level .empty middle).bind
              fun others final h ↦
                runs_pure (.block (Bool.eq_false_iff.mpr hends) hstep h)

/-- A step passes what the grammar passes, or it reads a block of the grammar. -/
theorem stepMade_readBlock (commentMarker : Text) (steps : Nat) (place : Place)
    (metadata : Metadata) (line : Line) (rest : List Line) (s : ReadState)
    (hlines : s.lines = line :: rest) :
    Comes (readBlock commentMarker steps place metadata line rest) s
      (StepMade commentMarker place metadata line rest) := by
  have hleaf : ∀ (element : Element) (s' : ReadState),
      LeafMade place metadata line rest element s'.lines →
      Comes (pure (Progress.block (metadata.attach element))) s'
        (StepMade commentMarker place metadata line rest) := fun _ _ h ↦ runs_pure (.leaf h)
  match steps with
  | 0 => exact runs_throw trivial
  | steps + 1 =>
    rw [readBlock]
    cases hshape : line.shape with
    | blank | comment | blockAnchor | blockAttributes | blockTitle =>
      have hpassed : Passes metadata line rest (metadata.after [line]) rest :=
        .line (by rw [hshape]; rfl)
      rw [Metadata.after, List.foldl_cons, List.foldl_nil, hshape] at hpassed
      exact Runs.bind_of_eq (x := setLines rest) rfl (runs_pure hpassed)
    | attributeEntry name value =>
      have hpassed : Passes metadata line rest (metadata.after [line]) rest :=
        .line (by rw [hshape]; rfl)
      rw [Metadata.after, List.foldl_cons, List.foldl_nil, hshape] at hpassed
      exact Runs.bind_of_eq (x := recordEntry name value) rfl
        (Runs.bind_of_eq (x := setLines rest) rfl (runs_pure hpassed))
    | commentDelimiter delimiter =>
      refine Runs.bind_of_eq (x := setLines rest) rfl
        ((runs_skipCommentBlock_behind delimiter line.number _).bind fun _ final h ↦ runs_pure ?_)
      rw [h]
      exact .commentBlock hshape
    | sectionTitle marker title =>
      dsimp only
      split
      · next hbody =>
        exact Runs.bind_of_eq (x := setLines rest) rfl
          ((sectionMade_readSection commentMarker steps place metadata line marker title
            { s with lines := rest } hshape hbody).bind fun _ _ h ↦ runs_pure h)
      · next hbody =>
        exact (leafMade_readParagraph (by rw [hshape]; exact bne_iff_ne.mpr hbody)).bind hleaf
    | tableDelimiter separator delimiter =>
      exact Runs.bind_of_eq (x := setLines rest) rfl
        ((tableMade_readTable commentMarker steps place metadata line separator delimiter
          { s with lines := rest } hshape).bind fun _ _ h ↦ runs_pure h)
    | blockDelimiter kind delimiter =>
      refine Runs.bind_of_eq (x := setLines rest) rfl
        ((leafMade_readVerbatimBlock? place hshape).bind fun found middle h ↦ ?_)
      cases found with
      | some element => exact hleaf element middle h
      | none =>
        refine (blocksMade_readBlocks commentMarker steps (some delimiter) none .empty middle).bind
          fun blocks final hblocks ↦ runs_pure (.delimited hshape h.1 ?_)
        rwa [h.2] at hblocks
    | fence language =>
      exact Runs.bind_of_eq (x := setLines rest) rfl ((leafMade_readFenced hshape).bind hleaf)
    | blockMacro name target body =>
      exact Runs.bind_of_eq (x := setLines rest) rfl ((leafMade_readMacro hshape).bind hleaf)
    | listItem kind marker text checkbox =>
      refine (itemsMade_readList commentMarker steps [] line.number kind marker s).bind
        fun list final ⟨items, hlist, hitems⟩ ↦ runs_pure ?_
      rw [hlist]
      exact .list hshape (hlines ▸ hitems)
    | term text delimiter description =>
      refine (entriesMade_readDescriptionList commentMarker steps line.number delimiter s).bind
        fun list final ⟨entries, hlist, hentries⟩ ↦ runs_pure ?_
      rw [hlist]
      exact .descriptionList hshape (hlines ▸ hentries)
    | thematicBreak =>
      exact Runs.bind_of_eq (x := setLines rest) rfl (hleaf _ _ (.thematicBreak hshape))
    | pageBreak => exact Runs.bind_of_eq (x := setLines rest) rfl (hleaf _ _ (.pageBreak hshape))
    | admonition style text => exact (leafMade_readAdmonition hshape).bind hleaf
    | listContinuation | indentedText | plainText =>
      exact (leafMade_readParagraph (by rw [hshape]; rfl)).bind hleaf

theorem sectionMade_readSection (commentMarker : Text) (steps : Nat) (place : Place)
    (metadata : Metadata) (line : Line) (marker title : Text) (s : ReadState)
    (hshape : line.shape = .sectionTitle marker title) (hbody : place = .body) :
    Comes (readSection commentMarker steps metadata line.number marker title) s
      (BlockMade commentMarker place metadata line s.lines) := by
  match steps with
  | 0 => exact runs_throw trivial
  | steps + 1 =>
    rw [readSection]
    split
    · next hfloats => exact runs_pure (.leaf (.floating hshape hbody (floats_iff.mpr hfloats)))
    · next hfloats =>
      have hblocks : ∀ s' : ReadState, s'.lines = s.lines →
          Comes (readBlocks commentMarker steps none (some (marker.length - 1)) .empty >>=
            fun blocks ↦ pure (openedSection line metadata marker title blocks)) s'
            (BlockMade commentMarker place metadata line s.lines) := by
        intro s' hs'
        refine (blocksMade_readBlocks commentMarker steps none (some (marker.length - 1)) .empty
          s').bind fun blocks final h ↦ runs_pure (.opened hshape hbody ?_ ?_)
        · exact Bool.eq_false_iff.mpr fun htrue ↦ hfloats (floats_iff.mp htrue)
        · rwa [hs'] at h
      cases metadata.title with
      | none => exact hblocks s rfl
      | some dropped => exact Runs.bind_of_eq (x := report _ _) rfl (hblocks _ rfl)

theorem itemsMade_readList (commentMarker : Text) (steps : Nat) (ancestors : List Text)
    (number : Int) (kind : ListKind) (marker : Text) (s : ReadState) :
    Comes (readList commentMarker steps ancestors number kind marker) s fun list behind ↦
      ∃ items, list = makeList number kind marker items ∧
        ItemsMade commentMarker (ancestors ++ [marker]) marker s.lines items behind := by
  match steps with
  | 0 => exact runs_throw trivial
  | steps + 1 =>
    rw [readList]
    exact (itemsMade_readItems commentMarker steps (ancestors ++ [marker]) marker s).bind
      fun items final h ↦ runs_pure ⟨items, rfl, h⟩

theorem itemsMade_readItems (commentMarker : Text) (steps : Nat) (markers : List Text)
    (marker : Text) (s : ReadState) :
    Comes (readItems commentMarker steps markers marker) s
      (ItemsMade commentMarker markers marker s.lines) := by
  match steps with
  | 0 => exact runs_throw trivial
  | steps + 1 =>
    have hstop : (∀ line rest, significant s.lines = line :: rest → ¬IsItem marker line) →
        Comes (pure [] : Reading (List ListItem)) s
          (ItemsMade commentMarker markers marker s.lines) := fun hends ↦ runs_pure (.ended hends)
    rw [readItems]
    refine Runs.bind_of_eq (x := get) rfl ?_
    cases hsignificant : significant s.lines with
    | nil =>
      rw [hsignificant] at hstop
      exact hstop nofun
    | cons line rest =>
      have hother : ¬IsItem marker line → Comes (pure [] : Reading (List ListItem)) s
          (ItemsMade commentMarker markers marker s.lines) := fun hline ↦ hstop fun _ _ heq ↦ by
        rw [hsignificant] at heq
        cases heq
        exact hline
      dsimp only
      split
      · next kind found text checkbox hshape =>
        split
        · next hfound =>
          subst hfound
          refine (itemMade_readItem commentMarker steps markers line.number text checkbox rest
            s).bind fun item middle ⟨blocks, hitem, hattached⟩ ↦ ?_
          rw [hitem]
          exact (itemsMade_readItems commentMarker steps markers found middle).bind
            fun others final hothers ↦ runs_pure (.item hsignificant hshape hattached hothers)
        · next hfound =>
          refine hother ?_
          rintro ⟨_, _, _, hitem⟩
          cases hshape.symm.trans hitem
          exact hfound rfl
      · next hshape =>
        refine hother ?_
        rintro ⟨_, _, _, hitem⟩
        exact hshape _ _ _ _ hitem

theorem itemMade_readItem (commentMarker : Text) (steps : Nat) (markers : List Text)
    (number : Int) (first : Text) (checkbox : Option Checkbox) (rest : List Line)
    (s : ReadState) :
    Comes (readItem commentMarker steps markers number first checkbox rest) s fun item behind ↦
      ∃ blocks, item = { info := { lineno := number }, text := some (itemText first rest).1,
                         checkbox, blocks } ∧
        AttachmentsMade commentMarker markers (itemTail rest).2 blocks behind := by
  match steps with
  | 0 => exact runs_throw trivial
  | steps + 1 =>
    rw [readItem]
    exact Runs.bind_of_eq (x := setLines (itemTail rest).2) rfl
      ((attachmentsMade_readAttachments commentMarker steps markers _).bind
        fun blocks final h ↦ runs_pure ⟨blocks, rfl, h⟩)

theorem attachmentsMade_readAttachments (commentMarker : Text) (steps : Nat)
    (markers : List Text) (s : ReadState) :
    Comes (readAttachments commentMarker steps markers) s
      (AttachmentsMade commentMarker markers s.lines) := by
  match steps with
  | 0 => exact runs_throw trivial
  | steps + 1 =>
    have hstop : (∀ line rest marker, significant s.lines = line :: rest → IsItem marker line →
          marker ∈ markers) →
        Comes (pure [] : Reading (List Element)) s
          (AttachmentsMade commentMarker markers s.lines) := fun hends ↦ runs_pure (.ended hends)
    rw [readAttachments]
    refine Runs.bind_of_eq (x := get) rfl ?_
    cases hlines : s.lines with
    | nil =>
      rw [hlines] at hstop
      exact hstop nofun
    | cons line rest =>
      rw [hlines] at hstop
      dsimp only
      split
      · next hshape =>
        exact Runs.bind_of_eq (x := setLines rest) rfl
          ((attachedMade_readAttached commentMarker steps .empty _).bind fun found middle hfound ↦
            (attachmentsMade_readAttachments commentMarker steps markers middle).bind
              fun blocks final hblocks ↦ runs_pure (.attached hshape hfound hblocks))
      · cases hsignificant : significant (line :: rest) with
        | nil =>
          rw [hsignificant] at hstop
          exact hstop nofun
        | cons candidate behind =>
          rw [hsignificant] at hstop
          -- What stands there may only be left to a list that is open.
          have hother : (∀ marker, IsItem marker candidate → marker ∈ markers) →
              Comes (pure [] : Reading (List Element)) s
                (AttachmentsMade commentMarker markers (line :: rest)) := fun h ↦
            hstop fun _ _ marker heq ↦ by
              cases heq
              exact h marker
          dsimp only
          split
          · next kind marker text checkbox hshape =>
            split
            · next hknown =>
              refine hother ?_
              rintro _ ⟨_, _, _, hitem⟩
              cases hshape.symm.trans hitem
              exact List.contains_iff_mem.mp hknown
            · next hfresh =>
              rw [List.contains_iff_mem] at hfresh
              refine Runs.bind_of_eq (x := setLines (candidate :: behind)) rfl
                ((itemsMade_readList commentMarker steps markers _ kind marker _).bind
                  fun list middle ⟨items, hlist, hitems⟩ ↦ ?_)
              rw [hlist]
              exact (attachmentsMade_readAttachments commentMarker steps markers middle).bind
                fun blocks final hblocks ↦
                  runs_pure (.list hsignificant hshape hfresh hitems hblocks)
          · next hshape =>
            split
            · exact Runs.bind_of_eq (x := setLines _) rfl
                ((attachmentsMade_readAttachments commentMarker steps markers _).bind
                  fun blocks final hblocks ↦
                    runs_pure (.paragraph hsignificant (by rw [hshape]; rfl) hblocks))
            · refine hother ?_
              rintro _ ⟨_, _, _, hitem⟩
              cases hshape.symm.trans hitem
          · next hshape _ =>
            refine hother ?_
            rintro _ ⟨_, _, _, hitem⟩
            exact absurd hitem (hshape _ _ _ _)

theorem attachedMade_readAttached (commentMarker : Text) (steps : Nat) (metadata : Metadata)
    (s : ReadState) :
    Comes (readAttached commentMarker steps metadata) s
      (AttachedMade commentMarker metadata s.lines) := by
  match steps with
  | 0 => exact runs_throw trivial
  | steps + 1 =>
    rw [readAttached]
    refine Runs.bind_of_eq (x := get) rfl ?_
    cases hlines : s.lines with
    | nil =>
      refine runs_pure ?_
      rw [hlines]
      exact .ended
    | cons line rest =>
      refine (stepMade_readBlock commentMarker steps .attached metadata line rest s hlines).bind
        fun progress middle hstep ↦ ?_
      cases progress with
      | pending waiting =>
        exact (attachedMade_readAttached commentMarker steps waiting middle).mono
          (fun _ _ h ↦ .passed hstep h) fun _ h ↦ h
      | block element => exact runs_pure (.block hstep)

theorem entriesMade_readDescriptionList (commentMarker : Text) (steps : Nat) (number : Int)
    (delimiter : Text) (s : ReadState) :
    Comes (readDescriptionList commentMarker steps number delimiter) s fun list behind ↦
      ∃ entries, list = .descriptionList { lineno := number } delimiter entries ∧
        EntriesMade commentMarker delimiter s.lines entries behind := by
  match steps with
  | 0 => exact runs_throw trivial
  | steps + 1 =>
    rw [readDescriptionList]
    exact (entriesMade_readEntries commentMarker steps delimiter s).bind
      fun entries final h ↦ runs_pure ⟨entries, rfl, h⟩

theorem entriesMade_readEntries (commentMarker : Text) (steps : Nat) (delimiter : Text)
    (s : ReadState) :
    Comes (readEntries commentMarker steps delimiter) s
      (EntriesMade commentMarker delimiter s.lines) := by
  match steps with
  | 0 => exact runs_throw trivial
  | steps + 1 =>
    have hstop : (∀ line rest, significant s.lines = line :: rest → ¬IsTerm delimiter line) →
        Comes (pure [] : Reading (List DescriptionEntry)) s
          (EntriesMade commentMarker delimiter s.lines) := fun hends ↦ runs_pure (.ended hends)
    rw [readEntries]
    refine Runs.bind_of_eq (x := get) rfl ?_
    cases hsignificant : significant s.lines with
    | nil =>
      rw [hsignificant] at hstop
      exact hstop nofun
    | cons line rest =>
      have hother : ¬IsTerm delimiter line → Comes (pure [] : Reading (List DescriptionEntry)) s
          (EntriesMade commentMarker delimiter s.lines) := fun hline ↦ hstop fun _ _ heq ↦ by
        rw [hsignificant] at heq
        cases heq
        exact hline
      dsimp only
      split
      · next text found description hshape =>
        split
        · next hfound =>
          subst hfound
          refine (entryMade_readEntry commentMarker steps found (line :: rest) s).bind
            fun entry middle ⟨number, text, left, blocks, isKept, hentry, hstart, hattached⟩ ↦ ?_
          rw [hentry]
          exact (entriesMade_readEntries commentMarker steps found middle).bind
            fun others final hothers ↦
              runs_pure (.entry hsignificant hshape hstart hattached hothers)
        · next hfound =>
          refine hother ?_
          rintro ⟨_, _, hterm⟩
          cases hshape.symm.trans hterm
          exact hfound rfl
      · next hshape =>
        refine hother ?_
        rintro ⟨_, _, hterm⟩
        exact hshape _ _ _ hterm

theorem entryMade_readEntry (commentMarker : Text) (steps : Nat) (delimiter : Text)
    (lines : List Line) (s : ReadState) :
    Comes (readEntry commentMarker steps delimiter lines) s fun entry behind ↦
      ∃ (number : Int) (text : Option Text) (left : List Line) (blocks : List Element)
          (isKept : Bool), entry =
          { terms := (termRun delimiter lines).terms,
            description := if isKept then some { plainItem number text with blocks } else none } ∧
        DescriptionMade (termRun delimiter lines) number text left ∧
        DescriptionAttachmentsMade commentMarker delimiter left blocks behind := by
  match steps with
  | 0 => exact runs_throw trivial
  | steps + 1 =>
    rw [readEntry]
    refine (descriptionMade_readDescriptionStart _).bind
      fun (number, text, left) middle hstart ↦ ?_
    exact Runs.bind_of_eq (x := setLines left) rfl
      ((descriptionAttachmentsMade_readDescriptionAttachments commentMarker steps delimiter
        _).bind fun blocks final h ↦
          runs_pure ⟨number, text, left, blocks, _, rfl, hstart, h⟩)

theorem descriptionAttachmentsMade_readDescriptionAttachments (commentMarker : Text)
    (steps : Nat) (delimiter : Text) (s : ReadState) :
    Comes (readDescriptionAttachments commentMarker steps delimiter) s
      (DescriptionAttachmentsMade commentMarker delimiter s.lines) := by
  match steps with
  | 0 => exact runs_throw trivial
  | steps + 1 =>
    have hstop : Comes (pure [] : Reading (List Element)) s
        (DescriptionAttachmentsMade commentMarker delimiter s.lines) := runs_pure .ended
    rw [readDescriptionAttachments]
    refine Runs.bind_of_eq (x := get) rfl ?_
    cases hlines : s.lines with
    | nil =>
      rw [hlines] at hstop
      exact hstop
    | cons line rest =>
      rw [hlines] at hstop
      dsimp only
      split
      · next hshape =>
        exact Runs.bind_of_eq (x := setLines rest) rfl
          ((attachedMade_readAttached commentMarker steps .empty _).bind fun found middle hfound ↦
            (descriptionAttachmentsMade_readDescriptionAttachments commentMarker steps delimiter
              middle).bind fun blocks final hblocks ↦
                runs_pure (.attached hshape hfound hblocks))
      · cases hsignificant : significant (line :: rest) with
        | nil => exact hstop
        | cons candidate behind =>
          dsimp only
          split
          · next kind marker text checkbox hshape =>
            refine Runs.bind_of_eq (x := setLines (candidate :: behind)) rfl
              ((itemsMade_readList commentMarker steps [] _ kind marker _).bind
                fun list middle ⟨items, hlist, hitems⟩ ↦ ?_)
            rw [hlist]
            exact (descriptionAttachmentsMade_readDescriptionAttachments commentMarker steps
              delimiter middle).bind fun blocks final hblocks ↦
                runs_pure (.list hsignificant hshape hitems hblocks)
          · next text found description hshape =>
            split
            · next hlonger =>
              refine Runs.bind_of_eq (x := setLines (candidate :: behind)) rfl
                ((entriesMade_readDescriptionList commentMarker steps _ found _).bind
                  fun list middle ⟨entries, hlist, hentries⟩ ↦ ?_)
              rw [hlist]
              exact (descriptionAttachmentsMade_readDescriptionAttachments commentMarker steps
                delimiter middle).bind fun blocks final hblocks ↦
                  runs_pure (.descriptionList hsignificant hshape hlonger.2 hentries hblocks)
            · exact hstop
          · exact hstop

theorem tableMade_readTable (commentMarker : Text) (steps : Nat) (place : Place)
    (metadata : Metadata) (line : Line) (separator : Char) (delimiter : Text) (s : ReadState)
    (hshape : line.shape = .tableDelimiter separator delimiter) :
    Comes (readTable commentMarker steps metadata line.number separator) s
      (BlockMade commentMarker place metadata line s.lines) := by
  match steps with
  | 0 => exact runs_throw trivial
  | steps + 1 =>
    rw [readTable]
    obtain ⟨read, hread, hbehind, -⟩ := readUntil_eq
      (fun line ↦ closesTable separator line.shape)
      s!"Unterminated table starting at line {line.number}" s
    refine Runs.bind_of_eq hread ?_
    split
    · next hknown =>
      refine (cellsMade_mapM (addsCell_readCell commentMarker steps) _ read).bind
        fun cells final ⟨hkept, hcells⟩ ↦ runs_pure ?_
      rw [hkept, hbehind]
      exact .table hshape hknown hcells
    · next hother =>
      refine runs_pure (.leaf ?_)
      rw [hbehind]
      exact .otherTable hshape hother

/-- A cell is read from the lines of its own text, and the lines that are left stay as they are. -/
theorem addsCell_readCell (commentMarker : Text) (steps : Nat) (raw : RawCell) (s : ReadState) :
    Comes (readCell commentMarker steps raw) s fun cell behind ↦
      behind = s.lines ∧ AddsCell commentMarker raw cell := by
  have hread : Comes (readCell commentMarker steps raw) s fun cell behind ↦ behind = s.lines ∧
      (CellOf commentMarker raw cell → AddsCell commentMarker raw cell) := by
    match steps with
    | 0 => exact runs_throw trivial
    | steps + 1 =>
      obtain ⟨style, hstyle⟩ := exists_readCellStyle raw.spec s
      rw [readCell]
      dsimp only
      refine Runs.bind_of_eq hstyle ?_
      split
      · exact Runs.bind (R := fun _ _ ↦ False) (runs_throw trivial) fun _ _ h ↦ h.elim
      · split
        · have hblocks := blocksMade_readBlocks commentMarker steps none none .empty
            { s with lines := cellLines commentMarker raw }
          exact (comes_withLines hblocks).bind fun blocks middle ⟨hkept, left, hread⟩ ↦
            Runs.bind_of_eq (x := get) rfl (runs_pure
              ⟨hkept, fun cellOf _ _ hothers ↦ .document cellOf rfl rfl hread hothers⟩)
        · exact runs_pure ⟨rfl, fun cellOf _ _ hothers ↦ .plain cellOf rfl hothers⟩
  exact hread.and_run.mono (fun _ behind h ↦ ⟨h.1.1, h.1.2 ⟨steps, s, behind, h.2⟩⟩) fun _ h ↦ h

end

section Steps

variable {commentMarker : Text} {steps : Nat} {place : Place} {metadata : Metadata} {line : Line}
  {rest : List Line} {s s' : ReadState}

/-- A step that reads a block reads one of the grammar. -/
theorem blockMade_of_readBlock {element : Element} (hlines : s.lines = line :: rest)
    (h : readBlock commentMarker steps place metadata line rest s = .ok (.block element) s') :
    BlockMade commentMarker place metadata line rest element s'.lines :=
  (stepMade_readBlock commentMarker steps place metadata line rest s hlines).of_eq_ok h

/-- A step that reads no block passes what the grammar passes. -/
theorem passes_of_readBlock {waiting : Metadata} (hlines : s.lines = line :: rest)
    (h : readBlock commentMarker steps place metadata line rest s = .ok (.pending waiting) s') :
    Passes metadata line rest waiting s'.lines :=
  (stepMade_readBlock commentMarker steps place metadata line rest s hlines).of_eq_ok h

end Steps

/-- The blocks of a document that is made of a text are those of the grammar, read from the lines
of the text or from those behind its header. -/
theorem exists_blocksMade_of_ofText {commentMarker text : Text} {document : Document}
    (h : (Document.ofText commentMarker text).1 = .ok document) :
    ∃ (head : Option HeaderRead) (begun before : ReadState) (blocks : List Element)
      (behind : List Line), begun.lines = Line.classifyAll commentMarker 1 text.lines ∧
        readHeader begun = .ok head before ∧
        BlocksMade commentMarker none none .empty before.lines blocks behind ∧
        document.header = head.map (·.header) ∧
        document.blocks = wrapPreamble head.isSome blocks := by
  obtain ⟨head, begun, before, behind, blocks, hbegun, hhead, hblocks, hheader, hdocument⟩ :=
    exists_readBlocks_of_ofText h
  exact ⟨head, begun, before, blocks, behind.lines, hbegun, hhead,
    (blocksMade_readBlocks commentMarker _ none none .empty before).of_eq_ok hblocks,
    hheader, hdocument⟩

end Blocks

end AsciidocSpans
