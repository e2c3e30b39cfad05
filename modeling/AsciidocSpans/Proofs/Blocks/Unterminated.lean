import AsciidocSpans.Proofs.Blocks.Header
import AsciidocSpans.Proofs.Blocks.Reported

/-!
Blocks without their closing lines are reported. Every reader keeps what is expected to be reported
(`expects_readBlocks` and the theorems beside it, by one induction on the steps of the reading), and
at the end of the input there is nothing left to expect. So the warnings about a text are those
about the blocks that it leaves open (`reported_of_ofText`). The lines before the first block are
gone through twice, first to look for a document title, and a comment block that is left open there
is reported both times (`comment_reported_twice`).
-/

set_option autoImplicit false
set_option relaxedAutoImplicit false

namespace AsciidocSpans.Blocks

open Line

section Readers

variable {commentMarker : Text}

mutual

/-- Reading blocks reports what they leave open. The induction is on the steps. -/
theorem expects_readBlocks (steps : Nat) {total : List String} {frames : List Frame}
    (hframes : Encloses frames) (level : Option Nat) (metadata : Metadata) {s : ReadState}
    (hs : Expects commentMarker frames .start total s) :
    Runs (readBlocks commentMarker steps (terminatorOf frames) level metadata) s
      (fun _ s' ↦ Expects commentMarker frames.tail (.behind false) total s' ∧
        (frames = [] → level = none → s'.lines = [])) fun _ ↦ True := by
  match steps with
  | 0 => exact runs_throw trivial
  | steps + 1 =>
    have hplace := hframes.placeOf_ne
    rw [readBlocks]
    refine Runs.bind_of_eq (x := get) rfl ?_
    cases hlines : s.lines with
    | nil =>
      cases hframes with
      | body => exact runs_pure ⟨hs.behind hplace, fun _ _ ↦ hlines⟩
      | block hshape hcontainer =>
        rw [terminatorOf, hshape]
        refine Runs.bind_of_eq (x := report _ _) rfl
          (runs_pure ⟨hs.report_open hlines hshape hcontainer, fun hbody ↦ ?_⟩)
        cases hbody
    | cons line rest =>
      dsimp only
      split
      · next hcloses =>
        -- the closing line takes the block off, and what is around it goes on
        refine Runs.bind_of_eq (x := setLines rest) rfl (runs_pure ⟨?_, fun hbody ↦ ?_⟩)
        · refine hs.on hlines ?_
          change startTurn frames line = _
          rw [startTurn, if_pos hcloses]
        · subst hbody
          simp [closesBlock, terminatorOf] at hcloses
      · next hcloses =>
        split
        · next hends =>
          obtain ⟨hbody, hlevel⟩ := hframes.eq_nil_of_endsSection hends
          subst hbody
          refine runs_pure ⟨hs.behind hplace, fun _ hnone ↦ ?_⟩
          rw [hnone] at hlevel
          cases hlevel
        · rw [hframes.place]
          refine (expects_readBlock steps metadata (Bool.eq_false_iff.mpr hcloses) hlines hs).bind
            fun progress middle hmiddle ↦ ?_
          cases progress with
          | pending waiting => exact expects_readBlocks steps hframes level waiting hmiddle
          | block element =>
            exact (expects_readBlocks steps hframes level .empty (hmiddle.start hplace)).bind
              fun _ _ h ↦ runs_pure h

theorem expects_readBlock (steps : Nat) {total : List String} {frames : List Frame}
    (metadata : Metadata) {line : Line} {rest : List Line} {s : ReadState}
    (hcloses : closesBlock (terminatorOf frames) line.shape = false)
    (hlines : s.lines = line :: rest) (hs : Expects commentMarker frames .start total s) :
    Runs (readBlock commentMarker steps (placeOf frames) metadata line rest) s
      (fun progress ↦ Expects commentMarker frames (modeBehind progress) total)
      fun _ ↦ True := by
  match steps with
  | 0 => exact runs_throw trivial
  | steps + 1 =>
    have hturn : turn frames .start line = blockTurn frames line := turn_start hcloses
    have hblock : ∀ (element : Element) (f : Element → Element) (s' : ReadState),
        Expects commentMarker frames (.behind false) total s' →
        Runs (pure (Progress.block (f element)) : Reading Progress) s'
          (fun progress ↦ Expects commentMarker frames (modeBehind progress) total)
          fun _ ↦ True := fun _ _ _ h ↦ runs_pure h
    rw [blockTurn] at hturn
    rw [readBlock]
    cases hshape : line.shape with
    | blank | comment | blockAnchor | blockAttributes | blockTitle =>
      rw [hshape] at hturn
      have hon := hs.on hlines hturn
      exact Runs.bind_of_eq (x := setLines rest) rfl (runs_pure hon)
    | attributeEntry name value =>
      rw [hshape] at hturn
      have hon := hs.on hlines hturn
      exact Runs.bind_of_eq (x := recordEntry name value) rfl
        (Runs.bind_of_eq (x := setLines rest) rfl (runs_pure hon))
    | commentDelimiter delimiter =>
      rw [hshape] at hturn
      exact Runs.bind_of_eq (x := setLines rest) rfl
        ((expects_skipCommentBlock hs hlines hshape hturn).bind fun _ _ h ↦ runs_pure h)
    | sectionTitle marker title =>
      rw [hshape] at hturn
      dsimp only at hturn ⊢
      split
      · next hbody =>
        have hnil : frames = [] := by
          cases frames with
          | nil => rfl
          | cons frame below => cases frame <;> cases hbody
        subst hnil
        have hon := hs.on hlines (hturn.trans (if_pos hbody))
        exact Runs.bind_of_eq (x := setLines rest) rfl
          ((expects_readSection steps metadata line.number marker title hon).bind
            fun element s' h ↦ hblock element id s' h)
      · next hbody =>
        exact (expects_readParagraph metadata hs hlines (hturn.trans (if_neg hbody))).bind
          fun element s' h ↦ hblock element _ s' h
    | tableDelimiter separator delimiter =>
      rw [hshape] at hturn
      exact Runs.bind_of_eq (x := setLines rest) rfl
        ((expects_readTable steps metadata hs hlines hshape hturn).bind
          fun element s' h ↦ hblock element id s' h)
    | blockDelimiter kind delimiter =>
      refine Runs.bind_of_eq (x := setLines rest) rfl
        ((expects_readVerbatimBlock? metadata hs hlines hcloses hshape).bind
          fun found middle h ↦ ?_)
      cases found with
      | some element => exact hblock element _ middle h
      | none =>
        have hread := expects_readBlocks steps (.block hshape h.1) none .empty h.2
        rw [terminatorOf, hshape] at hread
        exact hread.bind fun _ _ h ↦ runs_pure h.1
    | fence language =>
      rw [hshape] at hturn
      exact Runs.bind_of_eq (x := setLines rest) rfl
        ((expects_readFenced hs hlines hshape hturn).bind fun element s' h ↦ hblock element _ s' h)
    | blockMacro name target body =>
      rw [hshape] at hturn
      exact Runs.bind_of_eq (x := setLines rest) rfl
        ((expects_readMacro line.number name target body (hs.on hlines hturn)).bind
          fun element s' h ↦ hblock element _ s' h)
    | listItem kind marker text checkbox =>
      rw [hshape] at hturn
      obtain ⟨below, hitems, hframes⟩ := exists_withItem frames
      dsimp only at hturn
      rw [hitems] at hturn
      have hitem : IsItem marker line := ⟨kind, text, checkbox, hshape⟩
      -- the line does the same with the frame of its list open already
      have hlist := hs.congr hlines (hturn.trans (turn_of_isItem false hitem).symm)
      refine (expects_readList steps [] line.number kind marker hlist
        (by rw [hlines]; exact hitem.significant rest) hitem).bind fun list s' h ↦
          hblock list _ s' ?_
      -- a list in an attached list shares its frame, so only another one is left
      rcases hframes with rfl | rfl
      · exact h.1
      · exact h.leave rfl
    | term text delimiter description =>
      rw [hshape] at hturn
      have hentries := hs.congr hlines (hturn.trans (turn_of_isTerm false hshape).symm)
      exact (expects_readDescriptionList steps line.number hentries
        (by rw [hlines]; exact IsTerm.significant ⟨text, description, hshape⟩ rest)
        ⟨text, description, hshape⟩).bind fun list s' h ↦ hblock list _ s' (h.leave rfl)
    | thematicBreak | pageBreak =>
      rw [hshape] at hturn
      have hon := hs.on hlines hturn
      exact Runs.bind_of_eq (x := setLines rest) rfl (runs_pure hon)
    | admonition style text =>
      rw [hshape] at hturn
      exact (expects_readAdmonition style text hs hlines hturn).bind
        fun element s' h ↦ hblock element _ s' h
    | listContinuation | indentedText | plainText =>
      rw [hshape] at hturn
      exact (expects_readParagraph metadata hs hlines hturn).bind
        fun element s' h ↦ hblock element _ s' h

theorem expects_readSection (steps : Nat) {total : List String} (metadata : Metadata)
    (number : Int) (marker title : Text) {s : ReadState}
    (hs : Expects commentMarker [] .start total s) :
    Runs (readSection commentMarker steps metadata number marker title) s
      (fun _ ↦ Expects commentMarker [] (.behind false) total) fun _ ↦ True := by
  match steps with
  | 0 => exact runs_throw trivial
  | steps + 1 =>
    have hblocks : ∀ s' : ReadState, Expects commentMarker [] .start total s' →
        Runs (readBlocks commentMarker steps none (some (marker.length - 1)) .empty >>=
          fun blocks ↦ pure ({ metadata with title := none }.attach (.titledSection
            { lineno := number, title := some title } (marker.length - 1 : Nat) blocks))) s'
          (fun _ ↦ Expects commentMarker [] (.behind false) total) fun _ ↦ True := fun s' h ↦
      (expects_readBlocks steps .body _ .empty h).bind fun _ _ h ↦ runs_pure h.1
    rw [readSection]
    split
    · exact runs_pure (hs.behind Encloses.body.placeOf_ne)
    · cases metadata.title with
      | none => exact hblocks s hs
      | some dropped =>
        refine Runs.bind_of_eq (x := report _ _) rfl (hblocks _ (hs.of_eq ?_ rfl))
        simp [warningsOf]

theorem expects_readList (steps : Nat) {total : List String} {below : List Frame}
    (ancestors : List Text) (number : Int) (kind : ListKind) (marker : Text) {s : ReadState}
    {line : Line} {rest : List Line}
    (hs : Expects commentMarker (.item :: below) (.behind false) total s)
    (hlines : significant s.lines = line :: rest) (hitem : IsItem marker line) :
    Runs (readList commentMarker steps ancestors number kind marker) s
      (fun _ ↦ Stops commentMarker (.item :: below) (itemAccepts ancestors) total)
      fun _ ↦ True := by
  match steps with
  | 0 => exact runs_throw trivial
  | steps + 1 =>
    rw [readList]
    exact (expects_readItems steps (ancestors ++ [marker]) marker hs
      fun hpast ↦ absurd hitem (hpast line rest hlines)).bind fun _ _ h ↦
        runs_pure ⟨h.1.1, h.1.2.of_items h.2⟩

theorem expects_readItems (steps : Nat) {total : List String} {below : List Frame}
    (markers : List Text) (marker : Text) {s : ReadState}
    (hs : Expects commentMarker (.item :: below) (.behind false) total s)
    (hlast : Past (IsItem marker) s.lines → Refused (itemAccepts markers) s.lines) :
    Runs (readItems commentMarker steps markers marker) s
      (fun _ ↦ Finishes commentMarker (.item :: below) (itemAccepts markers) (IsItem marker) total)
      fun _ ↦ True := by
  match steps with
  | 0 => exact runs_throw trivial
  | steps + 1 =>
    have hstop (hpast : Past (IsItem marker) s.lines) : Runs (pure [] : Reading (List ListItem)) s
        (fun _ ↦ Finishes commentMarker (.item :: below) (itemAccepts markers) (IsItem marker)
          total) fun _ ↦ True := runs_pure ⟨⟨hs, hlast hpast⟩, hpast⟩
    rw [readItems]
    refine Runs.bind_of_eq (x := get) rfl ?_
    cases hsignificant : significant s.lines with
    | nil => exact hstop (nextIs_of_nil hsignificant)
    | cons line rest =>
      dsimp only
      split
      · next kind found text checkbox hshape =>
        split
        · next hfound =>
          subst hfound
          have htext := hs.item hsignificant ⟨kind, text, checkbox, hshape⟩
          exact (expects_readItem steps markers line.number text checkbox htext).bind
            fun item middle hmiddle ↦
              (expects_readItems steps markers found hmiddle.1 fun _ ↦ hmiddle.2).bind
                fun _ _ h ↦ runs_pure h
        · next hfound =>
          refine hstop (nextIs_of_significant hsignificant ?_)
          rintro ⟨_, _, _, hitem⟩
          cases hshape.symm.trans hitem
          exact hfound rfl
      · next hshape =>
        refine hstop (nextIs_of_significant hsignificant ?_)
        rintro ⟨_, _, _, hitem⟩
        exact hshape _ _ _ _ hitem

theorem expects_readItem (steps : Nat) {total : List String} {below : List Frame}
    (markers : List Text) (number : Int) (first : Text) (checkbox : Option Checkbox)
    {s : ReadState} {rest : List Line}
    (hs : Expects commentMarker (.item :: below) .text total { s with lines := rest }) :
    Runs (readItem commentMarker steps markers number first checkbox rest) s
      (fun _ ↦ Stops commentMarker (.item :: below) (itemAccepts markers) total)
      fun _ ↦ True := by
  match steps with
  | 0 => exact runs_throw trivial
  | steps + 1 =>
    have hattachments : Expects commentMarker (.item :: below) (.behind false) total
        { s with lines := (itemTail rest).2 } :=
      hs.of_eq rfl (leftOpen_text _ rest)
    rw [readItem]
    exact Runs.bind_of_eq (x := setLines (itemTail rest).2) rfl
      ((expects_readAttachments steps markers hattachments).bind fun _ _ h ↦ runs_pure h)

theorem expects_readAttachments (steps : Nat) {total : List String} {below : List Frame}
    (markers : List Text) {s : ReadState}
    (hs : Expects commentMarker (.item :: below) (.behind false) total s) :
    Runs (readAttachments commentMarker steps markers) s
      (fun _ ↦ Stops commentMarker (.item :: below) (itemAccepts markers) total)
      fun _ ↦ True := by
  match steps with
  | 0 => exact runs_throw trivial
  | steps + 1 =>
    have hstop : Refused (itemAccepts markers) s.lines →
        Runs (pure [] : Reading (List Element)) s
          (fun _ ↦ Stops commentMarker (.item :: below) (itemAccepts markers) total)
          fun _ ↦ True := fun h ↦ runs_pure ⟨hs, h⟩
    rw [readAttachments]
    refine Runs.bind_of_eq (x := get) rfl ?_
    cases hlines : s.lines with
    | nil => exact hstop (nextIs_of_nil (by rw [hlines]; rfl))
    | cons line rest =>
      dsimp only
      split
      · next hshape =>
        have hattached := hs.on hlines (turn_of_continuation rfl hshape)
        exact Runs.bind_of_eq (x := setLines rest) rfl
          ((expects_readAttached steps .empty rfl hattached).bind fun _ middle hmiddle ↦
            (expects_readAttachments steps markers hmiddle).bind fun _ _ h ↦ runs_pure h)
      · next hfirst =>
        cases hsignificant : significant (line :: rest) with
        | nil => exact hstop (nextIs_of_nil (by rw [hlines]; exact hsignificant))
        | cons candidate behind =>
          rw [← hlines] at hsignificant
          have hcandidate := hs.significant hsignificant
          have hrefused (h : itemAccepts markers (startsIgnorable s.lines)
              candidate.shape = false) := hstop (nextIs_of_significant hsignificant h)
          dsimp only
          split
          · next kind marker text checkbox hshape =>
            have hitem : IsItem marker candidate := ⟨kind, text, checkbox, hshape⟩
            split
            · next hopen => exact hrefused (by rw [hshape, itemAccepts, hopen]; rfl)
            · have hlist := hcandidate.congr rfl ((turn_of_isItem _ hitem).trans
                (turn_of_isItem false hitem).symm)
              exact Runs.bind_of_eq (x := setLines (candidate :: behind)) rfl
                ((expects_readList steps markers _ kind marker hlist (hitem.significant behind)
                  hitem).bind fun _ middle hmiddle ↦
                    (expects_readAttachments steps markers hmiddle.1).bind fun _ _ h ↦ runs_pure h)
          · next hshape =>
            split
            · next hgap =>
              have hparagraph : Expects commentMarker (.item :: below) (.behind false) total
                  { s with lines := (paragraphLines true candidate behind).2 } := by
                refine (hcandidate.on rfl (turn_of_indented ?_ hshape)).of_eq rfl
                  (leftOpen_paragraph _ _)
                rw [hlines]
                exact hgap
              exact Runs.bind_of_eq (x := setLines _) rfl
                ((expects_readAttachments steps markers hparagraph).bind fun _ _ h ↦ runs_pure h)
            · next hgap =>
              refine hrefused ?_
              rw [hshape, hlines]
              exact Bool.eq_false_iff.mpr hgap
          · next hlist hindented =>
            refine hrefused ?_
            cases hshape : candidate.shape with
            | listItem => exact absurd hshape (hlist _ _ _ _)
            | indentedText => exact absurd hshape (hindented _ _)
            | listContinuation =>
              -- behind ignorable lines nothing is attached by it
              rw [hlines] at hsignificant ⊢
              rw [itemAccepts, startsIgnorable_of_continuation hfirst hsignificant hshape]
              rfl
            | _ => rfl

/-- What is attached behind a continuation line goes on with what it is attached to. -/
theorem expects_readAttached (steps : Nat) {total : List String} {frames : List Frame}
    (metadata : Metadata) {s : ReadState} (hplace : placeOf frames = .attached)
    (hs : Expects commentMarker frames .start total s) :
    Runs (readAttached commentMarker steps metadata) s
      (fun _ ↦ Expects commentMarker frames (.behind false) total) fun _ ↦ True := by
  match steps with
  | 0 => exact runs_throw trivial
  | steps + 1 =>
    rw [readAttached]
    refine Runs.bind_of_eq (x := get) rfl ?_
    cases hlines : s.lines with
    | nil => exact runs_pure (hs.of_eq rfl (by rw [hlines, leftOpen_nil, leftOpen_nil]))
    | cons line rest =>
      have hread := expects_readBlock steps metadata
        (closesBlock_of_attached hplace line.shape) hlines hs
      rw [hplace] at hread
      refine hread.bind fun progress middle hmiddle ↦ ?_
      cases progress with
      | pending waiting => exact expects_readAttached steps waiting hplace hmiddle
      | block element => exact runs_pure hmiddle

theorem expects_readDescriptionList (steps : Nat) {total : List String} {below : List Frame}
    (number : Int) {delimiter : Text} {s : ReadState} {line : Line} {rest : List Line}
    (hs : Expects commentMarker (.entries delimiter :: below) (.behind false) total s)
    (hlines : significant s.lines = line :: rest) (hterm : IsTerm delimiter line) :
    Runs (readDescriptionList commentMarker steps number delimiter) s
      (fun _ ↦ Stops commentMarker (.entries delimiter :: below)
        (Frame.entries delimiter).accepts total) fun _ ↦ True := by
  match steps with
  | 0 => exact runs_throw trivial
  | steps + 1 =>
    rw [readDescriptionList]
    exact (expects_readEntries steps hs fun hpast ↦ absurd hterm (hpast line rest hlines)).bind
      fun _ _ h ↦ runs_pure ⟨h.1.1, h.1.2.of_entries h.2⟩

theorem expects_readEntries (steps : Nat) {total : List String} {below : List Frame}
    {delimiter : Text} {s : ReadState}
    (hs : Expects commentMarker (.entries delimiter :: below) (.behind false) total s)
    (hlast : Past (IsTerm delimiter) s.lines → Refused (descriptionAccepts delimiter) s.lines) :
    Runs (readEntries commentMarker steps delimiter) s
      (fun _ ↦ Finishes commentMarker (.entries delimiter :: below)
        (descriptionAccepts delimiter) (IsTerm delimiter) total) fun _ ↦ True := by
  match steps with
  | 0 => exact runs_throw trivial
  | steps + 1 =>
    have hstop (hpast : Past (IsTerm delimiter) s.lines) :
        Runs (pure [] : Reading (List DescriptionEntry)) s
          (fun _ ↦ Finishes commentMarker (.entries delimiter :: below)
            (descriptionAccepts delimiter) (IsTerm delimiter) total) fun _ ↦ True :=
      runs_pure ⟨⟨hs, hlast hpast⟩, hpast⟩
    rw [readEntries]
    refine Runs.bind_of_eq (x := get) rfl ?_
    cases hsignificant : significant s.lines with
    | nil => exact hstop (nextIs_of_nil hsignificant)
    | cons line rest =>
      dsimp only
      split
      · next text found description hshape =>
        split
        · next hfound =>
          subst hfound
          exact (expects_readEntry steps hs hsignificant hshape).bind fun entry middle hmiddle ↦
            (expects_readEntries steps hmiddle.1 fun _ ↦ hmiddle.2).bind fun _ _ h ↦ runs_pure h
        · next hfound =>
          refine hstop (nextIs_of_significant hsignificant ?_)
          rintro ⟨_, _, hterm⟩
          cases hshape.symm.trans hterm
          exact hfound rfl
      · next hshape =>
        refine hstop (nextIs_of_significant hsignificant ?_)
        rintro ⟨_, _, hterm⟩
        exact hshape _ _ _ hterm

theorem expects_readEntry (steps : Nat) {total : List String} {below : List Frame}
    {text delimiter : Text} {description : Option Text} {s : ReadState} {line : Line}
    {rest : List Line}
    (hs : Expects commentMarker (.entries delimiter :: below) (.behind false) total s)
    (hlines : significant s.lines = line :: rest)
    (hshape : line.shape = .term text delimiter description) :
    Runs (readEntry commentMarker steps delimiter (line :: rest)) s
      (fun _ ↦ Stops commentMarker (.entries delimiter :: below)
        (descriptionAccepts delimiter) total) fun _ ↦ True := by
  match steps with
  | 0 => exact runs_throw trivial
  | steps + 1 =>
    have hterm := (hs.significant hlines).congr rfl ((turn_of_isTerm _ hshape).trans
      (turn_of_isTerm false hshape).symm)
    rw [readEntry]
    refine (runs_readDescriptionStart_leftOpen commentMarker (.entries delimiter :: below)
      (termRun delimiter (line :: rest)) s).bind fun start middle hstart ↦ ?_
    obtain ⟨rfl, hopen⟩ := hstart
    have hattachments : Expects commentMarker (.entries delimiter :: below) (.behind false) total
        { middle with lines := start.2.2 } :=
      hterm.of_eq rfl ((leftOpen_of_isTerm rest hshape).trans hopen)
    exact Runs.bind_of_eq (x := setLines start.2.2) rfl
      ((expects_readDescriptionAttachments steps hattachments).bind fun _ _ h ↦ runs_pure h)

theorem expects_readDescriptionAttachments (steps : Nat) {total : List String}
    {below : List Frame} {delimiter : Text} {s : ReadState}
    (hs : Expects commentMarker (.entries delimiter :: below) (.behind false) total s) :
    Runs (readDescriptionAttachments commentMarker steps delimiter) s
      (fun _ ↦ Stops commentMarker (.entries delimiter :: below)
        (descriptionAccepts delimiter) total) fun _ ↦ True := by
  match steps with
  | 0 => exact runs_throw trivial
  | steps + 1 =>
    have hstop : Refused (descriptionAccepts delimiter) s.lines →
        Runs (pure [] : Reading (List Element)) s
          (fun _ ↦ Stops commentMarker (.entries delimiter :: below)
            (descriptionAccepts delimiter) total) fun _ ↦ True := fun h ↦ runs_pure ⟨hs, h⟩
    rw [readDescriptionAttachments]
    refine Runs.bind_of_eq (x := get) rfl ?_
    cases hlines : s.lines with
    | nil => exact hstop (nextIs_of_nil (by rw [hlines]; rfl))
    | cons line rest =>
      dsimp only
      split
      · next hshape =>
        have hattached := hs.on hlines (turn_of_continuation rfl hshape)
        exact Runs.bind_of_eq (x := setLines rest) rfl
          ((expects_readAttached steps .empty rfl hattached).bind fun _ middle hmiddle ↦
            (expects_readDescriptionAttachments steps hmiddle).bind fun _ _ h ↦ runs_pure h)
      · next hfirst =>
        cases hsignificant : significant (line :: rest) with
        | nil => exact hstop (nextIs_of_nil (by rw [hlines]; exact hsignificant))
        | cons candidate behind =>
          rw [← hlines] at hsignificant
          have hcandidate := hs.significant hsignificant
          have hrefused (h : descriptionAccepts delimiter (startsIgnorable s.lines)
              candidate.shape = false) := hstop (nextIs_of_significant hsignificant h)
          dsimp only
          split
          · next kind marker text checkbox hshape =>
            have hitem : IsItem marker candidate := ⟨kind, text, checkbox, hshape⟩
            have hlist := hcandidate.congr rfl ((turn_of_isItem_entries hitem).trans
              (turn_of_isItem false hitem).symm)
            exact Runs.bind_of_eq (x := setLines (candidate :: behind)) rfl
              ((expects_readList steps [] _ kind marker hlist (hitem.significant behind)
                hitem).bind fun _ middle hmiddle ↦
                  (expects_readDescriptionAttachments steps
                    (hmiddle.leave rfl)).bind fun _ _ h ↦ runs_pure h)
          · next text found description hshape =>
            split
            · next hlonger =>
              have hterm : IsTerm found candidate := ⟨text, description, hshape⟩
              have hlist := hcandidate.congr rfl ((turn_of_longer hshape hlonger.1 hlonger.2).trans
                (turn_of_isTerm false hshape).symm)
              exact Runs.bind_of_eq (x := setLines (candidate :: behind)) rfl
                ((expects_readDescriptionList steps _ hlist (hterm.significant behind)
                  hterm).bind fun _ middle hmiddle ↦
                    (expects_readDescriptionAttachments steps (hmiddle.leave rfl)).bind
                      fun _ _ h ↦ runs_pure h)
            · next hlonger =>
              refine hrefused ?_
              rw [hshape]
              exact decide_eq_false hlonger
          · next hlist hlonger =>
            refine hrefused ?_
            cases hshape : candidate.shape with
            | listItem => exact absurd hshape (hlist _ _ _ _)
            | term => exact absurd hshape (hlonger _ _ _)
            | listContinuation =>
              rw [hlines] at hsignificant ⊢
              rw [descriptionAccepts, startsIgnorable_of_continuation hfirst hsignificant hshape]
              rfl
            | _ => rfl

theorem expects_readTable (steps : Nat) {total : List String} {frames : List Frame}
    (metadata : Metadata) {separator : Char} {delimiter : Text} {s : ReadState} {line : Line}
    {rest : List Line} (hs : Expects commentMarker frames .start total s)
    (hlines : s.lines = line :: rest) (hshape : line.shape = .tableDelimiter separator delimiter)
    (hturn : turn frames .start line = .table separator frames) :
    Runs (readTable commentMarker steps metadata line.number separator) { s with lines := rest }
      (fun _ ↦ Expects commentMarker frames (.behind false) total) fun _ ↦ True := by
  match steps with
  | 0 => exact runs_throw trivial
  | steps + 1 =>
    have hwarning : openWarning line = s!"Unterminated table starting at line {line.number}" := by
      rw [openWarning, hshape]
    rw [Expects, hlines, leftOpen_table hturn, List.map_append, List.map_append,
      ← List.append_assoc, ← List.append_assoc] at hs
    rw [readTable, ← hwarning]
    refine (runs_readUntil_warnings (closesTable separator) line _).bind fun content middle h ↦ ?_
    obtain ⟨rfl, hbehind, hlog⟩ := h
    split
    · next hcells =>
      refine (runs_mapM_cells (expects_readCell steps) _ middle).bind fun _ final hfinal ↦
        runs_pure ?_
      rw [tableCells, if_pos hcells] at hs
      rw [Expects, hfinal.2, hfinal.1, hlog, hbehind]
      exact hs
    · next hcells =>
      refine runs_pure ?_
      rw [tableCells, if_neg hcells, List.flatMap_nil, List.map_nil, List.append_nil] at hs
      rw [Expects, hlog, hbehind]
      exact hs

theorem expects_readCell (steps : Nat) (raw : RawCell) (s : ReadState) :
    Runs (readCell commentMarker steps raw) s (fun _ ↦ ReportsCell commentMarker s raw)
      fun _ ↦ True := by
  match steps with
  | 0 => exact runs_throw trivial
  | steps + 1 =>
    rw [readCell]
    dsimp only
    refine (runs_readCellStyle raw s).bind fun style middle hstyle ↦ ?_
    obtain ⟨rfl, hdocument⟩ := hstyle
    split
    · exact Runs.bind (R := fun _ _ ↦ False) (runs_throw trivial) fun _ _ h ↦ h.elim
    · split
      · next hasciidoc =>
        -- the whole of what is expected of a cell is what its own lines leave open
        have hblocks := expects_readBlocks steps .body none .empty
          (s := { middle with lines := cellLines commentMarker raw }) rfl
        refine (runs_withLines_log hblocks).bind fun blocks final hfinal ↦
          Runs.bind_of_eq (x := get) rfl (runs_pure ?_)
        obtain ⟨hkept, inner, ⟨hinner, hdone⟩, hlog⟩ := hfinal
        rw [Expects, hdone rfl rfl, List.tail_nil, leftOpen_nil] at hinner
        refine ⟨hkept, ?_⟩
        rw [hlog, leftOpenIn, if_pos (hdocument.mp hasciidoc), ← hinner]
        exact (List.append_nil _).symm
      · next hother =>
        refine runs_pure ⟨rfl, ?_⟩
        rw [leftOpenIn, if_neg fun h ↦ hother (hdocument.mpr h), List.map_nil, List.append_nil]

end

end Readers

section Head

variable {opening : Line} {lines : List Line} {E : ParseError → Prop}

/-- What stands before the first block: the comment block that is open at the end of the lines, if
one is, and the lines from the first block on. It starts inside a comment block, or outside. -/
def headGap (opened : Option Line) : List Line → Option Line × List Line
  | [] => (opened, [])
  | line :: rest =>
    match opened with
    | some opening =>
      if line.shape = opening.shape then headGap none rest else headGap (some opening) rest
    | none =>
      match line.shape with
      | .commentDelimiter _ => headGap (some line) rest
      | shape => if shape.isWaiting then headGap none rest else (none, line :: rest)

/-- The opening line of the comment block that is left open before any block. -/
def openInHead (lines : List Line) : Option Line :=
  (headGap none lines).1

/-- Whether a line is the title of a document. -/
def isDocumentTitle : Shape → Bool
  | .sectionTitle ['='] _ => true
  | _ => false

/-- Whether a line behind the author lines belongs to the header. -/
def isHeaderEntry : Shape → Bool
  | .attributeEntry .. | .comment _ => true
  | _ => false

/-- The lines behind the document header; all lines if there is no header. -/
def bodyLines (lines : List Line) : List Line :=
  match (headGap none lines).2 with
  | [] => lines
  | line :: rest =>
    if isDocumentTitle line.shape then
      (authorLines rest).2.2.dropWhile fun behind ↦ isHeaderEntry behind.shape
    else lines

/-- The opening lines of the blocks of a text that are left open: comment blocks, verbatim blocks,
blocks of other blocks and tables, those in the documents of table cells included. -/
def unterminated (commentMarker text : Text) : List Line :=
  leftOpen commentMarker [] .start (bodyLines (classifyAll commentMarker 1 text.lines))

/-- Looking for the document title reports the comment block that is left open meanwhile. -/
theorem runs_scanHeader_headGap (opened : Option Line)
    (hopened : ∀ opening ∈ opened, ∃ delimiter, opening.shape = .commentDelimiter delimiter)
    (metadata : Metadata) (lines : List Line) (s : ReadState) :
    Runs (scanHeader (opened.map fun opening ↦ (opening.shape.marker, opening.number)) metadata
        lines) s (fun _ s' ↦ s'.lines = (headGap opened lines).2 ∧ warningsOf s'.log =
      warningsOf s.log ++ (headGap opened lines).1.toList.map openWarning) E := by
  induction lines generalizing opened metadata s with
  | nil =>
    cases opened with
    | none =>
      exact Runs.bind_of_eq (x := setLines []) rfl (runs_pure ⟨rfl, (List.append_nil _).symm⟩)
    | some opening =>
      obtain ⟨delimiter, hshape⟩ := hopened opening rfl
      refine Runs.bind_of_eq (x := setLines []) rfl
        (Runs.bind_of_eq (x := report _ _) rfl (runs_pure ⟨rfl, ?_⟩))
      simp [headGap, openWarning, hshape, warningsOf]
  | cons line rest ih =>
    cases opened with
    | some opening =>
      obtain ⟨delimiter, hshape⟩ := hopened opening rfl
      have hmarker : opening.shape.marker = delimiter := by
        rw [hshape]
        rfl
      have hrest := ih (some opening) hopened metadata s
      rw [Option.map_some, hmarker] at hrest
      rw [Option.map_some, hmarker, scanHeader, headGap, hshape]
      by_cases hcloses : line.shape = .commentDelimiter delimiter
      · rw [if_pos hcloses, if_pos hcloses]
        exact ih none (by simp) metadata s
      · rw [if_neg hcloses, if_neg hcloses]
        exact hrest
    | none =>
      rw [Option.map_none, scanHeader.eq_def, headGap]
      dsimp only
      have hwaiting := fun metadata s ↦ ih none (by simp) metadata s
      cases hshape : line.shape with
      | blank | comment | blockAnchor | blockAttributes | blockTitle => exact hwaiting _ s
      | attributeEntry name value =>
        exact Runs.bind_of_eq (x := recordEntry name value) rfl (hwaiting metadata _)
      | commentDelimiter delimiter =>
        have hrest := ih (some line) (fun opening hopening ↦ by
          cases hopening
          exact ⟨delimiter, hshape⟩) metadata s
        rw [Option.map_some, hshape] at hrest
        exact hrest
      | _ =>
        exact Runs.bind_of_eq (x := setLines (line :: rest)) rfl
          (runs_pure ⟨rfl, (List.append_nil _).symm⟩)

/-- Reading the entries of the header leaves the lines behind them, and reports nothing. -/
theorem runs_readHeaderEntries_dropWhile (lines : List Line) (s : ReadState) :
    Runs (readHeaderEntries lines) s (fun _ s' ↦
      s'.lines = lines.dropWhile (fun line ↦ isHeaderEntry line.shape) ∧ s'.log = s.log) E := by
  induction lines generalizing s with
  | nil => exact ⟨rfl, rfl⟩
  | cons line rest ih =>
    rw [readHeaderEntries.eq_def, List.dropWhile_cons]
    dsimp only
    cases hshape : line.shape with
    | attributeEntry name value => exact Runs.bind_of_eq (x := recordEntry name value) rfl (ih _)
    | comment => exact ih s
    | _ => exact ⟨rfl, rfl⟩

/-- Reading the header leaves the lines behind it, and reports a comment block that is left open
before any block. -/
theorem runs_readHeader_bodyLines (s : ReadState) :
    Runs readHeader s (fun _ s' ↦ s'.lines = bodyLines s.lines ∧ warningsOf s'.log =
      warningsOf s.log ++ (openInHead s.lines).toList.map openWarning) E := by
  rw [readHeader]
  refine Runs.bind_of_eq (x := get) rfl
    ((runs_scanHeader_headGap none (by simp) .empty s.lines s).bind
      fun metadata scanned hscanned ↦ Runs.bind_of_eq (x := get) rfl ?_)
  obtain ⟨hlines, hlog⟩ := hscanned
  rw [bodyLines, ← hlines]
  cases scanned.lines with
  | nil => exact Runs.bind_of_eq (x := setLines s.lines) rfl (runs_pure ⟨rfl, hlog⟩)
  | cons line rest =>
    dsimp only
    split
    · next title hshape =>
      refine (runs_readHeaderEntries_dropWhile _ scanned).bind fun _ final hfinal ↦ runs_pure ?_
      rw [hfinal.1, hfinal.2, hlog, hshape]
      exact ⟨rfl, rfl⟩
    · next htitle =>
      have hother : isDocumentTitle line.shape = false := by
        unfold isDocumentTitle
        split
        · next title hshape => exact absurd hshape (htitle title)
        · rfl
      rw [hother]
      exact Runs.bind_of_eq (x := setLines s.lines) rfl (runs_pure ⟨rfl, hlog⟩)

/-- What is left open where a comment block is open, or none is. -/
def leftOpenBehind (commentMarker : Text) (opened : Option Line) (lines : List Line) : List Line :=
  match opened with
  | none => leftOpen commentMarker [] .start lines
  | some opening => unclosed (· == opening.shape) opening lines ++
      leftOpen commentMarker [] .start
        (behindClosing (fun line ↦ line.shape == opening.shape) lines)

/-- A comment block that is left open before any block is the only block that is left open. -/
theorem leftOpen_of_headGap (commentMarker : Text) (opened : Option Line)
    (h : (headGap opened lines).1 = some opening) :
    leftOpenBehind commentMarker opened lines = [opening] ∧ (headGap opened lines).2 = [] := by
  induction lines generalizing opened with
  | nil =>
    cases opened with
    | none => cases h
    | some other =>
      cases h
      refine ⟨?_, rfl⟩
      rw [leftOpenBehind, behindClosing, splitAtClosing, Option.getD_none, leftOpen_nil]
      rfl
  | cons line rest ih =>
    cases opened with
    | some other =>
      rw [leftOpenBehind, unclosed_cons, behindClosing_cons]
      rw [headGap] at h ⊢
      by_cases hcloses : line.shape = other.shape
      · rw [if_pos hcloses] at h ⊢
        rw [if_pos (beq_iff_eq.mpr hcloses), if_pos (beq_iff_eq.mpr hcloses)]
        exact ih none h
      · have hgoes : ¬(line.shape == other.shape) = true := fun heq ↦ hcloses (beq_iff_eq.mp heq)
        rw [if_neg hcloses] at h ⊢
        rw [if_neg hgoes, if_neg hgoes]
        exact ih (some other) h
    | none =>
      have hturn : turn [] .start line = blockTurn [] line := turn_start (Bool.and_false _)
      rw [blockTurn] at hturn
      rw [headGap] at h ⊢
      cases hshape : line.shape with
      | commentDelimiter delimiter =>
        rw [hshape] at h hturn
        have hrest := ih (some line) h
        rw [leftOpenBehind, hshape] at hrest
        rw [leftOpenBehind, leftOpen_jump hturn]
        exact hrest
      | blank | comment | attributeEntry | blockAnchor | blockAttributes | blockTitle =>
        rw [hshape] at h hturn
        rw [leftOpenBehind, leftOpen_on hturn]
        exact ih none h
      | _ =>
        rw [hshape] at h
        cases h

end Head

section Documents

variable {commentMarker text : Text} {document : Document}

theorem unterminated_of_openInHead {opening : Line}
    (h : openInHead (classifyAll commentMarker 1 text.lines) = some opening) :
    unterminated commentMarker text = [opening] := by
  obtain ⟨hopen, hgap⟩ := leftOpen_of_headGap commentMarker none h
  rw [unterminated, bodyLines, hgap]
  exact hopen

/-- Reading a document reports what stands open before its first block, and what its lines leave
open. -/
theorem runs_readDocument_warnings (lineCount : Nat) (s : ReadState) :
    Runs (readDocument commentMarker lineCount) s (fun _ s' ↦ warningsOf s'.log =
      warningsOf s.log ++ (openInHead s.lines).toList.map openWarning ++
        (leftOpen commentMarker [] .start (bodyLines s.lines)).map openWarning) fun _ ↦ True := by
  rw [readDocument]
  refine (runs_readHeader_bodyLines s).bind fun head before hbefore ↦ ?_
  obtain ⟨hlines, hlog⟩ := hbefore
  have hs : Expects commentMarker [] .start (warningsOf s.log ++
      (openInHead s.lines).toList.map openWarning ++
        (leftOpen commentMarker [] .start (bodyLines s.lines)).map openWarning) before := by
    rw [Expects, hlog, hlines]
  refine (expects_readBlocks (stepsFor lineCount) .body none .empty hs).bind
    fun blocks behind hbehind ↦ Runs.bind_of_eq (x := get) rfl (runs_pure ?_)
  obtain ⟨hfinal, hdone⟩ := hbehind
  rw [Expects, hdone rfl rfl, List.tail_nil, leftOpen_nil] at hfinal
  rw [← hfinal]
  exact (List.append_nil _).symm

theorem warningsOf_ofText (h : (Document.ofText commentMarker text).1 = .ok document) :
    warningsOf (Document.ofText commentMarker text).2 =
      (openInHead (classifyAll commentMarker 1 text.lines)).toList.map openWarning ++
        (unterminated commentMarker text).map openWarning := by
  have hread : Runs (readText commentMarker text) .initial (fun _ s' ↦ warningsOf s'.log =
      (openInHead (classifyAll commentMarker 1 text.lines)).toList.map openWarning ++
        (unterminated commentMarker text).map openWarning) fun _ ↦ True := by
    rw [readText]
    refine Runs.bind_of_eq (x := modify _) rfl
      ((runs_withLines_log (runs_readDocument_warnings text.lines.length _)).mono
        (fun _ s' hs' ↦ ?_) fun _ h ↦ h)
    obtain ⟨-, inner, hinner, hlog⟩ := hs'
    rw [hlog, hinner]
    rfl
  rw [Runs] at hread
  rw [Document.ofText, outcome] at h ⊢
  cases hrun : readText commentMarker text .initial with
  | ok result final =>
    rw [hrun] at hread
    exact hread
  | error problem final =>
    rw [hrun] at h
    cases h

/-- For every text that makes a document, the warnings are those about the blocks of the text that
are left open, one for each of them in turn, unless a comment block is left open before any block of
the text. That is the only block left open then, and it is reported twice. -/
theorem reported_of_ofText (h : (Document.ofText commentMarker text).1 = .ok document) :
    let head := openInHead (classifyAll commentMarker 1 text.lines)
    let warnings := warningsOf (Document.ofText commentMarker text).2
    (head = none → warnings = (unterminated commentMarker text).map openWarning) ∧
    (∀ opening, head = some opening → unterminated commentMarker text = [opening] ∧
      warnings = [openWarning opening, openWarning opening]) ∧
    ∀ opening ∈ unterminated commentMarker text, opening.shape.isDelimiter = true := by
  have hwarnings := warningsOf_ofText h
  refine ⟨fun hhead ↦ ?_, fun opening hhead ↦ ?_,
    isDelimiter_of_mem_leftOpen [] .start _ (by simp [Delimited])⟩
  · rw [hwarnings, hhead]
    rfl
  · have hopen := unterminated_of_openInHead hhead
    refine ⟨hopen, ?_⟩
    rw [hwarnings, hhead, hopen]
    rfl

/-- A table that is attached to an item in an example block is left open, and a listing in one of
its cells, and the example block. -/
theorem reported_nestedBlocks :
    let text : Text := "= T\n\n====\n* a\n+\n|===\na|----\nx".toList
    ∃ document, (Document.ofText "//".toList text).1 = .ok document ∧
      openInHead (classifyAll "//".toList 1 text.lines) = none ∧
      warningsOf (Document.ofText "//".toList text).2 =
        ["Unterminated table starting at line 6", "Unterminated listing block starting at line 7",
          "Unterminated block: expected '====' before end of input"] ∧
      warningsOf (Document.ofText "//".toList text).2 =
        (unterminated "//".toList text).map openWarning := by
  intro text
  obtain ⟨document, hdocument, hwarnings⟩ := exists_of_okAnd (show okAnd
      (Document.ofText "//".toList text).1 (fun _ ↦
        decide (openInHead (classifyAll "//".toList 1 text.lines) = none ∧
          warningsOf (Document.ofText "//".toList text).2 =
            ["Unterminated table starting at line 6",
              "Unterminated listing block starting at line 7",
              "Unterminated block: expected '====' before end of input"])) = true by decide +kernel)
  obtain ⟨hhead, hlist⟩ := of_decide_eq_true hwarnings
  exact ⟨document, hdocument, hhead, hlist, (reported_of_ofText hdocument).1 hhead⟩

/-- A text that is the opening line of a comment block leaves one block open, and two warnings. -/
theorem comment_reported_twice :
    let text : Text := "////".toList
    (∃ document, (Document.ofText "//".toList text).1 = .ok document) ∧
    (unterminated "//".toList text).length = 1 ∧
    warningsOf (Document.ofText "//".toList text).2 =
      ["Unterminated comment block starting at line 1",
        "Unterminated comment block starting at line 1"] := by
  intro text
  obtain ⟨document, hdocument, hwarnings⟩ := exists_of_okAnd (show okAnd
      (Document.ofText "//".toList text).1 (fun _ ↦
        decide ((openInHead (classifyAll "//".toList 1 text.lines)).isSome = true ∧
          warningsOf (Document.ofText "//".toList text).2 =
            ["Unterminated comment block starting at line 1",
              "Unterminated comment block starting at line 1"])) = true by decide +kernel)
  obtain ⟨hhead, hlist⟩ := of_decide_eq_true hwarnings
  obtain ⟨opening, hopening⟩ := Option.isSome_iff_exists.mp hhead
  refine ⟨⟨document, hdocument⟩, ?_, hlist⟩
  rw [unterminated_of_openInHead hopening]
  rfl

end Documents

end AsciidocSpans.Blocks
