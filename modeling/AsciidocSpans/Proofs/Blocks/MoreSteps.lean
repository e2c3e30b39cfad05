import AsciidocSpans.Blocks.Document
import AsciidocSpans.Proofs.Outcome

/-!
More steps change nothing. A reading with a bound on its steps either runs out of them or does what
it does with every larger bound (`Completes`; `completes_readBlocks` and the theorems beside it, one
for each reader, by one induction on the smaller bound). So the bound is no part of what a reading
comes to: where it suffices, any larger one gives the same outcome, and the reading is that of the
same calls without a bound.
-/

set_option autoImplicit false
set_option relaxedAutoImplicit false

namespace AsciidocSpans.Blocks

variable {α β : Type} {commentMarker : Text}

/-- From every state, a reading runs out of steps or does what another one does. -/
def Completes (x y : Reading α) : Prop :=
  ∀ s, (∃ s', x s = .error .outOfSteps s') ∨ x s = y s

section Closure

variable {x y : Reading α} {f g : α → Reading β}

theorem completes_rfl (x : Reading α) : Completes x x :=
  fun _ ↦ .inr rfl

theorem completes_outOfSteps (y : Reading α) : Completes (throw .outOfSteps) y :=
  fun s ↦ .inl ⟨s, rfl⟩

theorem Completes.bind (hx : Completes x y) (hf : ∀ value, Completes (f value) (g value)) :
    Completes (x >>= f) (y >>= g) := by
  intro s
  rcases hx s with ⟨s', hout⟩ | hsame
  · exact .inl ⟨s', bind_of_eq_error hout⟩
  · cases hrun : y s with
    | ok value middle =>
      rw [bind_of_eq_ok (hsame.trans hrun), bind_of_eq_ok hrun]
      exact hf value middle
    | error problem middle =>
      exact .inr ((bind_of_eq_error (hsame.trans hrun)).trans (bind_of_eq_error hrun).symm)

theorem Completes.bind_right (x : Reading α) (hf : ∀ value, Completes (f value) (g value)) :
    Completes (x >>= f) (x >>= g) :=
  (completes_rfl x).bind hf

theorem Completes.map (hx : Completes x y) (f : α → Reading β) :
    Completes (x >>= f) (y >>= f) :=
  hx.bind fun value ↦ completes_rfl (f value)

theorem Completes.mapM (items : List α) (h : ∀ item, Completes (f item) (g item)) :
    Completes (items.mapM f) (items.mapM g) := by
  induction items with
  | nil => exact completes_rfl _
  | cons item rest ih =>
    rw [List.mapM_cons, List.mapM_cons]
    exact (h item).bind fun first ↦ ih.map _

theorem Completes.withLines (h : Completes x y) (lines : List Line) :
    Completes (withLines lines x) (withLines lines y) := by
  intro s
  unfold Blocks.withLines
  rcases h { s with lines } with ⟨s', hout⟩ | hsame
  · rw [hout]
    exact .inl ⟨_, rfl⟩
  · rw [hsame]
    exact .inr rfl

end Closure

mutual

/-- Reading blocks with more steps does what it does, unless the steps run out. -/
theorem completes_readBlocks {steps more : Nat} (h : steps ≤ more) (terminator : Option Text)
    (level : Option Nat) (metadata : Metadata) :
    Completes (readBlocks commentMarker steps terminator level metadata)
      (readBlocks commentMarker more terminator level metadata) := by
  match steps, more, h with
  | 0, more, _ => exact completes_outOfSteps _
  | steps + 1, more + 1, h =>
    replace h := Nat.le_of_succ_le_succ h
    rw [readBlocks, readBlocks]
    refine Completes.bind_right _ fun state ↦ ?_
    cases state.lines with
    | nil => exact completes_rfl _
    | cons line rest =>
      dsimp only
      split
      · exact completes_rfl _
      · split
        · exact completes_rfl _
        · refine (completes_readBlock h _ metadata line rest).bind fun progress ↦ ?_
          cases progress with
          | pending waiting => exact completes_readBlocks h terminator level waiting
          | block element => exact (completes_readBlocks h terminator level .empty).map _

theorem completes_readBlock {steps more : Nat} (h : steps ≤ more) (place : Place)
    (metadata : Metadata) (line : Line) (rest : List Line) :
    Completes (readBlock commentMarker steps place metadata line rest)
      (readBlock commentMarker more place metadata line rest) := by
  match steps, more, h with
  | 0, more, _ => exact completes_outOfSteps _
  | steps + 1, more + 1, h =>
    replace h := Nat.le_of_succ_le_succ h
    rw [readBlock, readBlock]
    cases line.shape with
    | sectionTitle marker title =>
      dsimp only
      split
      · exact Completes.bind_right _ fun _ ↦
          (completes_readSection h metadata line.number marker title).map _
      · exact completes_rfl _
    | tableDelimiter separator =>
      exact Completes.bind_right _ fun _ ↦
        (completes_readTable h metadata line.number separator).map _
    | blockDelimiter kind delimiter =>
      refine Completes.bind_right _ fun _ ↦ Completes.bind_right _ fun found ↦ ?_
      cases found with
      | some element => exact completes_rfl _
      | none => exact (completes_readBlocks h (some delimiter) none .empty).map _
    | listItem kind marker =>
      exact (completes_readList h [] line.number kind marker).map _
    | term _ delimiter => exact (completes_readDescriptionList h line.number delimiter).map _
    | _ => exact completes_rfl _

theorem completes_readSection {steps more : Nat} (h : steps ≤ more) (metadata : Metadata)
    (number : Int) (marker title : Text) :
    Completes (readSection commentMarker steps metadata number marker title)
      (readSection commentMarker more metadata number marker title) := by
  match steps, more, h with
  | 0, more, _ => exact completes_outOfSteps _
  | steps + 1, more + 1, h =>
    replace h := Nat.le_of_succ_le_succ h
    have hblocks := completes_readBlocks h none (some (marker.length - 1)) .empty
    rw [readSection, readSection]
    split
    · exact completes_rfl _
    · cases metadata.title with
      | none => exact hblocks.map _
      | some dropped => exact Completes.bind_right _ fun _ ↦ hblocks.map _

theorem completes_readList {steps more : Nat} (h : steps ≤ more) (ancestors : List Text)
    (number : Int) (kind : ListKind) (marker : Text) :
    Completes (readList commentMarker steps ancestors number kind marker)
      (readList commentMarker more ancestors number kind marker) := by
  match steps, more, h with
  | 0, more, _ => exact completes_outOfSteps _
  | steps + 1, more + 1, h =>
    replace h := Nat.le_of_succ_le_succ h
    rw [readList, readList]
    exact (completes_readItems h (ancestors ++ [marker]) marker).map _

theorem completes_readItems {steps more : Nat} (h : steps ≤ more) (markers : List Text)
    (marker : Text) :
    Completes (readItems commentMarker steps markers marker)
      (readItems commentMarker more markers marker) := by
  match steps, more, h with
  | 0, more, _ => exact completes_outOfSteps _
  | steps + 1, more + 1, h =>
    replace h := Nat.le_of_succ_le_succ h
    rw [readItems, readItems]
    refine Completes.bind_right _ fun state ↦ ?_
    cases significant state.lines with
    | nil => exact completes_rfl _
    | cons line rest =>
      dsimp only
      split
      · split
        · exact (completes_readItem h markers line.number _ _ rest).bind fun item ↦
            (completes_readItems h markers marker).map _
        · exact completes_rfl _
      · exact completes_rfl _

theorem completes_readItem {steps more : Nat} (h : steps ≤ more) (markers : List Text)
    (number : Int) (first : Text) (checkbox : Option Checkbox) (rest : List Line) :
    Completes (readItem commentMarker steps markers number first checkbox rest)
      (readItem commentMarker more markers number first checkbox rest) := by
  match steps, more, h with
  | 0, more, _ => exact completes_outOfSteps _
  | steps + 1, more + 1, h =>
    replace h := Nat.le_of_succ_le_succ h
    rw [readItem, readItem]
    exact Completes.bind_right _ fun _ ↦ (completes_readAttachments h markers).map _

theorem completes_readAttachments {steps more : Nat} (h : steps ≤ more) (markers : List Text) :
    Completes (readAttachments commentMarker steps markers)
      (readAttachments commentMarker more markers) := by
  match steps, more, h with
  | 0, more, _ => exact completes_outOfSteps _
  | steps + 1, more + 1, h =>
    replace h := Nat.le_of_succ_le_succ h
    have hmore : ∀ result : List Element → Reading (List Element),
        Completes (readAttachments commentMarker steps markers >>= result)
          (readAttachments commentMarker more markers >>= result) := fun result ↦
      (completes_readAttachments h markers).map result
    rw [readAttachments, readAttachments]
    refine Completes.bind_right _ fun state ↦ ?_
    cases state.lines with
    | nil => exact completes_rfl _
    | cons line rest =>
      dsimp only
      split
      · exact Completes.bind_right _ fun _ ↦
          (completes_readAttached h .empty).bind fun _ ↦ hmore _
      · cases significant (line :: rest) with
        | nil => exact completes_rfl _
        | cons candidate behind =>
          dsimp only
          split
          · split
            · exact completes_rfl _
            · exact Completes.bind_right _ fun _ ↦
                (completes_readList h markers _ _ _).bind fun _ ↦ hmore _
          · split
            · exact Completes.bind_right _ fun _ ↦ hmore _
            · exact completes_rfl _
          · exact completes_rfl _

theorem completes_readAttached {steps more : Nat} (h : steps ≤ more) (metadata : Metadata) :
    Completes (readAttached commentMarker steps metadata)
      (readAttached commentMarker more metadata) := by
  match steps, more, h with
  | 0, more, _ => exact completes_outOfSteps _
  | steps + 1, more + 1, h =>
    replace h := Nat.le_of_succ_le_succ h
    rw [readAttached, readAttached]
    refine Completes.bind_right _ fun state ↦ ?_
    cases state.lines with
    | nil => exact completes_rfl _
    | cons line rest =>
      refine (completes_readBlock h .attached metadata line rest).bind fun progress ↦ ?_
      cases progress with
      | pending waiting => exact completes_readAttached h waiting
      | block element => exact completes_rfl _

theorem completes_readDescriptionList {steps more : Nat} (h : steps ≤ more) (number : Int)
    (delimiter : Text) :
    Completes (readDescriptionList commentMarker steps number delimiter)
      (readDescriptionList commentMarker more number delimiter) := by
  match steps, more, h with
  | 0, more, _ => exact completes_outOfSteps _
  | steps + 1, more + 1, h =>
    replace h := Nat.le_of_succ_le_succ h
    rw [readDescriptionList, readDescriptionList]
    exact (completes_readEntries h delimiter).map _

theorem completes_readEntries {steps more : Nat} (h : steps ≤ more) (delimiter : Text) :
    Completes (readEntries commentMarker steps delimiter)
      (readEntries commentMarker more delimiter) := by
  match steps, more, h with
  | 0, more, _ => exact completes_outOfSteps _
  | steps + 1, more + 1, h =>
    replace h := Nat.le_of_succ_le_succ h
    rw [readEntries, readEntries]
    refine Completes.bind_right _ fun state ↦ ?_
    cases significant state.lines with
    | nil => exact completes_rfl _
    | cons line rest =>
      dsimp only
      split
      · split
        · exact (completes_readEntry h delimiter (line :: rest)).bind fun entry ↦
            (completes_readEntries h delimiter).map _
        · exact completes_rfl _
      · exact completes_rfl _

theorem completes_readEntry {steps more : Nat} (h : steps ≤ more) (delimiter : Text)
    (lines : List Line) :
    Completes (readEntry commentMarker steps delimiter lines)
      (readEntry commentMarker more delimiter lines) := by
  match steps, more, h with
  | 0, more, _ => exact completes_outOfSteps _
  | steps + 1, more + 1, h =>
    replace h := Nat.le_of_succ_le_succ h
    rw [readEntry, readEntry]
    exact Completes.bind_right _ fun start ↦ Completes.bind_right _ fun _ ↦
      (completes_readDescriptionAttachments h delimiter).map _

theorem completes_readDescriptionAttachments {steps more : Nat} (h : steps ≤ more)
    (delimiter : Text) :
    Completes (readDescriptionAttachments commentMarker steps delimiter)
      (readDescriptionAttachments commentMarker more delimiter) := by
  match steps, more, h with
  | 0, more, _ => exact completes_outOfSteps _
  | steps + 1, more + 1, h =>
    replace h := Nat.le_of_succ_le_succ h
    have hmore : ∀ result : List Element → Reading (List Element),
        Completes (readDescriptionAttachments commentMarker steps delimiter >>= result)
          (readDescriptionAttachments commentMarker more delimiter >>= result) := fun result ↦
      (completes_readDescriptionAttachments h delimiter).map result
    rw [readDescriptionAttachments, readDescriptionAttachments]
    refine Completes.bind_right _ fun state ↦ ?_
    cases state.lines with
    | nil => exact completes_rfl _
    | cons line rest =>
      dsimp only
      split
      · exact Completes.bind_right _ fun _ ↦
          (completes_readAttached h .empty).bind fun _ ↦ hmore _
      · cases significant (line :: rest) with
        | nil => exact completes_rfl _
        | cons candidate behind =>
          dsimp only
          split
          · exact Completes.bind_right _ fun _ ↦
              (completes_readList h [] _ _ _).bind fun _ ↦ hmore _
          · split
            · exact Completes.bind_right _ fun _ ↦
                (completes_readDescriptionList h _ _).bind fun _ ↦ hmore _
            · exact completes_rfl _
          · exact completes_rfl _

theorem completes_readTable {steps more : Nat} (h : steps ≤ more) (metadata : Metadata)
    (number : Int) (separator : Char) :
    Completes (readTable commentMarker steps metadata number separator)
      (readTable commentMarker more metadata number separator) := by
  match steps, more, h with
  | 0, more, _ => exact completes_outOfSteps _
  | steps + 1, more + 1, h =>
    replace h := Nat.le_of_succ_le_succ h
    rw [readTable, readTable]
    refine Completes.bind_right _ fun content ↦ ?_
    split
    · exact (Completes.mapM _ fun raw ↦ completes_readCell h raw).map _
    · exact completes_rfl _

theorem completes_readCell {steps more : Nat} (h : steps ≤ more) (raw : RawCell) :
    Completes (readCell commentMarker steps raw) (readCell commentMarker more raw) := by
  match steps, more, h with
  | 0, more, _ => exact completes_outOfSteps _
  | steps + 1, more + 1, h =>
    replace h := Nat.le_of_succ_le_succ h
    rw [readCell, readCell]
    dsimp only
    refine Completes.bind_right _ fun style ↦ ?_
    split
    · exact completes_rfl _
    · split
      · exact ((completes_readBlocks h none none .empty).withLines _).map _
      · exact completes_rfl _

end

/-- A bound that is meant for more lines does not change what a document is made of, unless the
smaller one does not suffice. -/
theorem completes_readDocument {lineCount more : Nat} (h : lineCount ≤ more) :
    Completes (readDocument commentMarker lineCount) (readDocument commentMarker more) := by
  have hsteps : stepsFor lineCount ≤ stepsFor more := by
    rw [stepsFor, stepsFor]
    omega
  exact Completes.bind_right _ fun _ ↦ (completes_readBlocks hsteps none none .empty).map _

end AsciidocSpans.Blocks
