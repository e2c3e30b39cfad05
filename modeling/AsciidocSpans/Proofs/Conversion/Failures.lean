import AsciidocSpans.Proofs.Conversion.Visits

/-!
What a conversion fails over. With settings that pass their own check, nothing but an admonition
without content makes it fail, because every setting is then of the right type
(`exists_loosen_of_problems`). `document_or_declared_problem_of_locateText` says so of whole texts,
where a cell that spans no columns is the only other reason.
-/

set_option autoImplicit false
set_option relaxedAutoImplicit false

namespace AsciidocSpans

namespace LooseSettings

section Checks

variable {name : String} {value : Value}

theorem exists_of_problemOf_eq_nil {α : Type} {result : Except SettingsProblem α}
    (h : problemOf result = []) : ∃ checked, result = .ok checked := by
  cases result with
  | ok checked => exact ⟨checked, rfl⟩
  | error problem => cases h

theorem eq_of_checkMarker {marker : Text} (h : checkMarker value = .ok marker) :
    value = .text marker := by
  rw [checkMarker.eq_def] at h
  split at h
  · cases h
    rfl
  · cases h

theorem eq_of_checkLookback {n : Int} (h : checkLookback name value = .ok n) :
    value = .integer n := by
  rw [checkLookback.eq_def] at h
  split at h
  · split at h
    · cases h
      rfl
    · cases h
  · cases h

theorem eq_of_texts? {items : List Value} {names : List Text} (h : texts? items = some names) :
    items = names.map .text := by
  induction items generalizing names with
  | nil =>
    cases h
    rfl
  | cons item rest ih =>
    rw [texts?.eq_def] at h
    split at h
    · next heq => cases heq
    · next text others heq =>
      cases heq
      obtain ⟨more, hmore, rfl⟩ := Option.map_eq_some_iff.mp h
      rw [ih hmore, List.map_cons]
    · cases h

theorem eq_of_checkNames {names : List Text} (h : checkNames name value = .ok names) :
    value = .list (names.map .text) := by
  rw [checkNames.eq_def] at h
  split at h
  · split at h
    · next hnames =>
      cases h
      rw [eq_of_texts? hnames]
    · cases h
  · cases h

theorem eq_of_checkAuthors {answer : Bool} (h : checkAuthors value = .ok answer) :
    value = .boolean answer := by
  rw [checkAuthors.eq_def] at h
  split at h
  · cases h
    rfl
  · cases h

end Checks

/-- Settings in which nothing is wrong are settings of the right types. -/
theorem exists_loosen_of_problems {settings : LooseSettings} (h : settings.problems = []) :
    ∃ checked : Settings, settings = checked.loosen := by
  simp only [problems, List.append_eq_nil_iff] at h
  obtain ⟨⟨⟨⟨⟨⟨hmarker, hid⟩, htitle⟩, hattributes⟩, hdenylist⟩, himage⟩, hauthors⟩ := h
  obtain ⟨marker, hmarker⟩ := exists_of_problemOf_eq_nil hmarker
  obtain ⟨id, hid⟩ := exists_of_problemOf_eq_nil hid
  obtain ⟨title, htitle⟩ := exists_of_problemOf_eq_nil htitle
  obtain ⟨attributes, hattributes⟩ := exists_of_problemOf_eq_nil hattributes
  obtain ⟨denylist, hdenylist⟩ := exists_of_problemOf_eq_nil hdenylist
  obtain ⟨image, himage⟩ := exists_of_problemOf_eq_nil himage
  obtain ⟨authors, hauthors⟩ := exists_of_problemOf_eq_nil hauthors
  refine ⟨⟨marker, id, title, attributes, denylist, image, authors⟩, ?_⟩
  cases settings
  rw [Settings.loosen, LooseSettings.mk.injEq]
  exact ⟨eq_of_checkMarker hmarker, eq_of_checkLookback hid, eq_of_checkLookback htitle,
    eq_of_checkLookback hattributes, eq_of_checkNames hdenylist, eq_of_checkNames himage,
    eq_of_checkAuthors hauthors⟩

end LooseSettings

namespace Converter

variable {settings : Settings} {text : Text}

/-- An admonition has neither blocks nor text. -/
def IsEmptyAdmonition (problem : ConversionError) : Prop :=
  ∃ line, problem = .emptyAdmonition line

/-- A document that was read from a text has a tree, unless an admonition in it is empty. -/
theorem isEmptyAdmonition_of_locateDocument {marker : Text} {document : Document}
    {problem : ConversionError} (hread : (Document.ofText marker text).1 = .ok document)
    (h : (locateDocument settings.loosen document text).1 = .error problem) :
    IsEmptyAdmonition problem := by
  obtain ⟨visit, -, hproblem⟩ := (locateDocument_eq_error_iff hread).mp h
  exact ⟨visit.window.minLine, hproblem⟩

/-- With settings in which nothing is wrong, every text has a tree, whose root is a document, or
one of two things is wrong with it: a table cell spans no columns, or an admonition is empty. -/
theorem document_or_declared_problem_of_locateText (settings : LooseSettings) (text : Text)
    (h : settings.problems = []) :
    (∃ root, (locateText settings text).1 = .ok root ∧ root.kind = .document) ∨
      (∃ spec line, (locateText settings text).1 = .error (.parse (.spansNoColumns spec line))) ∨
      ∃ line, (locateText settings text).1 = .error (.conversion (.emptyAdmonition line)) := by
  obtain ⟨checked, rfl⟩ := LooseSettings.exists_loosen_of_problems h
  rw [locateText, Settings.marker?_loosen]
  dsimp only
  cases hread : (Document.ofText checked.commentMarker text).1 with
  | error problem =>
    obtain ⟨spec, line, rfl⟩ := Blocks.spansNoColumns_of_ofText hread
    refine .inr (.inl ⟨spec, line, ?_⟩)
    rw [← Prod.eta (Document.ofText checked.commentMarker text), hread]
  | ok document =>
    rw [← Prod.eta (Document.ofText checked.commentMarker text), hread]
    dsimp only
    cases hroot : (locateDocument checked.loosen document text).1 with
    | ok root => exact .inl ⟨root, rfl, kind_of_locateDocument hroot⟩
    | error problem =>
      obtain ⟨line, rfl⟩ := isEmptyAdmonition_of_locateDocument hread hroot
      exact .inr (.inr ⟨line, rfl⟩)

/-- The standard settings are good for a text with an image in a list item in a cell. -/
theorem document_or_declared_problem_imageInCell :
    Settings.default.loosen.problems = [] ∧
      let text := "|===\na|\n* x\n+\nimage::y[]\n|===".toList
      (∃ root, (locateText Settings.default.loosen text).1 = .ok root ∧ root.kind = .document) ∨
        (∃ spec line, (locateText Settings.default.loosen text).1 =
          .error (.parse (.spansNoColumns spec line))) ∨
        ∃ line, (locateText Settings.default.loosen text).1 =
          .error (.conversion (.emptyAdmonition line)) :=
  ⟨rfl, document_or_declared_problem_of_locateText Settings.default.loosen _ rfl⟩

end Converter

end AsciidocSpans
