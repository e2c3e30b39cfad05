import AsciidocSpans.Proofs.Conversion.Verbatim
import AsciidocSpans.Proofs.Conversion.Visits

/-!
Where an admonition without content is reported. A conversion fails at the first one that it visits,
and what it reports is the first line of the window in which the admonition is looked for
(`reportedAdmonition_of_locateText`). This is the admonition's own line wherever the window narrows,
unless a sibling before it was located beyond that line; in a quote or an example it need not be
(`admonitions_reported_elsewhere`).
-/

set_option autoImplicit false
set_option relaxedAutoImplicit false

namespace AsciidocSpans.Converter

variable {settings : Settings} {text : Text} {window : Window} {lineno following line : Int}
  {lastEnd : Option Position}

/-- What is reported of a text that cannot be converted is reported of the document. -/
theorem exists_document_of_conversion_error {problem : ConversionError}
    (h : (locateText settings.loosen text).1 = .error (.conversion problem)) :
    ∃ document, (Document.ofText settings.commentMarker text).1 = .ok document ∧
      (locateDocument settings.loosen document text).1 = .error problem := by
  rw [locateText, Settings.marker?_loosen] at h
  dsimp only at h
  split at h
  · cases h
  · next document log hread =>
    refine ⟨document, by rw [hread], ?_⟩
    dsimp only at h
    cases hresult : (locateDocument settings.loosen document text).1 with
    | ok root =>
      rw [hresult] at h
      cases h
    | error cause =>
      rw [hresult] at h
      cases h
      rfl

/-- A sibling is looked for from its own line on, just unless the one located last ended beyond that
line and in the window of the sibling. -/
theorem minLine_siblingWindow_iff (hnarrows : window.narrows = true) :
    (siblingWindow window lineno following lastEnd).minLine = lineno ↔
      ∀ stop ∈ lastEnd, stop.line ≤ lineno ∨ following < stop.line := by
  rw [siblingWindow, if_pos hnarrows]
  cases lastEnd with
  | none => exact iff_of_true rfl (by simp)
  | some stop =>
    rw [afterSibling]
    simp only [Option.mem_some, forall_eq']
    split
    · next hinside =>
      change stop.line = lineno ↔ _
      change lineno ≤ stop.line ∧ stop.line ≤ following at hinside
      omega
    · next houtside =>
      change lineno = lineno ↔ _
      change ¬ (lineno ≤ stop.line ∧ stop.line ≤ following) at houtside
      omega

/-- In a window that does not narrow, a sibling is looked for from the first line of that window on,
or from the line on which the one located last ended. -/
theorem minLine_siblingWindow_of_not_narrows (hnarrows : window.narrows = false) :
    (siblingWindow window lineno following lastEnd).minLine = window.minLine ∨
      ∃ stop ∈ lastEnd, (siblingWindow window lineno following lastEnd).minLine = stop.line := by
  rw [siblingWindow, if_neg (by simp [hnarrows]), afterSibling.eq_def]
  split
  · next stop =>
    split
    · exact .inr ⟨stop, rfl, rfl⟩
    · exact .inl rfl
  · exact .inl rfl

/-- An admonition without content is reported at the first line of its window, and it is the first
one that is visited. In a window that narrows this is its own line, just unless the sibling located
last ended beyond that; in another one it is the first line around, or the line on which the sibling
located last ended. -/
theorem reportedAdmonition_of_locateText
    (h : (locateText settings.loosen text).1 = .error (.conversion (.emptyAdmonition line))) :
    ∃ document visit, (Document.ofText settings.commentMarker text).1 = .ok document ∧
      firstEmptyAdmonition? (visitsOfText settings text document) = some visit ∧
      visit.element ∈ (Element.document document).preorder ∧
      line = visit.window.minLine ∧
      (visit.around.narrows = true → (line = visit.element.lineno ↔
        ∀ stop ∈ visit.lastEnd, stop.line ≤ visit.element.lineno ∨
          visit.window.maxLine < stop.line)) ∧
      (visit.around.narrows = false →
        line = visit.around.minLine ∨ ∃ stop ∈ visit.lastEnd, line = stop.line) := by
  obtain ⟨document, hread, hproblem⟩ := exists_document_of_conversion_error h
  obtain ⟨visit, hfirst, hline⟩ := (locateDocument_eq_error_iff hread).mp hproblem
  cases hline
  obtain ⟨hmet, following, hwindow⟩ :=
    (meets_convertRoot hread).fits visit (List.mem_of_find?_eq_some hfirst)
  refine ⟨document, visit, hread, hfirst, hmet, rfl, fun hnarrows ↦ ?_, fun hnarrows ↦ ?_⟩
  · rw [hwindow, maxLine_siblingWindow hnarrows]
    exact minLine_siblingWindow_iff hnarrows
  · rw [hwindow]
    exact minLine_siblingWindow_of_not_narrows hnarrows

/-- The line that is reported of a text with an admonition without content, and the lines of all
such admonitions in the document. -/
def reportedAdmonition (text : Text) : Option (Int × List Int) :=
  match (locateText Settings.default.loosen text).1,
    (Document.ofText Settings.default.commentMarker text).1 with
  | .error (.conversion (.emptyAdmonition line)), .ok document =>
    some (line, ((Element.document document).preorder.filter (·.isEmptyAdmonition)).map (·.lineno))
  | _, _ => none

theorem exists_of_reportedAdmonition {lines : List Int}
    (h : reportedAdmonition text = some (line, lines)) :
    (locateText Settings.default.loosen text).1 =
        .error (.conversion (.emptyAdmonition line)) ∧
      ∃ document, (Document.ofText Settings.default.commentMarker text).1 = .ok document ∧
        ((Element.document document).preorder.filter (·.isEmptyAdmonition)).map (·.lineno) =
          lines := by
  rw [reportedAdmonition] at h
  split at h
  · next found document hproblem hread =>
    cases h
    exact ⟨hproblem, document, hread, rfl⟩
  · cases h

/-- An admonition in a list item in a quote, before another one. -/
theorem reportedAdmonition_inQuotedItem :
    let text : Text := "____\n* x\n+\nNOTE: \n____\n\nTIP: ".toList
    (locateText Settings.default.loosen text).1 = .error (.conversion (.emptyAdmonition 4)) ∧
      ∃ document visit, (Document.ofText Settings.default.commentMarker text).1 = .ok document ∧
        firstEmptyAdmonition? (visitsOfText Settings.default text document) = some visit ∧
        visit.element ∈ (Element.document document).preorder ∧
        4 = visit.window.minLine ∧
        (visit.around.narrows = true → (4 = visit.element.lineno ↔
          ∀ stop ∈ visit.lastEnd, stop.line ≤ visit.element.lineno ∨
            visit.window.maxLine < stop.line)) ∧
        (visit.around.narrows = false →
          4 = visit.around.minLine ∨ ∃ stop ∈ visit.lastEnd, 4 = stop.line) := by
  intro text
  obtain ⟨hreported, -⟩ := exists_of_reportedAdmonition
    (show reportedAdmonition text = some (4, [4, 7]) by decide +kernel)
  exact ⟨hreported, reportedAdmonition_of_locateText hreported⟩

/-- Admonitions that are reported at lines on which there is none: at the first line of the quote
around it, and at the line on which a literal block before it was located. -/
theorem admonitions_reported_elsewhere :
    let inQuote : Text := "____\nNOTE: \n____".toList
    let behindSibling : Text :=
      "....\n// c\n====\n====\n....\n\n[NOTE]\n.t // c\n// k\n====\n====\n".toList
    ((locateText Settings.default.loosen inQuote).1 =
        .error (.conversion (.emptyAdmonition 1)) ∧
      ∃ document, (Document.ofText Settings.default.commentMarker inQuote).1 = .ok document ∧
        ((Element.document document).preorder.filter (·.isEmptyAdmonition)).map (·.lineno) = [2]) ∧
    (locateText Settings.default.loosen behindSibling).1 =
        .error (.conversion (.emptyAdmonition 11)) ∧
      ∃ document, (Document.ofText Settings.default.commentMarker behindSibling).1 = .ok document ∧
        ((Element.document document).preorder.filter (·.isEmptyAdmonition)).map (·.lineno) = [10] :=
  ⟨exists_of_reportedAdmonition (by decide +kernel),
    exists_of_reportedAdmonition (by decide +kernel)⟩

end AsciidocSpans.Converter
