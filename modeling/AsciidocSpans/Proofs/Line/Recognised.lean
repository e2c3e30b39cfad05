import AsciidocSpans.Line.Classify
import AsciidocSpans.Proofs.Text.Occurrence
import AsciidocSpans.Proofs.Text.Trimmed

/-!
What the recognisers find in a line. A line that carries parts is made up of these parts, of the
markup around them and of white space (`Shape.Spelled`): a title stands behind its run of equals
signs, the text of an item behind its marker and its box, that of an admonition behind its label, a
description behind the delimiter of its term; an attribute list stands between its brackets, and a
macro is its name, its target and its attributes. `Shape.Recognised` adds which of these parts have
no white space at their ends, and what the other shapes show of their lines.

Each recogniser is opened once, in the lemma that says what it finds, and `recognised_shapeOf` puts
these lemmas together: whatever else is known of the parts of a line follows from it.
-/

set_option autoImplicit false
set_option relaxedAutoImplicit false

namespace AsciidocSpans

/-- What a marker of a list is written as. All numbers are the same marker, and so are all
callouts. -/
def ListKind.Writes (marker written : Text) : ListKind → Prop
  | .unordered => written = marker
  | .ordered => written = marker ∨ ∃ digits, digits.all Text.isDecimal ∧ written = digits ++ ['.']
  | .callout => ∃ label, written = '<' :: label ++ ['>']

/-- What the box of an item is written as, with the white space behind it. -/
def writesBox (written : Text) : Option Checkbox → Prop
  | none => written = []
  | some _ => ∃ c blanks, Text.allBlank blanks ∧ written = '[' :: c :: ']' :: blanks

namespace Line

open Text

variable {marker text : Text}

/-- The characters that a box may hold. -/
def boxMarks : List Char :=
  [' ', 'x', 'X', '*']

/-- A text starts with a box and white space. -/
def StartsWithBox (text : Text) : Prop :=
  ∃ mark ∈ boxMarks, ∃ blank rest, isBlank blank ∧ text = '[' :: mark :: ']' :: blank :: rest

/-- The box of an unordered item stands right before the text that is shown, and it is empty just if
it holds a space; the text of an item without a box starts with none. -/
def BoxTaken (input shown : Text) : Option Checkbox → Prop
  | none => ¬ StartsWithBox shown
  | some box => ∃ mark ∈ boxMarks, ∃ blanks, (box = .unchecked ↔ mark = ' ') ∧ blanks ≠ [] ∧
      allBlank blanks ∧ '[' :: mark :: ']' :: (blanks ++ shown) <:+: input

/-- A line is made up of the parts that its shape carries, of the markup around them and of white
space. -/
def Shape.Spelled (input : Text) : Shape → Prop
  | .sectionTitle marker title => ∃ blanks behind, allBlank blanks ∧
      input = marker ++ blanks ++ title ++ behind
  | .blockAttributes body => ∃ behind, allBlank behind ∧ input = '[' :: body ++ ']' :: behind
  | .blockMacro name target body => ∃ behind, allBlank behind ∧
      input = name ++ ':' :: ':' :: target ++ '[' :: body ++ ']' :: behind
  | .admonition style shown => ∃ blanks behind, allBlank blanks ∧
      input = style ++ ':' :: blanks ++ shown ++ behind
  | .listItem kind marker shown checkbox => ∃ lead written blanks box behind, allBlank lead ∧
      allBlank blanks ∧ kind.Writes marker written ∧ writesBox box checkbox ∧
      input = lead ++ written ++ blanks ++ box ++ shown ++ behind
  | .term shown delimiter description => ∃ lead rest, allBlank lead ∧
      input = lead ++ shown ++ delimiter ++ rest ∧ ∀ described ∈ description,
        ∃ blanks behind, allBlank blanks ∧ rest = blanks ++ described ++ behind
  | _ => True

/-- What a shape tells of its line. The parts it carries are spelled out in the line, and titles,
entries, admonitions and items are shown without white space at either end. -/
def Shape.Recognised (commentMarker input : Text) : Shape → Prop
  | .blank => allBlank input
  | .comment shown => input = commentMarker ++ shown
  | .commentDelimiter delimiter | .blockDelimiter _ delimiter | .tableDelimiter _ delimiter =>
    trimRight input = delimiter
  | .attributeEntry name value => Stripped value ∧ ∃ blanks behind, allBlank blanks ∧
      input = ':' :: name ++ ':' :: blanks ++ value ++ behind
  | .blockAnchor id reftext => ∃ behind, input = '[' :: '[' :: id ++ behind ∧
      ∀ shown ∈ reftext, shown <:+: behind
  | .fence language => ∃ behind, allBlank behind ∧ input = ['`', '`', '`'] ++ language ++ behind
  | .listContinuation => trimRight input = ['+']
  | .thematicBreak => trimRight input = ['\'', '\'', '\'']
  | .pageBreak => trimRight input = ['<', '<', '<']
  | .blockTitle title => title ≠ [] ∧ Stripped title ∧ trimRight input = '.' :: title
  | .blockAttributes body => (Shape.blockAttributes body).Spelled input
  | .blockMacro name target body => (Shape.blockMacro name target body).Spelled input
  | .sectionTitle marker title => Stripped title ∧ (Shape.sectionTitle marker title).Spelled input
  | .admonition style shown => Stripped shown ∧ (Shape.admonition style shown).Spelled input
  | .listItem kind marker shown checkbox => Stripped shown ∧
      (kind = .unordered → BoxTaken input shown checkbox) ∧
      (Shape.listItem kind marker shown checkbox).Spelled input
  | .term shown delimiter description => shown ≠ [] ∧
      (Shape.term shown delimiter description).Spelled input
  | .indentedText shown _ => shown = trim input
  | .plainText shown => shown = trimRight input

section Parts

theorem eq_of_capture? {shown : Text} (h : capture? text = some shown) : shown = text := by
  rw [capture?] at h
  split at h
  · cases h
  · cases h
    rfl

/-- What is captured behind a marker stands between white space, and has none at its ends. -/
theorem exists_separated? {shown : Text} (h : separated? text = some shown) :
    Stripped shown ∧ ∃ blanks behind, allBlank blanks ∧ text = blanks ++ shown ++ behind := by
  rw [separated?] at h
  split at h
  · rw [eq_of_capture? h]
    obtain ⟨before, behind, hbefore, -, htext⟩ := exists_trim text
    exact ⟨stripped_trim text, before, behind, hbefore, htext⟩
  · cases h

/-- The value of an entry is nothing, or it is separated from the entry's name. -/
theorem exists_entryValue? {value : Text} (h : entryValue? text = some value) :
    Stripped value ∧ ∃ blanks behind, allBlank blanks ∧ text = blanks ++ value ++ behind := by
  rw [entryValue?] at h
  split at h
  · next hempty =>
    cases h
    exact ⟨stripped_nil, [], [], rfl, List.isEmpty_iff.mp hempty⟩
  · exact exists_separated? h

theorem exists_bang (text : Text) :
    ∃ sign rest, bang text = (sign, rest) ∧ text = sign ++ rest := by
  rw [bang.eq_def]
  split
  · exact ⟨_, _, rfl, rfl⟩
  · exact ⟨_, _, rfl, rfl⟩

theorem eq_of_name? {name rest : Text} (h : name? text = some (name, rest)) :
    text = name ++ rest := by
  rw [name?.eq_def] at h
  split at h
  · cases h
  · next c others =>
    split at h
    · cases h
      exact congrArg (c :: ·) (List.takeWhile_append_dropWhile).symm
    · cases h

/-- The reference text of an anchor stands before its closing brackets. -/
theorem infix_of_reftext? {shown : Text} (h : reftext? text = some shown) : shown <:+: text := by
  rw [reftext?] at h
  split at h
  · obtain ⟨c, hc, hshown⟩ := Option.bind_eq_some_iff.mp h
    rw [eq_of_capture? hshown]
    obtain ⟨before, rfl⟩ := List.getLast?_eq_some_iff.mp hc
    exact (List.suffix_append before [c]).isInfix
  · rw [eq_of_capture? h]
    exact (isSuffix_trimLeft text).isInfix

theorem isPrefix_withoutClosing (title : Text) : withoutClosing title <+: title := by
  rw [withoutClosing]
  split
  · exact (isPrefix_trimRight _).trans (isPrefix_dropRightWhile _ title)
  · exact List.prefix_rfl

/-- A title without the run that closes it has no white space at either end if the title has
none. -/
theorem Stripped.withoutClosing {title : Text} (h : Stripped title) :
    Stripped (withoutClosing title) := by
  refine h.of_isPrefix (isPrefix_withoutClosing title) ?_
  rw [Line.withoutClosing]
  split
  · exact isBlank_getLast?_trimRight _
  · exact h.last

theorem exists_description? {shown : Option Text} (h : description? text = some shown) :
    ∀ described ∈ shown, ∃ blanks behind, allBlank blanks ∧
      text = blanks ++ described ++ behind := by
  rw [description?] at h
  obtain ⟨value, hvalue, rfl⟩ := Option.map_eq_some_iff.mp h
  intro described hdescribed
  split at hdescribed
  · cases hdescribed
  · cases hdescribed
    exact (exists_entryValue? hvalue).2

theorem exists_termDelimiter? {delimiter : Text} {shown : Option Text}
    (h : termDelimiter? text = some (delimiter, shown)) :
    ∃ rest, text = delimiter ++ rest ∧ ∀ described ∈ shown, ∃ blanks behind, allBlank blanks ∧
      rest = blanks ++ described ++ behind := by
  rw [termDelimiter?] at h
  obtain ⟨found, -, hfound⟩ := List.exists_of_findSome?_eq_some h
  split at hfound
  · next hprefix =>
    obtain ⟨description, hdescription, heq⟩ := Option.map_eq_some_iff.mp hfound
    cases heq
    obtain ⟨rest, rfl⟩ := List.isPrefixOf_iff_prefix.mp hprefix
    rw [List.drop_left] at hdescription
    exact ⟨rest, rfl, exists_description? hdescription⟩
  · cases hfound

/-- A term is the start of the text that its delimiter and its description follow. -/
theorem exists_splitTerm? {term delimiter : Text} {description : Option Text}
    (h : splitTerm? text = some (term, delimiter, description)) :
    term ≠ [] ∧ ∃ rest, text = term ++ delimiter ++ rest ∧ ∀ described ∈ description,
      ∃ blanks behind, allBlank blanks ∧ rest = blanks ++ described ++ behind := by
  induction text generalizing term with
  | nil => cases h
  | cons c others ih =>
    rw [splitTerm?] at h
    split at h
    · next found shown hfound =>
      cases h
      obtain ⟨rest, rfl, hrest⟩ := exists_termDelimiter? hfound
      exact ⟨List.cons_ne_nil _ _, rest, rfl, hrest⟩
    · obtain ⟨⟨inner, parts⟩, hinner, heq⟩ := Option.map_eq_some_iff.mp h
      cases heq
      obtain ⟨-, rest, rfl, hrest⟩ := ih hinner
      exact ⟨List.cons_ne_nil _ _, rest, rfl, hrest⟩

end Parts

section Recognisers

variable {shape : Shape}

theorem recognised_blank? (h : blank? text = some shape) : shape.Recognised marker text := by
  rw [blank?] at h
  split at h
  · next hblank =>
    cases h
    exact hblank
  · cases h

theorem recognised_commentDelimiter? (h : commentDelimiter? text = some shape) :
    shape.Recognised marker text := by
  rw [commentDelimiter?] at h
  split at h
  · cases h
    rfl
  · cases h

theorem recognised_comment? (h : comment? marker text = some shape) :
    shape.Recognised marker text := by
  rw [comment?] at h
  split at h
  · next hprefix =>
    cases h
    obtain ⟨shown, rfl⟩ := List.isPrefixOf_iff_prefix.mp hprefix
    rw [List.drop_left]
    rfl
  · cases h

theorem recognised_documentAttribute? (h : documentAttribute? text = some shape) :
    shape.Recognised marker text := by
  rw [documentAttribute?.eq_def] at h
  split at h
  · next entry =>
    obtain ⟨before, afterBefore, hbefore, rfl⟩ := exists_bang entry
    rw [hbefore] at h
    obtain ⟨⟨name, afterName⟩, hname, hrest⟩ := Option.bind_eq_some_iff.mp h
    obtain ⟨sign, afterSign, hsign, rfl⟩ := exists_bang afterName
    dsimp only at hrest
    rw [hsign] at hrest
    split at hrest
    · next rest hrestEq =>
      obtain ⟨value, hvalue, heq⟩ := Option.bind_eq_some_iff.mp hrest
      cases heq
      obtain ⟨hstripped, blanks, behind, hblanks, rfl⟩ := exists_entryValue? hvalue
      refine ⟨hstripped, blanks, behind, hblanks, ?_⟩
      rw [eq_of_name? hname, show afterSign = _ from hrestEq]
      simp
    · cases hrest
  · cases h

theorem recognised_blockAnchor? (h : blockAnchor? text = some shape) :
    shape.Recognised marker text := by
  rw [blockAnchor?.eq_def] at h
  split at h
  · next c others =>
    have hid : '[' :: '[' :: c :: others =
        '[' :: '[' :: (c :: others.takeWhile isAnchorChar) ++ others.dropWhile isAnchorChar :=
      congrArg ('[' :: '[' :: c :: ·) (List.takeWhile_append_dropWhile).symm
    split at h
    · dsimp only at h
      split at h
      · split at h
        · cases h
          exact ⟨_, hid, nofun⟩
        · cases h
      · next rest hrest =>
        split at h
        · obtain ⟨reftext, hreftext, rfl⟩ := Option.map_eq_some_iff.mp h
          refine ⟨_, hid, fun shown hshown ↦ ?_⟩
          cases hshown
          have hbody : (trimRight rest).dropRight 2 <:+: rest :=
            ((List.take_prefix _ _).trans (isPrefix_trimRight rest)).isInfix
          rw [hrest]
          exact ((infix_of_reftext? hreftext).trans hbody).trans (List.suffix_cons ',' rest).isInfix
        · cases h
      · cases h
    · cases h
  · cases h

theorem recognised_tableDelimiter? (h : tableDelimiter? text = some shape) :
    shape.Recognised marker text := by
  rw [tableDelimiter?] at h
  split at h
  · next hline =>
    split at h
    · cases h
      exact hline
    · cases h
  · cases h

theorem recognised_blockDelimiter? (h : blockDelimiter? text = some shape) :
    shape.Recognised marker text := by
  rw [blockDelimiter?] at h
  split at h
  · next hline =>
    cases h
    exact hline
  · next hline =>
    split at h
    · obtain ⟨kind, -, rfl⟩ := Option.map_eq_some_iff.mp h
      exact hline
    · cases h
  · cases h

theorem recognised_fence? (h : fence? text = some shape) : shape.Recognised marker text := by
  rw [fence?.eq_def] at h
  split at h
  · next behind =>
    split at h
    · next hblank =>
      cases h
      refine ⟨behind.dropWhile isLanguageChar, hblank, ?_⟩
      rw [List.append_assoc, List.takeWhile_append_dropWhile]
      rfl
    · cases h
  · cases h

theorem recognised_sign? (h : sign? text = some shape) : shape.Recognised marker text := by
  rw [sign?] at h
  split at h
  · next hline =>
    cases h
    exact hline
  · next hline =>
    cases h
    exact hline
  · next hline =>
    cases h
    exact hline
  · cases h

theorem recognised_blockAttributes? (h : blockAttributes? text = some shape) :
    shape.Recognised marker text := by
  rw [blockAttributes?] at h
  split at h
  · next rest hrest =>
    split at h
    · next hlast =>
      obtain ⟨body, hbody, rfl⟩ := Option.map_eq_some_iff.mp h
      obtain ⟨behind, hbehind, htext⟩ := exists_trimRight text
      refine ⟨behind, hbehind, ?_⟩
      obtain ⟨inner, rfl⟩ := List.getLast?_eq_some_iff.mp hlast
      rw [hrest] at htext
      rw [eq_of_capture? hbody, List.dropLast_concat]
      simpa using htext
    · cases h
  · cases h

theorem recognised_sectionTitle? (h : sectionTitle? text = some shape) :
    shape.Recognised marker text := by
  rw [sectionTitle?] at h
  split at h
  · obtain ⟨title, htitle, rfl⟩ := Option.map_eq_some_iff.mp h
    rw [eq_of_capture? htitle]
    refine ⟨Stripped.withoutClosing (stripped_trim _), ?_⟩
    obtain ⟨blanks, behind, hblanks, -, hrest⟩ := exists_trim (text.dropWhile (· == '='))
    obtain ⟨closing, hclosing⟩ := isPrefix_withoutClosing (trim (text.dropWhile (· == '=')))
    refine ⟨blanks, closing ++ behind, hblanks, ?_⟩
    rw [List.append_assoc _ _ (closing ++ behind), ← List.append_assoc _ closing, hclosing,
      List.append_assoc, ← List.append_assoc blanks, ← hrest, List.takeWhile_append_dropWhile]
  · cases h

theorem recognised_blockTitle? (h : blockTitle? text = some shape) :
    shape.Recognised marker text := by
  rw [blockTitle?.eq_def] at h
  split at h
  · next c rest =>
    split at h
    · cases h
    · next hnot =>
      have hdark : isBlank c = false := Bool.eq_false_iff.mpr fun hc ↦ hnot (.inl hc)
      obtain ⟨title, htitle, rfl⟩ := Option.map_eq_some_iff.mp h
      have hshown : title = c :: trimRight rest := by
        rw [eq_of_capture? htitle]
        exact dropRightWhile_cons_of_neg hdark rest
      refine ⟨hshown ▸ List.cons_ne_nil _ _, ⟨?_, ?_⟩, ?_⟩
      · rw [hshown]
        simpa using hdark
      · rw [eq_of_capture? htitle]
        exact isBlank_getLast?_trimRight _
      · rw [eq_of_capture? htitle]
        exact dropRightWhile_cons_of_neg (by decide) (c :: rest)
  · cases h

theorem recognised_blockMacro? (h : blockMacro? text = some shape) :
    shape.Recognised marker text := by
  rw [blockMacro?] at h
  obtain ⟨⟨name, afterName⟩, hname, hrest⟩ := Option.bind_eq_some_iff.mp h
  have htext : text = name ++ afterName := eq_of_name? hname
  dsimp only at hrest
  split at hrest
  · next rest =>
    split at hrest
    · next body hbody =>
      split at hrest
      · next hends =>
        obtain ⟨shown, hshown, rfl⟩ := Option.map_eq_some_iff.mp hrest
        obtain ⟨behind, hbehind, htrimmed⟩ := exists_trimRight body
        refine ⟨behind, hbehind, ?_⟩
        obtain ⟨inner, hinner⟩ := List.getLast?_eq_some_iff.mp hends.2
        rw [hinner] at hshown htrimmed
        rw [eq_of_capture? hshown, List.dropLast_concat]
        have hopened : rest = rest.takeWhile (· != '[') ++ '[' :: body := by
          rw [← hbody, List.takeWhile_append_dropWhile]
        rw [hopened, htrimmed] at htext
        generalize rest.takeWhile (· != '[') = target at htext ⊢
        simpa using htext
      · cases hrest
    · cases hrest
  · cases hrest

theorem recognised_admonition? (h : admonition? text = some shape) :
    shape.Recognised marker text := by
  rw [admonition?] at h
  split at h
  · next rest hrest =>
    split at h
    · obtain ⟨shown, hshown, rfl⟩ := Option.map_eq_some_iff.mp h
      obtain ⟨hstripped, blanks, behind, hblanks, hbehind⟩ := exists_separated? hshown
      refine ⟨hstripped, blanks, behind, hblanks, ?_⟩
      rw [List.append_assoc, List.append_assoc, List.cons_append, ← List.append_assoc blanks,
        ← hbehind, ← hrest, List.takeWhile_append_dropWhile]
    · cases h
  · cases h

/-! ### Items -/

theorem recognised_callout? (h : callout? text = some shape) : shape.Recognised marker text := by
  rw [callout?.eq_def] at h
  split at h
  · next rest =>
    dsimp only at h
    split at h
    · next behind hbehind =>
      split at h
      · obtain ⟨item, hitem, rfl⟩ := Option.map_eq_some_iff.mp h
        obtain ⟨hstripped, blanks, further, hblanks, hfurther⟩ := exists_separated? hitem
        refine ⟨hstripped, nofun, [], '<' :: rest.takeWhile (· != '>') ++ ['>'], blanks, [],
          further, rfl, hblanks, ⟨_, rfl⟩, rfl, ?_⟩
        have hrest : rest = rest.takeWhile (· != '>') ++ '>' :: behind := by
          rw [← hbehind, List.takeWhile_append_dropWhile]
        rw [hfurther] at hrest
        generalize rest.takeWhile (· != '>') = label at hrest ⊢
        simpa using hrest
      · cases h
    · cases h
  · cases h

/-- A box holds one of its marks and is followed by white space, which is dropped from the text
behind it. -/
theorem exists_checkbox? {box : Checkbox} {shown : Text} (h : checkbox? text = some (box, shown)) :
    ∃ mark ∈ boxMarks, ∃ blanks, (box = .unchecked ↔ mark = ' ') ∧ blanks ≠ [] ∧
      allBlank blanks ∧ shown = trimLeft (blanks ++ shown) ∧
      text = '[' :: mark :: ']' :: (blanks ++ shown) := by
  rw [checkbox?.eq_def] at h
  split at h
  · next mark rest =>
    split at h
    · next hmark =>
      cases h
      have hrest : rest.takeWhile isBlank ++ trimLeft rest = rest :=
        List.takeWhile_append_dropWhile
      refine ⟨mark, List.contains_iff_mem.mp hmark.1, rest.takeWhile isBlank, ?_, ?_,
        List.all_takeWhile, ?_, ?_⟩
      · by_cases hspace : mark = ' '
        · simp [hspace]
        · simp [hspace]
      · cases rest with
        | nil => cases hmark.2
        | cons c others =>
          have hblank : isBlank c = true := hmark.2
          rw [List.takeWhile_cons_of_pos hblank]
          exact List.cons_ne_nil _ _
      · rw [hrest]
      · rw [hrest]
    · cases h
  · cases h

/-- A text that no box is read from starts with none. -/
theorem not_startsWithBox (h : checkbox? text = none) : ¬ StartsWithBox text := by
  rintro ⟨mark, hmark, blank, rest, hblank, rfl⟩
  rw [checkbox?, if_pos ⟨List.contains_iff_mem.mpr hmark, hblank⟩] at h
  cases h

/-- An item whose text may start with a box is spelled with the box, if it does. -/
theorem recognised_unorderedItem {lead item blanks behind itemMarker : Text}
    (hlead : allBlank lead) (hblanks : allBlank blanks) (hstripped : Stripped item)
    (h : text = lead ++ itemMarker ++ blanks ++ item ++ behind) :
    (unorderedItem itemMarker item).Recognised marker text := by
  rw [unorderedItem]
  split
  · next box shown hbox =>
    obtain ⟨mark, hmark, gap, hempty, hgap, hallBlank, hshown, rfl⟩ := exists_checkbox? hbox
    have hsuffix : shown <:+ '[' :: mark :: ']' :: (gap ++ shown) :=
      List.suffix_append ('[' :: mark :: ']' :: gap) shown
    refine ⟨hstripped.of_isSuffix hsuffix ?_, fun _ ↦ ?_, ?_⟩
    · rw [hshown]
      exact isBlank_head?_trimLeft _
    · exact ⟨mark, hmark, gap, hempty, hgap, hallBlank, _, _, h.symm⟩
    · refine ⟨lead, itemMarker, blanks, '[' :: mark :: ']' :: gap, behind, hlead, hblanks, rfl,
        ⟨mark, gap, hallBlank, rfl⟩, ?_⟩
      simpa using h
  · next hnone =>
    exact ⟨hstripped, fun _ ↦ not_startsWithBox hnone, lead, itemMarker, blanks, [], behind, hlead,
      hblanks, rfl, rfl, by simpa using h⟩

theorem recognised_unordered? (h : unordered? text = some shape) :
    shape.Recognised marker text := by
  obtain ⟨lead, hlead, htext⟩ := exists_trimLeft text
  rw [unordered?] at h
  split at h
  · next rest hrest =>
    obtain ⟨item, hitem, rfl⟩ := Option.map_eq_some_iff.mp h
    obtain ⟨hstripped, blanks, behind, hblanks, hbehind⟩ := exists_separated? hitem
    have hspelled : text = lead ++ ['-'] ++ blanks ++ item ++ behind := by
      rw [hrest, hbehind] at htext
      simpa using htext
    exact recognised_unorderedItem hlead hblanks hstripped hspelled
  · dsimp only at h
    split at h
    · obtain ⟨item, hitem, rfl⟩ := Option.map_eq_some_iff.mp h
      obtain ⟨hstripped, blanks, behind, hblanks, hbehind⟩ := exists_separated? hitem
      have hspelled : text =
          lead ++ (trimLeft text).takeWhile (· == '*') ++ blanks ++ item ++ behind := by
        rw [← List.takeWhile_append_dropWhile (p := (· == '*')) (l := trimLeft text), hbehind]
          at htext
        simpa using htext
      exact recognised_unorderedItem hlead hblanks hstripped hspelled
    · cases h

theorem recognised_ordered? (h : ordered? text = some shape) : shape.Recognised marker text := by
  obtain ⟨lead, hlead, htext⟩ := exists_trimLeft text
  rw [ordered?] at h
  split at h
  · obtain ⟨item, hitem, rfl⟩ := Option.map_eq_some_iff.mp h
    obtain ⟨hstripped, blanks, behind, hblanks, hbehind⟩ := exists_separated? hitem
    refine ⟨hstripped, nofun, lead, _, blanks, [], behind, hlead, hblanks, .inl rfl, rfl, ?_⟩
    rw [← List.takeWhile_append_dropWhile (p := (· == '.')) (l := trimLeft text), hbehind] at htext
    simpa using htext
  · split at h
    · split at h
      · next rest hrest =>
        obtain ⟨item, hitem, rfl⟩ := Option.map_eq_some_iff.mp h
        obtain ⟨hstripped, blanks, behind, hblanks, hbehind⟩ := exists_separated? hitem
        refine ⟨hstripped, nofun, lead, (trimLeft text).takeWhile isDecimal ++ ['.'], blanks, [],
          behind, hlead, hblanks, .inr ⟨_, List.all_takeWhile, rfl⟩, rfl, ?_⟩
        rw [← List.takeWhile_append_dropWhile (p := isDecimal) (l := trimLeft text), hrest, hbehind]
          at htext
        simpa using htext
      · cases h
    · cases h

theorem recognised_term? (h : term? text = some shape) : shape.Recognised marker text := by
  rw [term?] at h
  obtain ⟨⟨term, delimiter, description⟩, hsplit, hrest⟩ := Option.bind_eq_some_iff.mp h
  obtain ⟨shown, hshown, heq⟩ := Option.bind_eq_some_iff.mp hrest
  cases heq
  rw [eq_of_capture? hshown]
  obtain ⟨hne, rest, hterm, hdescription⟩ := exists_splitTerm? hsplit
  obtain ⟨lead, hlead, htext⟩ := exists_trimLeft text
  refine ⟨hne, lead, rest, hlead, ?_, hdescription⟩
  rw [hterm] at htext
  simpa using htext

theorem recognised_indentedText? (h : indentedText? text = some shape) :
    shape.Recognised marker text := by
  rw [indentedText?] at h
  split at h
  · cases h
  · cases h
    rfl

end Recognisers

section Choice

variable {P : Shape → Prop} {first second : Option Shape}

/-- What holds of whatever either of two recognisers finds holds of what the first of them finds. -/
theorem forall_orElse (hfirst : ∀ shape, first = some shape → P shape)
    (hsecond : ∀ shape, second = some shape → P shape) :
    ∀ shape, (first <|> second) = some shape → P shape := by
  cases first with
  | none => exact hsecond
  | some found => exact hfirst

/-- Text that no recogniser accepts is plain text. -/
theorem of_getD {otherwise : Shape} (h : ∀ shape, first = some shape → P shape)
    (hotherwise : P otherwise) : P (first.getD otherwise) := by
  cases first with
  | none => exact hotherwise
  | some shape => exact h shape rfl

end Choice

/-- Whichever recogniser decides a line, the line is as the shape tells. -/
theorem recognised_shapeOf (marker text : Text) : (shapeOf marker text).Recognised marker text := by
  refine of_getD ?_ rfl
  refine forall_orElse (fun _ ↦ recognised_blank?) ?_
  refine forall_orElse (fun _ ↦ recognised_commentDelimiter?) ?_
  refine forall_orElse (fun _ ↦ recognised_comment?) ?_
  refine forall_orElse (fun _ ↦ recognised_documentAttribute?) ?_
  refine forall_orElse (fun _ ↦ recognised_blockAnchor?) ?_
  refine forall_orElse (fun _ ↦ recognised_tableDelimiter?) ?_
  refine forall_orElse (fun _ ↦ recognised_blockDelimiter?) ?_
  refine forall_orElse (fun _ ↦ recognised_fence?) ?_
  refine forall_orElse (fun _ ↦ recognised_sign?) ?_
  refine forall_orElse (fun _ ↦ recognised_blockAttributes?) ?_
  refine forall_orElse (fun _ ↦ recognised_sectionTitle?) ?_
  refine forall_orElse (fun _ ↦ recognised_blockTitle?) ?_
  refine forall_orElse (fun _ ↦ recognised_blockMacro?) ?_
  refine forall_orElse (fun _ ↦ recognised_admonition?) ?_
  refine forall_orElse (fun _ ↦ recognised_callout?) ?_
  refine forall_orElse (fun _ ↦ recognised_unordered?) ?_
  refine forall_orElse (fun _ ↦ recognised_ordered?) ?_
  exact forall_orElse (fun _ ↦ recognised_term?) fun _ ↦ recognised_indentedText?

/-- Every line is made up of the parts that its shape carries, of markup and of white space. -/
theorem spelled_shapeOf (marker text : Text) : (shapeOf marker text).Spelled text := by
  have hrecognised := recognised_shapeOf marker text
  cases hshape : shapeOf marker text with
  | blockAttributes | blockMacro =>
    rw [hshape] at hrecognised
    exact hrecognised
  | sectionTitle | admonition | term =>
    rw [hshape] at hrecognised
    exact hrecognised.2
  | listItem =>
    rw [hshape] at hrecognised
    exact hrecognised.2.2
  | _ => trivial

end Line

end AsciidocSpans
