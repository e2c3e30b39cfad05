import AsciidocSpans.Proofs.Line.Literal

/-!
Writing marked lines. A mark stands before a text: the equals signs of a title, the marker of an
item, the label of an admonition, the full stop of a caption, or an entry's name between its colons
(`Mark`). If the text has no white space at its ends, a line that is written so is read with that
mark and that text (`classify_written`), whatever the text holds, as long as the mark does not take
part of it for its own (`Mark.Takes`): a title ends before equals signs behind white space, a box
belongs to its unordered item, and a second full stop makes no caption.

Recognisers are asked in turn, so that a mark has to fail all the recognisers before its own. Those
of delimiters, anchors and attribute lines look at the first character of the line, and at what the
line is made of (`shapeOf_of_undelimited`).
-/

set_option autoImplicit false
set_option relaxedAutoImplicit false

namespace AsciidocSpans.Line

open Text

variable {c d : Char} {text rest : Text}

/-! ### Marks -/

/-- The markup that stands before a text on a line. -/
inductive Mark where
  | title (depth : Nat)
  | bullet (depth : Nat)
  | hyphen
  | dots (depth : Nat)
  | number (digits : Text)
  | label (style : Text)
  | caption
  | entry (name : Text)

namespace Mark

/-- What a mark is written as, with the space behind it. -/
def written : Mark → Text
  | title depth => List.replicate depth '=' ++ [' ']
  | bullet depth => List.replicate depth '*' ++ [' ']
  | hyphen => ['-', ' ']
  | dots depth => List.replicate depth '.' ++ [' ']
  | number digits => digits ++ ['.', ' ']
  | label style => style ++ [':', ' ']
  | caption => ['.']
  | entry name => ':' :: name ++ [':', ' ']

/-- Titles have up to six equals signs and items up to five asterisks or dots; a number is a run of
digits, a label that of an admonition, and a name starts with a word character. -/
def IsProper : Mark → Prop
  | title depth => 1 ≤ depth ∧ depth ≤ 6
  | bullet depth | dots depth => 1 ≤ depth ∧ depth ≤ 5
  | number digits => digits ≠ [] ∧ ∀ c ∈ digits, isDecimal c
  | label style => style ∈ admonitionStyles
  | entry name => ∃ c rest, name = c :: rest ∧ isWord c ∧ ∀ d ∈ rest, isNameChar d
  | hyphen | caption => True

/-- A text ends with equals signs behind white space, which would close a title. -/
def EndsInClosing (text : Text) : Prop :=
  ∃ before blank closing, text = before ++ blank :: closing ∧ isBlank blank ∧ closing ≠ [] ∧
    ∀ c ∈ closing, c = '='

/-- A mark takes a text as it is. -/
def Takes (text : Text) : Mark → Prop
  | title _ => ¬ EndsInClosing text
  | bullet _ | hyphen => ¬ StartsWithBox text
  | caption => text.head? ≠ some '.'
  | _ => True

/-- The shape of a line with a mark and a text. -/
def shape (text : Text) : Mark → Shape
  | title depth => .sectionTitle (List.replicate depth '=') text
  | bullet depth => .listItem .unordered (List.replicate depth '*') text none
  | hyphen => .listItem .unordered ['-'] text none
  | dots depth => .listItem .ordered (List.replicate depth '.') text none
  | number _ => .listItem .ordered ['1', '.'] text none
  | label style => .admonition style text
  | caption => .blockTitle text
  | entry name => .attributeEntry name text

end Mark

/-! ### Lines that no mark begins -/

section Undelimited

/-- The characters that a line starts with if it is a comment, an entry, an anchor, an attribute
line, a fence, a sign, or the delimiter of a table. -/
def openers : List Char :=
  ['/', ':', '[', '|', '!', ',', '`', '+', '\'', '<']

theorem blank?_eq_none (h : isBlank c = false) : blank? (c :: rest) = none := by
  simp [blank?, allBlank, h]

theorem commentDelimiter?_eq_none (h : c ≠ '/') (hends : trimRight (c :: rest) = c :: rest) :
    commentDelimiter? (c :: rest) = none := by
  simp [commentDelimiter?, hends, h]

theorem comment?_eq_none (h : c ≠ '/') : comment? "//".toList (c :: rest) = none := by
  have hslashes : ¬ ['/', '/'].isPrefixOf (c :: rest) = true := by simp [Ne.symm h]
  exact if_neg hslashes

/-- A line is no delimiter if it starts with another character and is not made of that alone. What
it is, the recognisers behind those of the delimiters say. -/
theorem shapeOf_of_undelimited {found : Shape} (hblank : isBlank c = false) (hopener : c ∉ openers)
    (hends : trimRight (c :: rest) = c :: rest) (hmixed : ∃ d ∈ rest, d ≠ c)
    (hfound : (sectionTitle? (c :: rest) <|> blockTitle? (c :: rest) <|> blockMacro? (c :: rest) <|>
      admonition? (c :: rest) <|> callout? (c :: rest) <|> unordered? (c :: rest) <|>
      ordered? (c :: rest) <|> term? (c :: rest) <|> indentedText? (c :: rest)) = some found) :
    shapeOf "//".toList (c :: rest) = found := by
  simp only [openers, List.mem_cons, List.not_mem_nil, or_false, not_or] at hopener
  obtain ⟨hslash, hcolon, hbracket, hbar, hbang, hcomma, hquote, hplus, htick, hless⟩ := hopener
  have hentry : documentAttribute? (c :: rest) = none := by
    unfold documentAttribute?
    split
    · next heq => exact absurd (List.cons.inj heq).1 hcolon
    · rfl
  have hanchor : blockAnchor? (c :: rest) = none := by
    unfold blockAnchor?
    split
    · next heq => exact absurd (List.cons.inj heq).1 hbracket
    · rfl
  have htable : tableDelimiter? (c :: rest) = none := by
    simp [tableDelimiter?, hends, hbar, hbang, hcomma, hcolon]
  have hdelimiter : blockDelimiter? (c :: rest) = none := by
    obtain ⟨d, hd, hdc⟩ := hmixed
    unfold blockDelimiter?
    rw [hends]
    split
    · next heq =>
      cases heq
      exact absurd (List.mem_singleton.mp hd) hdc
    · next first others _ heq =>
      cases heq
      refine if_neg fun hall ↦ hdc ?_
      exact beq_iff_eq.mp (List.all_eq_true.mp hall.2 d hd)
    · rfl
  have hfence : fence? (c :: rest) = none := by
    unfold fence?
    split
    · next heq => exact absurd (List.cons.inj heq).1 hquote
    · rfl
  have hsign : sign? (c :: rest) = none := by
    unfold sign?
    rw [hends]
    split
    · next heq => exact absurd (List.cons.inj heq).1 hplus
    · next heq => exact absurd (List.cons.inj heq).1 htick
    · next heq => exact absurd (List.cons.inj heq).1 hless
    · rfl
  have hattributes : blockAttributes? (c :: rest) = none := by
    unfold blockAttributes?
    rw [hends]
    split
    · next heq => exact absurd (List.cons.inj heq).1 hbracket
    · rfl
  unfold shapeOf
  rw [blank?_eq_none hblank, commentDelimiter?_eq_none hslash hends, comment?_eq_none hslash,
    hentry, hanchor, htable, hdelimiter, hfence, hsign, hattributes]
  change (sectionTitle? (c :: rest) <|> _).getD _ = found
  rw [hfound]
  rfl

theorem sectionTitle?_eq_none (h : c ≠ '=') : sectionTitle? (c :: rest) = none := by
  simp [sectionTitle?, h]

theorem blockTitle?_eq_none_of_ne (h : c ≠ '.') : blockTitle? (c :: rest) = none := by
  unfold blockTitle?
  split
  · next heq => exact absurd (List.cons.inj heq).1 h
  · rfl

theorem blockTitle?_eq_none (h : isBlank c = true ∨ c = '.') :
    blockTitle? ('.' :: c :: rest) = none :=
  if_pos h

theorem blockMacro?_eq_none_of_not_word (h : isWord c = false) :
    blockMacro? (c :: rest) = none := by
  simp [blockMacro?, name?, h]

/-- No macro stands where the first character that belongs to no name is not the first of two
colons. -/
theorem blockMacro?_eq_none {start : Text} (hstart : ':' ∉ start) (hc : isNameChar c = false)
    (h : c ≠ ':' ∨ d ≠ ':') : blockMacro? (start ++ c :: d :: rest) = none := by
  have hstop : ∀ others : Text, ':' ∉ others → ∀ behind : Text,
      (others ++ c :: d :: rest).dropWhile isNameChar ≠ ':' :: ':' :: behind := by
    intro others hothers behind
    induction others with
    | nil =>
      rw [List.nil_append, List.dropWhile_cons_of_neg (by simp [hc])]
      rintro heq
      cases heq
      simp at h
    | cons first more ih =>
      simp only [List.mem_cons, not_or] at hothers
      by_cases hfirst : isNameChar first = true
      · rw [List.cons_append, List.dropWhile_cons_of_pos hfirst]
        exact ih hothers.2
      · rw [List.cons_append, List.dropWhile_cons_of_neg hfirst]
        intro heq
        exact hothers.1 (List.cons.inj heq).1.symm
  unfold blockMacro?
  cases hname : name? (start ++ c :: d :: rest) with
  | none => rfl
  | some pair =>
    obtain ⟨name, afterName⟩ := pair
    have hafter : ∀ behind, afterName ≠ ':' :: ':' :: behind := by
      intro behind
      cases start with
      | nil =>
        have hword : isWord c = false := by
          simp only [isNameChar, Bool.or_eq_false_iff] at hc
          exact hc.1
        simp [name?, hword] at hname
      | cons first others =>
        simp only [List.mem_cons, not_or] at hstart
        rw [List.cons_append, name?] at hname
        split at hname
        · cases hname
          exact hstop others hstart.2 behind
        · cases hname
    -- As no two colons stand behind the name (`hafter`), the match takes its other branch.
    simp only [Option.bind_eq_bind, Option.bind_some]

theorem admonition?_eq_none (h : ∀ style ∈ admonitionStyles, style.head? ≠ some c) :
    admonition? (c :: rest) = none := by
  have hstyle : ¬ admonitionStyles.contains ((c :: rest).takeWhile (· != ':')) = true := by
    intro hcontains
    have hmem := List.contains_iff_mem.mp hcontains
    by_cases hcolon : c = ':'
    · rw [List.takeWhile_cons_of_neg (by simp [hcolon])] at hmem
      exact absurd hmem (by decide)
    · rw [List.takeWhile_cons_of_pos (by simp [hcolon])] at hmem
      exact h _ hmem rfl
  unfold admonition?
  dsimp only
  split
  · exact if_neg hstyle
  · rfl

theorem callout?_eq_none (h : c ≠ '<') : callout? (c :: rest) = none := by
  unfold callout?
  split
  · next heq => exact absurd (List.cons.inj heq).1 h
  · rfl

theorem trimLeft_eq_self (h : isBlank c = false) : trimLeft (c :: rest) = c :: rest :=
  List.dropWhile_cons_of_neg (by simp [h])

theorem unordered?_eq_none (hblank : isBlank c = false) (hhyphen : c ≠ '-') (hstar : c ≠ '*') :
    unordered? (c :: rest) = none := by
  unfold unordered?
  rw [trimLeft_eq_self hblank]
  split
  · next heq => exact absurd (List.cons.inj heq).1 hhyphen
  · simp [hstar]

end Undelimited

/-! ### Lines with a mark -/

section Marked

variable (hsome : text ≠ []) (hline : '\n' ∉ text) (hstripped : Stripped text)

include hsome hstripped in
/-- A line that ends with a text ends where the text does. -/
theorem isBlank_getLast?_append (before : Text) :
    ∀ c ∈ (before ++ text).getLast?, isBlank c = false := by
  intro c hc
  rw [List.getLast?_append, List.getLast?_eq_some_getLast hsome] at hc
  refine hstripped.last c ?_
  rw [List.getLast?_eq_some_getLast hsome]
  exact hc

include hsome hstripped in
theorem trimRight_append_eq_self (before : Text) : trimRight (before ++ text) = before ++ text :=
  dropRightWhile_eq_self (isBlank_getLast?_append hsome hstripped before)

include hline in
theorem capture?_eq_some : capture? text = some text := by
  simp [capture?, hline]

include hline hstripped in
/-- What stands behind a marker is captured as it is, if it has no white space at its ends. -/
theorem separated?_space : separated? (' ' :: text) = some text := by
  have htrim : trim (' ' :: text) = text := stripped_iff.mp hstripped
  unfold separated?
  rw [htrim]
  exact capture?_eq_some hline

/-- A title that no closing run ends is kept. -/
theorem withoutClosing_eq_self (h : ¬ Mark.EndsInClosing text) : withoutClosing text = text := by
  unfold withoutClosing
  refine if_neg ?_
  rintro ⟨hclosed, htrimmed, -⟩
  obtain ⟨closing, htext, hclosing⟩ := exists_dropped (· == '=') text
  generalize text.dropRightWhile (· == '=') = opened at hclosed htrimmed htext
  obtain ⟨blanks, hblanks, hopened⟩ := exists_trimRight opened
  have hsomeClosing : closing ≠ [] := by
    rintro rfl
    simp [htext] at hclosed
  have hsomeBlanks : blanks ≠ [] := by
    rintro rfl
    rw [List.append_nil] at hopened
    rw [← hopened] at htrimmed
    exact Nat.lt_irrefl _ htrimmed
  refine h ⟨trimRight opened ++ blanks.dropLast, blanks.getLast hsomeBlanks, closing, ?_,
    List.all_eq_true.mp hblanks _ (List.getLast_mem hsomeBlanks), hsomeClosing, ?_⟩
  · calc
      text = trimRight opened ++ blanks ++ closing := by rw [← hopened, ← htext]
      _ = trimRight opened ++ (blanks.dropLast ++ [blanks.getLast hsomeBlanks]) ++ closing := by
        rw [List.dropLast_concat_getLast]
      _ = _ := by simp
  · exact fun c hc ↦ beq_iff_eq.mp (hclosing c hc)

theorem unorderedItem_eq (h : ¬ StartsWithBox text) (marker : Text) :
    unorderedItem marker text = .listItem .unordered marker text none := by
  have hnone : checkbox? text = none := by
    unfold checkbox?
    split
    · next mark rest =>
      refine if_neg fun hbox ↦ h ?_
      cases rest with
      | nil => cases hbox.2
      | cons blank others =>
        exact ⟨mark, List.contains_iff_mem.mp hbox.1, blank, others, hbox.2, rfl⟩
    · rfl
  simp [unorderedItem, hnone]

/-- A run of a sign and a space before a text. -/
theorem replicate_succ_append (n : Nat) (sign : Char) (text : Text) :
    List.replicate (n + 1) sign ++ [' '] ++ text =
      sign :: (List.replicate n sign ++ ' ' :: text) := by
  simp [List.replicate_succ]

theorem takeWhile_replicate_append (n : Nat) {sign : Char} (h : sign ≠ ' ') (text : Text) :
    (sign :: (List.replicate n sign ++ ' ' :: text)).takeWhile (· == sign) =
      List.replicate (n + 1) sign := by
  rw [← replicate_succ_append, List.append_assoc]
  exact takeWhile_append_cons (by simp) (by simp [Ne.symm h]) text

theorem dropWhile_replicate_append (n : Nat) {sign : Char} (h : sign ≠ ' ') (text : Text) :
    (sign :: (List.replicate n sign ++ ' ' :: text)).dropWhile (· == sign) = ' ' :: text := by
  rw [← replicate_succ_append, List.append_assoc]
  exact dropWhile_append_cons (by simp) (by simp [Ne.symm h]) text

include hsome hline hstripped

theorem shapeOf_title {depth : Nat} (hmark : (Mark.title depth).IsProper)
    (htakes : (Mark.title depth).Takes text) :
    shapeOf "//".toList ((Mark.title depth).written ++ text) = (Mark.title depth).shape text := by
  obtain ⟨hleast, hmost⟩ := hmark
  obtain ⟨n, rfl⟩ := Nat.exists_eq_add_of_le' hleast
  have hends := trimRight_append_eq_self hsome hstripped (Mark.title (n + 1)).written
  rw [Mark.written, replicate_succ_append] at hends ⊢
  have htrim : trim (' ' :: text) = text := stripped_iff.mp hstripped
  have htitle : sectionTitle? ('=' :: (List.replicate n '=' ++ ' ' :: text)) =
      some (.sectionTitle (List.replicate (n + 1) '=') text) := by
    unfold sectionTitle?
    rw [takeWhile_replicate_append n (by decide), dropWhile_replicate_append n (by decide)]
    dsimp only
    rw [htrim, withoutClosing_eq_self htakes, capture?_eq_some hline]
    exact if_pos ⟨by simp, by simpa using hmost, rfl, hsome⟩
  refine shapeOf_of_undelimited (by decide) (by decide) hends ⟨' ', by simp, by decide⟩ ?_
  rw [htitle]
  rfl

theorem shapeOf_bullet {depth : Nat} (hmark : (Mark.bullet depth).IsProper)
    (htakes : (Mark.bullet depth).Takes text) :
    shapeOf "//".toList ((Mark.bullet depth).written ++ text) =
      (Mark.bullet depth).shape text := by
  obtain ⟨hleast, hmost⟩ := hmark
  obtain ⟨n, rfl⟩ := Nat.exists_eq_add_of_le' hleast
  have hends := trimRight_append_eq_self hsome hstripped (Mark.bullet (n + 1)).written
  rw [Mark.written, replicate_succ_append] at hends ⊢
  have hitem : unordered? ('*' :: (List.replicate n '*' ++ ' ' :: text)) =
      some (.listItem .unordered (List.replicate (n + 1) '*') text none) := by
    unfold unordered?
    rw [trimLeft_eq_self (by decide)]
    split
    · next heq => exact absurd (List.cons.inj heq).1 (by decide)
    · rw [takeWhile_replicate_append n (by decide), dropWhile_replicate_append n (by decide),
        separated?_space hline hstripped]
      dsimp only
      rw [Option.map_some, unorderedItem_eq htakes]
      exact if_pos ⟨by simp, by simpa using hmost⟩
  refine shapeOf_of_undelimited (by decide) (by decide) hends ⟨' ', by simp, by decide⟩ ?_
  rw [sectionTitle?_eq_none (by decide), blockTitle?_eq_none_of_ne (by decide),
    blockMacro?_eq_none_of_not_word (by decide), admonition?_eq_none (by decide),
    callout?_eq_none (by decide), hitem]
  rfl

theorem shapeOf_hyphen (htakes : Mark.hyphen.Takes text) :
    shapeOf "//".toList (Mark.hyphen.written ++ text) = Mark.hyphen.shape text := by
  have hends := trimRight_append_eq_self hsome hstripped Mark.hyphen.written
  change trimRight ('-' :: ' ' :: text) = '-' :: ' ' :: text at hends
  change shapeOf _ ('-' :: ' ' :: text) = _
  have hitem : unordered? ('-' :: ' ' :: text) =
      some (.listItem .unordered ['-'] text none) := by
    unfold unordered?
    rw [trimLeft_eq_self (by decide)]
    show (separated? (' ' :: text)).map (unorderedItem ['-']) = _
    rw [separated?_space hline hstripped, Option.map_some, unorderedItem_eq htakes]
  refine shapeOf_of_undelimited (by decide) (by decide) hends ⟨' ', by simp, by decide⟩ ?_
  rw [sectionTitle?_eq_none (by decide), blockTitle?_eq_none_of_ne (by decide),
    blockMacro?_eq_none_of_not_word (by decide), admonition?_eq_none (by decide),
    callout?_eq_none (by decide), hitem]
  rfl

theorem shapeOf_dots {depth : Nat} (hmark : (Mark.dots depth).IsProper) :
    shapeOf "//".toList ((Mark.dots depth).written ++ text) = (Mark.dots depth).shape text := by
  obtain ⟨hleast, hmost⟩ := hmark
  obtain ⟨n, rfl⟩ := Nat.exists_eq_add_of_le' hleast
  have hends := trimRight_append_eq_self hsome hstripped (Mark.dots (n + 1)).written
  rw [Mark.written, replicate_succ_append] at hends ⊢
  have hcaption : blockTitle? ('.' :: (List.replicate n '.' ++ ' ' :: text)) = none := by
    cases n with
    | zero => exact blockTitle?_eq_none (.inl (by decide))
    | succ m => exact blockTitle?_eq_none (.inr rfl)
  have hitem : ordered? ('.' :: (List.replicate n '.' ++ ' ' :: text)) =
      some (.listItem .ordered (List.replicate (n + 1) '.') text none) := by
    unfold ordered?
    rw [trimLeft_eq_self (by decide)]
    dsimp only
    rw [takeWhile_replicate_append n (by decide), dropWhile_replicate_append n (by decide),
      separated?_space hline hstripped]
    exact if_pos ⟨by simp, by simpa using hmost⟩
  refine shapeOf_of_undelimited (by decide) (by decide) hends ⟨' ', by simp, by decide⟩ ?_
  rw [sectionTitle?_eq_none (by decide), hcaption,
    blockMacro?_eq_none_of_not_word (by decide), admonition?_eq_none (by decide),
    callout?_eq_none (by decide), unordered?_eq_none (by decide) (by decide) (by decide), hitem]
  rfl

theorem shapeOf_number {digits : Text} (hmark : (Mark.number digits).IsProper) :
    shapeOf "//".toList ((Mark.number digits).written ++ text) =
      (Mark.number digits).shape text := by
  obtain ⟨hdigits, hdecimal⟩ := hmark
  have hends := trimRight_append_eq_self hsome hstripped (Mark.number digits).written
  -- No sign that matters to a recogniser is a digit.
  have hsigns : (openers ++ ['=', '.', '-', '*']).all (!isDecimal ·) = true := by decide
  have hlabels : ∀ style ∈ admonitionStyles, isDecimal (style.headD ' ') = false := by decide
  obtain ⟨c, more, rfl⟩ := List.exists_cons_of_ne_nil hdigits
  have hc : isDecimal c = true := hdecimal c List.mem_cons_self
  have hapart : ∀ sign ∈ openers ++ ['=', '.', '-', '*'], c ≠ sign := by
    rintro sign hsign rfl
    have hnot := List.all_eq_true.mp hsigns c hsign
    rw [hc] at hnot
    cases hnot
  have hwritten : (Mark.number (c :: more)).written ++ text =
      (c :: more) ++ '.' :: ' ' :: text := by
    simp [Mark.written]
  have hitem : ordered? ((c :: more) ++ '.' :: ' ' :: text) =
      some (.listItem .ordered ['1', '.'] text none) := by
    have hdots : ((c :: more) ++ '.' :: ' ' :: text).takeWhile (· == '.') = [] := by
      simp [hapart '.' (by decide)]
    unfold ordered?
    rw [List.cons_append, trimLeft_eq_self (isBlank_of_isDecimal hc), ← List.cons_append]
    dsimp only
    rw [hdots, takeWhile_append_cons hdecimal (by decide),
      dropWhile_append_cons hdecimal (by decide), if_neg (by simp), if_pos hdigits]
    show (separated? (' ' :: text)).map _ = _
    rw [separated?_space hline hstripped]
    rfl
  have hcolon : ':' ∉ c :: more := by
    intro hmem
    exact absurd (hdecimal ':' hmem) (by decide)
  have hmacro : blockMacro? ((c :: more) ++ '.' :: ' ' :: text) = none :=
    blockMacro?_eq_none hcolon (by decide) (.inl (by decide))
  rw [hwritten] at hends ⊢
  rw [List.cons_append] at hends hitem hmacro ⊢
  refine shapeOf_of_undelimited (isBlank_of_isDecimal hc) ?_ hends
    ⟨'.', by simp, (hapart '.' (by decide)).symm⟩ ?_
  · exact fun hopener ↦ hapart c (List.mem_append_left _ hopener) rfl
  · rw [sectionTitle?_eq_none (hapart _ (by decide)), blockTitle?_eq_none_of_ne
      (hapart _ (by decide)), hmacro, admonition?_eq_none ?_,
      callout?_eq_none (hapart _ (by decide)), unordered?_eq_none (isBlank_of_isDecimal hc)
        (hapart _ (by decide)) (hapart _ (by decide)), hitem]
    · rfl
    · intro style hstyle hhead
      have hnot := hlabels style hstyle
      rw [List.headD_eq_head?_getD, hhead, Option.getD_some, hc] at hnot
      cases hnot

theorem shapeOf_label {style : Text} (hmark : (Mark.label style).IsProper) :
    shapeOf "//".toList ((Mark.label style).written ++ text) = (Mark.label style).shape text := by
  have hlabels : ∀ style ∈ admonitionStyles, style ≠ [] ∧ ':' ∉ style ∧
      isBlank (style.headD ' ') = false ∧ style.headD ' ' ∉ openers ∧ style.headD ' ' ≠ '=' ∧
      style.headD ' ' ≠ '.' := by
    decide
  obtain ⟨hstyle, hcolon, hfirst⟩ := hlabels style hmark
  have hends := trimRight_append_eq_self hsome hstripped (Mark.label style).written
  have hwritten : (Mark.label style).written ++ text = style ++ ':' :: ' ' :: text := by
    simp [Mark.written]
  have hlabel : admonition? (style ++ ':' :: ' ' :: text) = some (.admonition style text) := by
    have hcolons : ∀ c ∈ style, (c != ':') = true := by
      intro c hc
      simp only [bne_iff_ne, ne_eq]
      rintro rfl
      exact hcolon hc
    unfold admonition?
    rw [takeWhile_append_cons hcolons (by decide), dropWhile_append_cons hcolons (by decide)]
    show (if admonitionStyles.contains style then
      (separated? (' ' :: text)).map (Shape.admonition style) else none) = _
    rw [separated?_space hline hstripped]
    exact if_pos (List.contains_iff_mem.mpr hmark)
  have hmacro : blockMacro? (style ++ ':' :: ' ' :: text) = none :=
    blockMacro?_eq_none hcolon (by decide) (.inr (by decide))
  rw [hwritten] at hends ⊢
  obtain ⟨c, more, rfl⟩ := List.exists_cons_of_ne_nil hstyle
  simp only [List.headD_cons] at hfirst
  obtain ⟨hblank, hopener, hequals, hdot⟩ := hfirst
  rw [List.cons_append] at hends hlabel hmacro ⊢
  refine shapeOf_of_undelimited hblank hopener hends ⟨':', by simp, ?_⟩ ?_
  · rintro rfl
    exact hcolon List.mem_cons_self
  · rw [sectionTitle?_eq_none hequals, blockTitle?_eq_none_of_ne hdot, hmacro, hlabel]
    rfl

theorem shapeOf_caption (htakes : Mark.caption.Takes text) :
    shapeOf "//".toList (Mark.caption.written ++ text) = Mark.caption.shape text := by
  have hends := trimRight_append_eq_self hsome hstripped Mark.caption.written
  have htrimmed : trimRight text = text := trimRight_append_eq_self hsome hstripped []
  obtain ⟨c, rest, rfl⟩ := List.exists_cons_of_ne_nil hsome
  have hdot : c ≠ '.' := fun heq ↦ htakes (congrArg some heq)
  have hblank : isBlank c = false := hstripped.first c rfl
  have htitle : blockTitle? ('.' :: c :: rest) = some (.blockTitle (c :: rest)) := by
    show (if isBlank c ∨ c = '.' then none
      else (capture? (trimRight (c :: rest))).map Shape.blockTitle) = _
    rw [if_neg (by simp [hblank, hdot]), htrimmed, capture?_eq_some hline]
    rfl
  refine shapeOf_of_undelimited (by decide) (by decide) hends ⟨c, by simp, hdot⟩ ?_
  rw [sectionTitle?_eq_none (by decide)]
  change (blockTitle? ('.' :: c :: rest) <|> _) = _
  rw [htitle]
  rfl

theorem shapeOf_entry {name : Text} (hmark : (Mark.entry name).IsProper) :
    shapeOf "//".toList ((Mark.entry name).written ++ text) = (Mark.entry name).shape text := by
  obtain ⟨c, more, rfl, hword, hmore⟩ := hmark
  have hends := trimRight_append_eq_self hsome hstripped (Mark.entry (c :: more)).written
  have hwritten : (Mark.entry (c :: more)).written ++ text =
      ':' :: c :: (more ++ ':' :: ' ' :: text) := by
    simp [Mark.written]
  have hbang : bang (c :: (more ++ ':' :: ' ' :: text)) =
      ([], c :: (more ++ ':' :: ' ' :: text)) := by
    have hbang : c ≠ '!' := by
      rintro rfl
      exact absurd hword (by decide)
    unfold bang
    split
    · next heq => exact absurd (List.cons.inj heq).1 hbang
    · rfl
  have hname : name? (c :: (more ++ ':' :: ' ' :: text)) =
      some (c :: more, ':' :: ' ' :: text) := by
    rw [name?, takeWhile_append_cons hmore (by decide), dropWhile_append_cons hmore (by decide)]
    exact if_pos hword
  have hentry : documentAttribute? (':' :: c :: (more ++ ':' :: ' ' :: text)) =
      some (.attributeEntry (c :: more) text) := by
    have hvalue : entryValue? (' ' :: text) = some text := separated?_space hline hstripped
    rw [documentAttribute?, hbang]
    dsimp only
    rw [hname]
    change (do
      return Shape.attributeEntry ([] ++ (c :: more) ++ []) (← entryValue? (' ' :: text))) = _
    rw [hvalue, List.nil_append, List.append_nil]
    rfl
  rw [hwritten] at hends ⊢
  unfold shapeOf
  rw [blank?_eq_none (by decide), commentDelimiter?_eq_none (by decide) hends,
    comment?_eq_none (by decide), hentry]
  rfl

end Marked

/-- A line that is written with a mark and a text is read with them: the mark takes the text as it
is, which is a text of one line, not empty, without white space at its ends. -/
theorem classify_written (mark : Mark) (text : Text) (number : Int) (hmark : mark.IsProper)
    (htakes : mark.Takes text) (hsome : text ≠ []) (hline : '\n' ∉ text)
    (htrim : trim text = text) :
    classify "//".toList (mark.written ++ text) number =
      { shape := mark.shape text, input := mark.written ++ text, number } := by
  have hstripped : Stripped text := stripped_iff.mpr htrim
  have hshape : shapeOf "//".toList (mark.written ++ text) = mark.shape text := by
    cases mark with
    | title depth => exact shapeOf_title hsome hline hstripped hmark htakes
    | bullet depth => exact shapeOf_bullet hsome hline hstripped hmark htakes
    | hyphen => exact shapeOf_hyphen hsome hline hstripped htakes
    | dots depth => exact shapeOf_dots hsome hline hstripped hmark
    | number digits => exact shapeOf_number hsome hline hstripped hmark
    | label style => exact shapeOf_label hsome hline hstripped hmark
    | caption => exact shapeOf_caption hsome hline hstripped htakes
    | entry name => exact shapeOf_entry hsome hline hstripped hmark
  -- A carriage return is white space, so there is none at the end of the line.
  have hinput : (mark.written ++ text).dropRightWhile (· == '\r') = mark.written ++ text := by
    refine dropRightWhile_eq_self fun c hc ↦ ?_
    have hblank := isBlank_getLast?_append hsome hstripped mark.written c hc
    refine beq_eq_false_iff_ne.mpr ?_
    rintro rfl
    exact absurd hblank (by decide)
  unfold classify
  dsimp only
  rw [hinput, hshape]

/-- What an item holds may look like a box, a term or the end of a title. -/
theorem classify_written_bullet :
    let text : Text := "[y] a:: b ==".toList
    (Mark.bullet 2).IsProper ∧ (Mark.bullet 2).Takes text ∧ text ≠ [] ∧ '\n' ∉ text ∧
      trim text = text ∧
      classify "//".toList "** [y] a:: b ==".toList 7 =
        { shape := .listItem .unordered ['*', '*'] text none,
          input := "** [y] a:: b ==".toList, number := 7 } := by
  intro text
  have hmark : (Mark.bullet 2).IsProper := ⟨by decide, by decide⟩
  have htakes : (Mark.bullet 2).Takes text := by
    rintro ⟨mark, hmark, blank, rest, -, htext⟩
    have hsecond : some 'y' = some mark := congrArg (·[1]?) htext
    cases hsecond
    exact absurd hmark (by decide)
  have htrim : trim text = text := by decide
  exact ⟨hmark, htakes, by decide, by decide, htrim,
    classify_written (.bullet 2) text 7 hmark htakes (by decide) (by decide) htrim⟩

end AsciidocSpans.Line
