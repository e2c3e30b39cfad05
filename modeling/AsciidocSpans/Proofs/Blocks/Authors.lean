import AsciidocSpans.Proofs.Blocks.LineNumbers
import AsciidocSpans.Proofs.Blocks.Sites
import Mathlib.Data.List.Forall2

/-!
The authors on an author line. An entry of the line may end with an address in angle brackets behind
a name (`Addressed`). Where the address starts is not told by the brackets alone, because an address
may hold an opening one; it starts at the first bracket from which on an address ends the entry, so
the name is the shortest one (`Names`).

The author line is the line behind the title, if that can name authors (`authorLine?`), and every
entry of it that is not empty is an author (`ReadAs`). An entry of white space has no name; it
makes an author all the same, whose name is its last character. So the authors are those that the
entries name if no entry is white space without being empty, and only then
(`authorsRead_iff_of_ofText`).
-/

set_option autoImplicit false
set_option relaxedAutoImplicit false

namespace AsciidocSpans.Blocks

open Text

/-! ### Names and addresses -/

/-- What may stand between angle brackets as an address: something without white space and without a
closing bracket. -/
structure IsAddress (address : Text) : Prop where
  ne_nil : address ≠ []
  plain : ∀ c ∈ address, c ≠ '>' ∧ isBlank c = false

/-- An entry ends with an address in angle brackets, behind a name. There may be white space around
both. -/
structure Addressed (entry name address : Text) : Prop where
  named : name ≠ []
  stripped : Stripped name
  isAddress : IsAddress address
  written : ∃ before gap behind, allBlank before = true ∧ allBlank gap = true ∧
    allBlank behind = true ∧ entry = before ++ name ++ gap ++ '<' :: address ++ '>' :: behind

/-- An entry names an author: by what stands before its address, if it ends with one, and by all of
it otherwise. -/
inductive Names (entry : Text) : Text → Option Text → Prop
  | alone (named : trim entry ≠ []) (plain : ∀ name address, ¬ Addressed entry name address) :
      Names entry (trim entry) none
  | addressed {name address : Text} (here : Addressed entry name address)
      (shortest : ∀ other further, Addressed entry other further → name.length ≤ other.length) :
      Names entry name (some address)

/-- The name of an author is some text without white space at its ends. -/
theorem Names.stripped {entry name : Text} {email : Option Text} (h : Names entry name email) :
    name ≠ [] ∧ Stripped name := by
  cases h with
  | alone named plain => exact ⟨named, stripped_trim entry⟩
  | addressed here shortest => exact ⟨here.named, here.stripped⟩

section Brackets

variable {before text front address : Text}

/-- A text that other text stands before is split at a bracket, from which on an address ends it and
before which something stands. -/
structure SplitAt (before text front address : Text) : Prop where
  text_eq : text = front ++ '<' :: address ++ ['>']
  named : trimRight (before ++ front) ≠ []
  isAddress : IsAddress address

theorem splitAt_cons_iff {c d : Char} :
    SplitAt before (c :: text) (d :: front) address ↔
      c = d ∧ SplitAt (before ++ [c]) text front address := by
  constructor
  · rintro ⟨htext, hnamed, haddress⟩
    obtain ⟨rfl, rfl⟩ := List.cons.inj htext
    exact ⟨rfl, rfl, by rwa [List.append_assoc], haddress⟩
  · rintro ⟨rfl, htext, hnamed, haddress⟩
    rw [List.append_assoc] at hnamed
    exact ⟨congrArg (c :: ·) htext, hnamed, haddress⟩

/-- A text is split at its first character if that is a bracket and an address ends the text behind
it. -/
theorem splitAt_nil_iff {c : Char} :
    SplitAt before (c :: text) [] address ↔
      (c = '<' ∧ trimRight before ≠ [] ∧ 2 ≤ text.length ∧ text.getLast? = some '>' ∧
        text.dropLast.all (fun d ↦ d != '>' && !isBlank d) = true) ∧
        address = text.dropLast := by
  have hall : text.dropLast.all (fun d ↦ d != '>' && !isBlank d) = true ↔
      ∀ d ∈ text.dropLast, d ≠ '>' ∧ isBlank d = false := by
    simp [List.all_eq_true]
  rw [hall]
  constructor
  · rintro ⟨htext, hnamed, haddress⟩
    obtain ⟨rfl, rfl⟩ := List.cons.inj htext
    rw [List.append_nil] at hnamed
    have hlength := List.length_pos_of_ne_nil haddress.ne_nil
    simpa [hnamed, Nat.succ_le_of_lt hlength] using haddress.plain
  · rintro ⟨⟨rfl, hnamed, hlength, hlast, hplain⟩, rfl⟩
    have hne : text.dropLast ≠ [] := by
      rw [← List.length_pos_iff, List.length_dropLast]
      omega
    refine ⟨?_, by rwa [List.append_nil], hne, hplain⟩
    rw [List.nil_append, List.cons_append, List.dropLast_append_getLast? '>' hlast]

/-- A split that comes about is the one at the first bracket where the text can be split. -/
theorem splitAt_of_splitAddress? {name : Text}
    (h : splitAddress? before text = some (name, address)) :
    ∃ front, SplitAt before text front address ∧ name = trimRight (before ++ front) ∧
      ∀ other further, SplitAt before text other further → front.length ≤ other.length := by
  induction text generalizing before with
  | nil => cases h
  | cons c rest ih =>
    rw [splitAddress?] at h
    split at h
    · next hhere =>
      cases h
      exact ⟨[], splitAt_nil_iff.mpr ⟨hhere, rfl⟩, by rw [List.append_nil],
        fun _ _ _ ↦ Nat.zero_le _⟩
    · next hnot =>
      obtain ⟨front, hsplit, rfl, hfirst⟩ := ih h
      refine ⟨c :: front, splitAt_cons_iff.mpr ⟨rfl, hsplit⟩, by rw [List.append_assoc]; rfl, ?_⟩
      intro other further hother
      cases other with
      | nil => exact absurd (splitAt_nil_iff.mp hother).1 hnot
      | cons d others =>
        obtain ⟨rfl, hbehind⟩ := splitAt_cons_iff.mp hother
        exact Nat.succ_le_succ (hfirst others further hbehind)

/-- No split comes about only if the text cannot be split. -/
theorem not_splitAt_of_splitAddress? (h : splitAddress? before text = none) (front address : Text) :
    ¬ SplitAt before text front address := by
  induction text generalizing before front with
  | nil =>
    rintro ⟨htext, -, -⟩
    simp at htext
  | cons c rest ih =>
    rw [splitAddress?] at h
    split at h
    · cases h
    · next hnot =>
      intro hsplit
      cases front with
      | nil => exact hnot (splitAt_nil_iff.mp hsplit).1
      | cons d others => exact ih h others (splitAt_cons_iff.mp hsplit).2

end Brackets

/-! ### Entries -/

section Entries

variable {entry name address : Text}

/-- A split of the trimmed entry gives an address and a name. -/
theorem addressed_of_splitAt {front : Text} (h : SplitAt [] (trim entry) front address) :
    Addressed entry (trimRight front) address := by
  obtain ⟨htext, hnamed, haddress⟩ := h
  obtain ⟨before, behind, hbefore, hbehind, hentry⟩ := exists_trim entry
  obtain ⟨gap, hgap, hfront⟩ := exists_trimRight front
  have hprefix : trimRight front <+: trim entry := by
    rw [htext, List.append_assoc]
    exact (isPrefix_trimRight front).trans (List.prefix_append front _)
  refine ⟨hnamed, (stripped_trim entry).of_isPrefix hprefix (isBlank_getLast?_trimRight front),
    haddress, before, gap, behind, hbefore, hgap, hbehind, ?_⟩
  conv_lhs => rw [hentry, htext, hfront]
  simp only [List.append_assoc, List.cons_append, List.nil_append]

/-- An address behind a name is a split of the trimmed entry. -/
theorem exists_splitAt_of_addressed (h : Addressed entry name address) :
    ∃ front, SplitAt [] (trim entry) front address ∧ trimRight front = name := by
  obtain ⟨before, gap, behind, hbefore, hgap, hbehind, hentry⟩ := h.written
  have hname : trimRight (name ++ gap) = name := by
    rw [trimRight_append_of_allBlank hgap]
    exact dropRightWhile_eq_self h.stripped.last
  have hinner : Stripped (name ++ gap ++ '<' :: address ++ ['>']) := by
    constructor
    · intro c hc
      refine h.stripped.first c ?_
      rw [List.append_assoc, List.append_assoc, List.head?_append_of_ne_nil _ h.named] at hc
      exact hc
    · intro c hc
      rw [List.getLast?_concat] at hc
      cases hc
      decide
  refine ⟨name ++ gap, ⟨?_, ?_, h.isAddress⟩, hname⟩
  · rw [← trim_between hbefore hbehind hinner, hentry]
    simp only [List.append_assoc, List.cons_append, List.nil_append]
  · rw [List.nil_append, hname]
    exact h.named

/-- A bracket is no white space, so a split further on has a longer name. -/
theorem length_trimRight_le_of_splitAt {text front other further : Text}
    (h : SplitAt [] text front address) (hother : SplitAt [] text other further)
    (hle : front.length ≤ other.length) : (trimRight front).length ≤ (trimRight other).length := by
  have hfront : front ++ ['<'] <+: text := by
    rw [h.text_eq, List.append_assoc, List.cons_append]
    exact ⟨address ++ ['>'], by simp⟩
  have hprefix : other <+: text := by
    rw [hother.text_eq, List.append_assoc]
    exact List.prefix_append other _
  rcases hle.eq_or_lt with heq | hlt
  · have hsame : front = other :=
      (List.prefix_of_prefix_length_le ((List.prefix_append front _).trans hfront) hprefix
        hle).eq_of_length heq
    rw [hsame]
  · obtain ⟨more, hmore⟩ := List.prefix_of_prefix_length_le hfront hprefix
      (by rw [List.length_append]; exact hlt)
    obtain ⟨dropped, hblank, hdropped⟩ := exists_trimRight other
    by_contra hshort
    have hlong : (trimRight other).length ≤ front.length :=
      (Nat.le_of_not_le hshort).trans (isPrefix_trimRight front).length_le
    have hbracket : other[front.length]? = some '<' := by
      rw [← hmore, List.append_assoc, List.getElem?_append_right (Nat.le_refl _), Nat.sub_self]
      rfl
    rw [hdropped, List.getElem?_append_right hlong] at hbracket
    have hc := List.all_eq_true.mp hblank '<' (List.mem_of_getElem? hbracket)
    revert hc
    decide

theorem trim_ne_nil (h : allBlank entry = false) : trim entry ≠ [] := by
  obtain ⟨c, hc, -⟩ := (exists_ends_of_trim h).1
  rintro hnil
  rw [hnil] at hc
  cases hc

/-- An entry that is not blank names what is read of it. -/
theorem exists_names_of_authorParts? (h : allBlank entry = false) :
    ∃ name email, authorParts? entry = some (name, email) ∧ Names entry name email := by
  obtain ⟨c, rest, htrim⟩ := List.exists_cons_of_ne_nil (trim_ne_nil h)
  rw [authorParts?, htrim]
  dsimp only
  cases hsplit : splitAddress? [] (c :: rest) with
  | none =>
    rw [← htrim] at hsplit ⊢
    refine ⟨_, _, rfl, .alone (trim_ne_nil h) fun name address haddressed ↦ ?_⟩
    obtain ⟨front, hfront, -⟩ := exists_splitAt_of_addressed haddressed
    exact not_splitAt_of_splitAddress? hsplit front address hfront
  | some parts =>
    obtain ⟨name, address⟩ := parts
    rw [← htrim] at hsplit
    obtain ⟨front, hfront, rfl, hfirst⟩ := splitAt_of_splitAddress? hsplit
    refine ⟨_, _, rfl, .addressed (addressed_of_splitAt hfront) fun other further hother ↦ ?_⟩
    obtain ⟨longer, hlonger, rfl⟩ := exists_splitAt_of_addressed hother
    exact length_trimRight_le_of_splitAt hfront hlonger (hfirst longer further hlonger)

theorem trim_eq_nil (h : allBlank entry = true) : trim entry = [] := by
  have htrim : trim (entry ++ [] ++ []) = [] := trim_between h rfl stripped_nil
  rwa [List.append_nil, List.append_nil] at htrim

/-- What is read of an entry that is not empty: the author that it names, or, if it is nothing but
white space, an author whose name is the last character of the entry. -/
inductive ReadAs (entry : Text) : Text → Option Text → Prop
  | named {name : Text} {email : Option Text} (some : allBlank entry = false)
      (names : Names entry name email) : ReadAs entry name email
  | blank {c : Char} (blank : allBlank entry = true) (last : entry.getLast? = some c) :
      ReadAs entry [c] none

theorem ReadAs.names {email : Option Text} (h : ReadAs entry name email)
    (hsome : allBlank entry = false) : Names entry name email := by
  cases h with
  | named _ names => exact names
  | blank hblank _ =>
    rw [hsome] at hblank
    cases hblank

theorem authorParts?_nil : authorParts? [] = none :=
  rfl

theorem exists_readAs_of_authorParts? (h : entry ≠ []) :
    ∃ name email, authorParts? entry = some (name, email) ∧ ReadAs entry name email := by
  cases hblank : allBlank entry with
  | false =>
    obtain ⟨name, email, hparts, hnames⟩ := exists_names_of_authorParts? hblank
    exact ⟨name, email, hparts, .named hblank hnames⟩
  | true =>
    have hlast := List.getLast?_eq_some_getLast h
    refine ⟨_, _, ?_, .blank hblank hlast⟩
    rw [authorParts?, trim_eq_nil hblank, hlast]
    rfl

end Entries

/-! ### Author lines -/

section Lines

variable {line : Line}

/-- The entries of an author line. -/
def entriesOf (line : Line) : List Text :=
  cutAt ';' line.input

/-- The authors are those that the entries of a line name, one for each entry that is not white
space, in order. Their names are some text, without white space at the ends. -/
def AuthorsRead (line : Line) (authors : List Author) : Prop :=
  List.Forall₂ (fun entry author ↦
      author.info = { lineno := line.number } ∧ (author.name ≠ [] ∧ Stripped author.name) ∧
        Names entry author.name author.email)
    ((entriesOf line).filter fun entry ↦ !allBlank entry) authors

/-- Every entry that is not empty is an author. -/
theorem forall₂_authorsOf (line : Line) :
    List.Forall₂ (fun entry (author : Author) ↦
        author.info = { lineno := line.number } ∧ ReadAs entry author.name author.email)
      ((entriesOf line).filter fun entry ↦ !entry.isEmpty) (authorsOf line) := by
  rw [entriesOf, authorsOf]
  induction cutAt ';' line.input with
  | nil => exact .nil
  | cons entry rest ih =>
    by_cases hentry : entry = []
    · rw [hentry, List.filterMap_cons, authorParts?_nil]
      exact ih
    · obtain ⟨name, email, hparts, hread⟩ := exists_readAs_of_authorParts? hentry
      rw [List.filterMap_cons, hparts, List.filter_cons_of_pos (by simpa using hentry)]
      exact .cons ⟨rfl, hread⟩ ih

/-- The authors of a line are those that its entries name exactly if no entry is white space without
being empty. -/
theorem authorsRead_iff :
    AuthorsRead line (authorsOf line) ↔ ∀ entry ∈ entriesOf line, allBlank entry = true →
      entry = [] := by
  have hall := forall₂_authorsOf line
  constructor
  · intro hread
    have hfilter : (entriesOf line).filter (fun entry ↦ !allBlank entry) =
        ((entriesOf line).filter fun entry ↦ !entry.isEmpty).filter
          fun entry ↦ !allBlank entry := by
      rw [List.filter_filter]
      refine List.filter_congr fun entry _ ↦ ?_
      cases entry with
      | nil => rfl
      | cons c rest => simp
    have hlength : (((entriesOf line).filter fun entry ↦ !entry.isEmpty).filter
        fun entry ↦ !allBlank entry).length =
          ((entriesOf line).filter fun entry ↦ !entry.isEmpty).length := by
      rw [← hfilter, hread.length_eq, hall.length_eq]
    intro entry hentry hblank
    by_contra hne
    have hkept := List.length_filter_eq_length_iff.mp hlength entry
      (List.mem_filter.mpr ⟨hentry, by simpa using hne⟩)
    rw [hblank] at hkept
    cases hkept
  · intro hempty
    have hsame : (entriesOf line).filter (fun entry ↦ !allBlank entry) =
        (entriesOf line).filter fun entry ↦ !entry.isEmpty := by
      refine List.filter_congr fun entry hentry ↦ ?_
      by_cases hnil : entry = []
      · rw [hnil]
        rfl
      · cases hblank : allBlank entry with
        | true => exact absurd (hempty entry hentry hblank) hnil
        | false => simpa using hnil
    rw [← hsame] at hall
    have hnamed : ∀ entry ∈ (entriesOf line).filter (fun entry ↦ !allBlank entry),
        allBlank entry = false := fun entry hentry ↦ by simpa using (List.mem_filter.mp hentry).2
    refine ((List.forall₂_and_left _ _).mpr ⟨hnamed, hall⟩).imp ?_
    rintro entry author ⟨hsome, hinfo, hread⟩
    exact ⟨hinfo, (hread.names hsome).stripped, hread.names hsome⟩

end Lines

section Documents

variable {commentMarker text : Text} {document : Document} {header : Header}

/-- What stands behind a line, among lines that are numbered from one on. -/
theorem head?_of_suffix_classifyAll {texts : List Text} {line : Line} {rest : List Line}
    (h : line :: rest <:+ Line.classifyAll commentMarker 1 texts) :
    rest.head? = (texts[line.number.toNat]?).map fun text ↦
      Line.classify commentMarker text (line.number + 1) := by
  obtain ⟨front, hfront⟩ := h
  have hhere := getElem?_classifyAll commentMarker 1 texts front.length
  have hnext := getElem?_classifyAll commentMarker 1 texts (front.length + 1)
  rw [← hfront, List.getElem?_append_right (Nat.le_refl _), Nat.sub_self] at hhere
  rw [← hfront, List.getElem?_append_right (Nat.le_add_right _ 1), Nat.add_sub_cancel_left] at hnext
  obtain ⟨raw, -, hline⟩ := Option.map_eq_some_iff.mp hhere.symm
  have hnumber : line.number = 1 + front.length := by
    rw [← hline]
    rfl
  have hindex : line.number.toNat = front.length + 1 := by omega
  rw [hindex, show line.number + 1 = 1 + ((front.length + 1 : Nat) : Int) by push_cast; omega,
    ← hnext]
  cases rest <;> rfl

/-- The authors are those of the first line behind the title, if it can name authors. -/
theorem fst_authorLines (lines : List Line) :
    (authorLines lines).1 =
      ((lines.head?.filter (isHeaderText ·.shape)).map authorsOf).getD [] := by
  cases lines with
  | nil => rfl
  | cons first rest =>
    rw [authorLines.eq_def, List.head?_cons, Option.filter_some]
    dsimp only
    split
    · cases rest with
      | nil => rfl
      | cons second behind =>
        dsimp only
        split <;> rfl
    · rfl

/-- The author line of a header: the line behind the title, if it can name authors. -/
def authorLine? (commentMarker text : Text) (header : Header) : Option Line :=
  ((text.lines[header.info.lineno.toNat]?).map fun raw ↦
    Line.classify commentMarker raw (header.info.lineno + 1)).filter (isHeaderText ·.shape)

/-- The header of a document is made at a title line of the text. -/
theorem exists_headerAt_of_ofText (h : (Document.ofText commentMarker text).1 = .ok document)
    (hheader : document.header = some header) :
    ∃ metadata line title rest, header = (headerAt metadata line title rest).header ∧
      line :: rest <:+ Line.classifyAll commentMarker 1 text.lines := by
  obtain ⟨head, begun, before, behind, blocks, hbegun, hhead, -, hmade, -⟩ :=
    exists_readBlocks_of_ofText h
  rw [hheader] at hmade
  rcases (runs_readHeader_headerAt (E := fun _ ↦ True) begun).of_eq_ok hhead with
    ⟨rfl, -⟩ | ⟨metadata, line, title, rest, rfl, hlines, -, -⟩
  · cases hmade
  · cases hmade
    exact ⟨metadata, line, title, rest, rfl, hbegun ▸ hlines⟩

/-- The authors of a header are those of its author line, if it has one. -/
theorem authors_of_ofText (h : (Document.ofText commentMarker text).1 = .ok document)
    (hheader : document.header = some header) :
    header.authors = ((authorLine? commentMarker text header).map authorsOf).getD [] := by
  obtain ⟨metadata, line, title, rest, rfl, hlines⟩ := exists_headerAt_of_ofText h hheader
  have hlineno : (headerAt metadata line title rest).header.info.lineno = line.number := rfl
  rw [authorLine?, hlineno, ← head?_of_suffix_classifyAll hlines]
  exact fst_authorLines rest

/-- A header stands on a line of the text. -/
theorem one_le_lineno_header (h : (Document.ofText commentMarker text).1 = .ok document)
    (hheader : document.header = some header) : 1 ≤ header.info.lineno := by
  obtain ⟨metadata, line, title, rest, rfl, hlines⟩ := exists_headerAt_of_ofText h hheader
  exact (number_of_suffix_classifyAll hlines).1

/-- The authors of a header with an author line are one for each entry that is not empty. They are
those that the entries name, one for each that is not white space, exactly if no entry is white
space without being empty. -/
theorem authorsRead_iff_of_ofText {line : Line}
    (h : (Document.ofText commentMarker text).1 = .ok document)
    (hheader : document.header = some header)
    (hline : authorLine? commentMarker text header = some line) :
    (AuthorsRead line header.authors ↔ ∀ entry ∈ entriesOf line, allBlank entry = true →
      entry = []) ∧
    List.Forall₂ (fun entry (author : Author) ↦
        author.info = { lineno := line.number } ∧ ReadAs entry author.name author.email)
      ((entriesOf line).filter fun entry ↦ !entry.isEmpty) header.authors := by
  have hauthors := authors_of_ofText h hheader
  rw [hline] at hauthors
  rw [hauthors]
  exact ⟨authorsRead_iff, forall₂_authorsOf line⟩

/-- The author line of a text that has one, with the names and the addresses of the authors. -/
def authorLineIn (text : Text) : Option (Line × List (Text × Option Text)) := do
  let document ← (Document.ofText "//".toList text).1.toOption
  let header ← document.header
  let line ← authorLine? "//".toList text header
  return (line, header.authors.map fun author ↦ (author.name, author.email))

theorem exists_header_of_authorLineIn {line : Line} {authors : List (Text × Option Text)}
    (h : authorLineIn text = some (line, authors)) :
    ∃ document header, (Document.ofText "//".toList text).1 = .ok document ∧
      document.header = some header ∧ authorLine? "//".toList text header = some line ∧
      header.authors.map (fun author ↦ (author.name, author.email)) = authors := by
  rw [authorLineIn] at h
  cases hread : (Document.ofText "//".toList text).1 with
  | error problem =>
    rw [hread] at h
    cases h
  | ok document =>
    rw [hread] at h
    obtain ⟨_, hsame, hbehind⟩ := Option.bind_eq_some_iff.mp h
    cases hsame
    obtain ⟨header, hheader, hrest⟩ := Option.bind_eq_some_iff.mp hbehind
    obtain ⟨read, hline, heq⟩ := Option.bind_eq_some_iff.mp hrest
    cases heq
    exact ⟨document, header, rfl, hheader, hline, rfl⟩

/-- Authors with and without addresses, with an address for a name, with an opening bracket before
the address, and with an empty entry between them. -/
theorem authorsRead_variedLine :
    let text : Text := "= T\nAnn Lee <a@b> ;<x>;;B <c <d>".toList
    ∃ document header line, (Document.ofText "//".toList text).1 = .ok document ∧
      document.header = some header ∧ authorLine? "//".toList text header = some line ∧
      header.authors.map (fun author ↦ (author.name, author.email)) =
        [("Ann Lee".toList, some "a@b".toList), ("<x>".toList, none),
          ("B <c".toList, some "d".toList)] ∧
      (AuthorsRead line header.authors ↔ ∀ entry ∈ entriesOf line, allBlank entry = true →
        entry = []) ∧
      List.Forall₂ (fun entry (author : Author) ↦
          author.info = { lineno := line.number } ∧ ReadAs entry author.name author.email)
        ((entriesOf line).filter fun entry ↦ !entry.isEmpty) header.authors := by
  intro text
  obtain ⟨document, header, hread, hheader, hline, hauthors⟩ := exists_header_of_authorLineIn
    (show authorLineIn text = some (⟨.plainText "Ann Lee <a@b> ;<x>;;B <c <d>".toList,
      "Ann Lee <a@b> ;<x>;;B <c <d>".toList, 2⟩, [("Ann Lee".toList, some "a@b".toList),
        ("<x>".toList, none), ("B <c".toList, some "d".toList)]) by decide +kernel)
  exact ⟨document, header, _, hread, hheader, hline, hauthors,
    authorsRead_iff_of_ofText hread hheader hline⟩

/-- A space behind the last semicolon of an author line is read as an author. -/
theorem blank_entry_read :
    let text : Text := "= T\nA; ".toList
    ∃ document header line, (Document.ofText "//".toList text).1 = .ok document ∧
      document.header = some header ∧ authorLine? "//".toList text header = some line ∧
      entriesOf line = [['A'], [' ']] ∧
      header.authors.map (fun author ↦ (author.name, author.email)) =
        [(['A'], none), ([' '], none)] ∧
      ¬ AuthorsRead line header.authors := by
  intro text
  obtain ⟨document, header, hread, hheader, hline, hauthors⟩ := exists_header_of_authorLineIn
    (show authorLineIn text = some (⟨.plainText "A;".toList, "A; ".toList, 2⟩,
      [(['A'], none), ([' '], none)]) by decide +kernel)
  refine ⟨document, header, _, hread, hheader, hline, rfl, hauthors, fun hauthorsRead ↦ ?_⟩
  have hlength := congrArg List.length hauthors
  rw [List.length_map, ← hauthorsRead.length_eq] at hlength
  revert hlength
  decide +kernel

end Documents

end AsciidocSpans.Blocks
