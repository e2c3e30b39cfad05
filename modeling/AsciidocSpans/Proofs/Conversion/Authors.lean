import AsciidocSpans.Proofs.Blocks.Authors
import AsciidocSpans.Proofs.Conversion.Images

/-!
Where the authors of a header are located. Names and addresses stand on the author line one behind
the other (`LaidFrom`, `laidFrom_authorsOf`), and each of them is looked for behind the one before
it. What is found may be an earlier occurrence than the one that was meant, since names may stand in
one another and in addresses. But a search that starts no later than where the next text stands ends
no later than the text does, and so it goes on to the end of the line
(`succeeds_convertAuthors_onLine`).

So all authors are located on the author line, with their names and their addresses, one behind the
other (`authorsLocated_of_ofText`).
-/

set_option autoImplicit false
set_option relaxedAutoImplicit false

namespace AsciidocSpans

open Text Blocks

/-! ### Texts on a line -/

/-- The name of an author, and the address if there is one. -/
def Author.texts (author : Author) : List Text :=
  author.name :: author.email.toList

/-- Texts that are not empty stand on a line one behind the other, from a column on. -/
def LaidFrom (line : Text) : Nat → List Text → Prop
  | _, [] => True
  | start, part :: rest => part ≠ [] ∧ ∃ column, start ≤ column ∧ OccursAt part line column ∧
      LaidFrom line (column + part.length) rest

section LaidFrom

variable {line : Text} {start first : Nat} {parts others : List Text}

theorem LaidFrom.mono (h : LaidFrom line start parts) (hle : first ≤ start) :
    LaidFrom line first parts := by
  cases parts with
  | nil => trivial
  | cons part rest =>
    obtain ⟨hpart, column, hstart, hoccurs, hrest⟩ := h
    exact ⟨hpart, column, hle.trans hstart, hoccurs, hrest⟩

/-- Texts on a part of a line, and behind it further texts. -/
theorem LaidFrom.append {before part behind : Text} (hline : line = before ++ part ++ behind)
    (h : LaidFrom part start parts) (hstart : start ≤ part.length)
    (hothers : LaidFrom line (before.length + part.length) others) :
    LaidFrom line (before.length + start) (parts ++ others) := by
  induction parts generalizing start with
  | nil => exact hothers.mono (Nat.add_le_add_left hstart _)
  | cons text rest ih =>
    obtain ⟨htext, column, hle, hoccurs, hrest⟩ := h
    have hend : column + text.length ≤ part.length := by
      have hlength := hoccurs.2.length_le
      rw [List.length_drop] at hlength
      have hcolumn := hoccurs.1
      omega
    refine ⟨htext, before.length + column, Nat.add_le_add_left hle _, ⟨?_, ?_⟩, ?_⟩
    · rw [hline]
      simp only [List.length_append]
      omega
    · rw [hline, List.append_assoc, ← List.drop_drop, List.drop_left,
        List.drop_append_of_le_length hoccurs.1]
      exact hoccurs.2.trans (List.prefix_append _ _)
    · rw [Nat.add_assoc]
      exact ih hrest hend

/-- What is read of an entry stands in the entry. -/
theorem laidFrom_of_readAs {entry name : Text} {email : Option Text}
    (h : ReadAs entry name email) : LaidFrom entry 0 (name :: email.toList) := by
  cases h with
  | blank hblank hlast =>
    obtain ⟨before, rfl⟩ := List.getLast?_eq_some_iff.mp hlast
    exact ⟨List.cons_ne_nil _ _, before.length, Nat.zero_le _, ⟨by simp, by simp⟩, trivial⟩
  | named hsome hnames =>
    cases hnames with
    | alone hnamed hplain =>
      obtain ⟨before, behind, -, -, hentry⟩ := exists_trim entry
      refine ⟨hnamed, before.length, Nat.zero_le _, ⟨?_, ?_⟩, trivial⟩
      · rw [hentry]
        simp
      · conv_rhs => rw [hentry, List.append_assoc, List.drop_left]
        exact List.prefix_append _ _
    | addressed here shortest =>
      rename_i address
      obtain ⟨before, gap, behind, -, -, -, hentry⟩ := here.written
      refine ⟨here.named, before.length, Nat.zero_le _, ⟨?_, ?_⟩, here.isAddress.ne_nil,
        (before ++ name ++ gap ++ ['<']).length, ?_, ⟨?_, ?_⟩, trivial⟩
      · rw [hentry]
        simp
      · rw [hentry]
        simp only [List.append_assoc, List.drop_left]
        exact List.prefix_append _ _
      · simp only [List.length_append]
        omega
      · rw [hentry]
        simp
      · have hsplit : entry = (before ++ name ++ gap ++ ['<']) ++ (address ++ '>' :: behind) := by
          rw [hentry]
          simp
        rw [hsplit, List.drop_left]
        exact List.prefix_append _ _

/-- The authors of some entries stand one behind the other where the entries do. -/
theorem laidFrom_entries {entries : List Text} {before behind : Text} {info : ElementInfo}
    (hline : line = before ++ joinWith [';'] entries ++ behind) :
    LaidFrom line before.length ((entries.filterMap fun entry ↦ (authorParts? entry).map
      fun (name, email) ↦ Author.mk info name email).flatMap Author.texts) := by
  induction entries generalizing before with
  | nil => trivial
  | cons entry rest ih =>
    -- The texts of the later entries, which stand further on if there are any.
    have hrest : LaidFrom line (before.length + entry.length)
        ((rest.filterMap fun entry ↦ (authorParts? entry).map
          fun (name, email) ↦ Author.mk info name email).flatMap Author.texts) := by
      cases hcase : rest with
      | nil => trivial
      | cons next others =>
        rw [← hcase]
        have hne : rest ≠ [] := hcase ▸ List.cons_ne_nil next others
        have hbehind : line = (before ++ entry ++ [';']) ++ joinWith [';'] rest ++ behind := by
          rw [hline, joinWith_cons _ _ hne]
          simp
        exact (ih hbehind).mono (by simp)
    have hhere : ∃ after, line = before ++ entry ++ after := by
      cases rest with
      | nil => exact ⟨behind, hline⟩
      | cons next others =>
        rw [joinWith_cons _ _ (List.cons_ne_nil _ _)] at hline
        exact ⟨[';'] ++ joinWith [';'] (next :: others) ++ behind, by rw [hline]; simp⟩
    obtain ⟨after, hafter⟩ := hhere
    by_cases hentry : entry = []
    · rw [hentry, List.filterMap_cons, authorParts?_nil]
      exact hrest.mono (Nat.le_add_right _ _)
    · obtain ⟨name, email, hparts, hread⟩ := exists_readAs_of_authorParts? hentry
      rw [List.filterMap_cons, hparts]
      exact (laidFrom_of_readAs hread).append hafter (Nat.zero_le _) hrest

/-- The authors of a line stand on the line one behind the other. -/
theorem laidFrom_authorsOf {line : Line} {raw : Text} (h : line.input <+: raw) :
    LaidFrom raw 0 ((authorsOf line).flatMap Author.texts) := by
  obtain ⟨behind, hraw⟩ := h
  have hline : raw = [] ++ joinWith [';'] (cutAt ';' line.input) ++ behind := by
    rw [joinWith_cutAt, List.nil_append, hraw]
  exact laidFrom_entries hline

end LaidFrom

namespace Converter

/-! ### Authors that are located -/

/-- A node shows its text at a column of a line, which is not before a given one. -/
structure ShownFrom (index : Nat) (line : Text) (first : Nat) (node : Node) : Prop where
  some : node.raw ≠ []
  place : ∃ column : Nat, first ≤ column ∧ OccursAt node.raw line column ∧
    node.location = valueSpan (index + 1) column node.raw

/-- One node ends before another one starts. -/
def EndsBeforeStart (first second : Node) : Prop :=
  first.location.stop ≤ second.location.start

/-- The children of an author's node show the name and the address of the author. -/
structure ShowsAuthor (author : Author) (node : Node) : Prop where
  kind : node.kind = .author
  parts : node.children.map (fun child ↦ (child.kind, child.raw)) =
    (.authorName, author.name) :: author.email.toList.map (.authorEmail, ·)

section Searches

variable {settings : Settings} {text : Text} {index place : Nat} {line : Text}

theorem ShownFrom.mono {first start : Nat} {node : Node} (h : ShownFrom index line start node)
    (hle : first ≤ start) : ShownFrom index line first node := by
  obtain ⟨hsome, column, hcolumn, hplace⟩ := h
  exact ⟨hsome, column, hle.trans hcolumn, hplace⟩

/-- Text that stands on a line is found by a search of the line that starts no later, and what is
found ends no later than the text. -/
theorem succeeds_convertText?_onLine (kind : NodeKind) {value : Text} {first : Nat}
    (hline : text.lines[index]? = some line)
    (hkept : (ofText settings.loosen text).locator.skips false line = false) (hvalue : value ≠ [])
    (hfirst : first ≤ place) (hoccurs : OccursAt value line place) :
    Succeeds ((ofText settings.loosen text).convertText? kind value
        { minLine := index + 1, maxLine := index + 1, startColumn := first }) fun result ↦
      ∃ node, ∃ stop : Nat, result = some node ∧ node.kind = kind ∧ node.raw = value ∧
        ShownFrom index line first node ∧ node.location.stop = ⟨index + 1, stop⟩ ∧
        first ≤ stop ∧ stop ≤ place + value.length := by
  -- The first occurrence may be an earlier one, but it cannot be a later one.
  obtain ⟨column, hcolumn, hle, hplace⟩ := exists_column?_le hfirst hoccurs.1 hoccurs.2
  have hleast := (column?_eq_some_iff_isLeast (Int.natCast_nonneg first)).mp hcolumn
  have hfound : (ofText settings.loosen text).locator.find? false [value]
      { minLine := index + 1, maxLine := index + 1, startColumn := first } =
        some (valueSpan (index + 1) column value) := by
    rw [Locator.find?_onLine hline hkept, hcolumn]
    rfl
  obtain ⟨range, hnode⟩ := exists_aroundText (Locator.hasSpan_of_find? hfound) kind value
  rw [convertText?]
  refine (succeeds_find false [value] _).bind fun found heq ↦ ?_
  rw [heq, hfound]
  refine (succeeds_assembled ⟨_, hnode, rfl⟩).bind fun node hmade ↦ succeeds_pure ?_
  subst hmade
  exact ⟨_, column + value.length, rfl, rfl, rfl,
    ⟨hvalue, column, hle, hleast.1.2, rfl⟩, rfl, by omega, by omega⟩

end Searches

section Runs

variable {settings : Settings} {text : Text} {index first middle start stop : Nat} {line : Text}
  {nodes others : List Node}

/-- Nodes show their texts on a line between two columns, one behind the other. -/
structure ShownBetween (index : Nat) (line : Text) (first stop : Nat) (nodes : List Node) :
    Prop where
  shown : ∀ node ∈ nodes, ShownFrom index line first node
  ends : ∀ node ∈ nodes, node.location.stop ≤ ⟨index + 1, stop⟩
  inTurn : nodes.Pairwise EndsBeforeStart

theorem shownBetween_nil : ShownBetween index line first stop [] :=
  ⟨List.forall_mem_nil _, List.forall_mem_nil _, .nil⟩

theorem shownBetween_singleton {node : Node} (h : ShownFrom index line first node)
    (hstop : node.location.stop = ⟨index + 1, stop⟩) :
    ShownBetween index line first stop [node] := by
  refine ⟨?_, ?_, List.pairwise_singleton _ _⟩ <;> simp [h, hstop, Position.le_iff]

theorem ShownFrom.le_start {node : Node} (h : ShownFrom index line first node) :
    (⟨index + 1, first⟩ : Position) ≤ node.location.start := by
  obtain ⟨-, column, hcolumn, -, hlocation⟩ := h
  rw [hlocation, Position.le_iff]
  exact .inr ⟨rfl, Int.ofNat_le.mpr hcolumn⟩

theorem ShownBetween.append (h : ShownBetween index line first middle nodes)
    (hothers : ShownBetween index line middle stop others) (hfirst : first ≤ middle)
    (hstop : middle ≤ stop) : ShownBetween index line first stop (nodes ++ others) where
  shown node hnode := by
    rcases List.mem_append.mp hnode with hmem | hmem
    · exact h.shown node hmem
    · exact (hothers.shown node hmem).mono hfirst
  ends node hnode := by
    rcases List.mem_append.mp hnode with hmem | hmem
    · exact Position.le_trans (h.ends node hmem)
        (Position.le_iff.mpr (.inr ⟨rfl, Int.ofNat_le.mpr hstop⟩))
    · exact hothers.ends node hmem
  inTurn := List.pairwise_append.mpr ⟨h.inTurn, hothers.inTurn, fun a ha b hb ↦
    Position.le_trans (h.ends a ha) (hothers.shown b hb).le_start⟩

/-- The name of an author and the address are located one behind the other, from a column on up to
another one, from which on the texts behind them still stand. -/
theorem succeeds_convertAuthorParts_onLine {author : Author} {further : List Text}
    (hline : text.lines[index]? = some line)
    (hkept : (ofText settings.loosen text).locator.skips false line = false)
    (hlineno : author.info.lineno = index + 1) (hfirst : first ≤ start)
    (hlaid : LaidFrom line start (author.texts ++ further)) :
    Succeeds ((ofText settings.loosen text).convertAuthorParts author first) fun parts ↦
      parts.map (fun child ↦ (child.kind, child.raw)) =
        (.authorName, author.name) :: author.email.toList.map (.authorEmail, ·) ∧
      ∃ last, ∃ stop : Nat, parts.getLast? = some last ∧ last.location.stop = ⟨index + 1, stop⟩ ∧
        first ≤ stop ∧ ShownBetween index line first stop parts ∧ LaidFrom line stop further := by
  obtain ⟨info, name, email⟩ := author
  dsimp only at hlineno
  obtain ⟨hname, place, hplace, hoccurs, hbehind⟩ := hlaid
  rw [convertAuthorParts]
  dsimp only
  rw [hlineno]
  refine (succeeds_convertText?_onLine .authorName hline hkept hname (hfirst.trans hplace)
    hoccurs).bind ?_
  rintro _ ⟨node, nameStop, rfl, hkind, hraw, hshown, hstop, hforward, hle⟩
  have hnode := shownBetween_singleton hshown hstop
  cases email with
  | none =>
    exact succeeds_pure ⟨by simp [hkind, hraw], node, nameStop, rfl, hstop, hforward, hnode,
      hbehind.mono hle⟩
  | some address =>
    obtain ⟨haddress, further, hfurther, hinside, hrest⟩ := hbehind
    obtain ⟨c, rest, rfl⟩ := List.exists_cons_of_ne_nil haddress
    have hcolumn : node.location.stop.column = nameStop := by rw [hstop]
    dsimp only [Window.fromColumn]
    rw [hcolumn]
    refine (succeeds_convertText?_onLine .authorEmail hline hkept haddress
      (hle.trans hfurther) hinside).bind ?_
    rintro _ ⟨email, emailStop, rfl, hemailKind, hemailRaw, hemailShown, hemailStop, honward,
      hemailLe⟩
    have hemail := shownBetween_singleton hemailShown hemailStop
    exact succeeds_pure ⟨by simp [hkind, hraw, hemailKind, hemailRaw], email, emailStop, rfl,
      hemailStop, hforward.trans honward, hnode.append hemail hforward honward,
      hrest.mono hemailLe⟩

/-- Authors that stand on a line are located one behind the other, none of them left out. -/
theorem succeeds_convertAuthors_onLine {authors : List Author}
    (hline : text.lines[index]? = some line)
    (hkept : (ofText settings.loosen text).locator.skips false line = false)
    (hlineno : ∀ author ∈ authors, author.info.lineno = index + 1)
    (hlaid : LaidFrom line first (authors.flatMap Author.texts)) :
    Succeeds ((ofText settings.loosen text).convertAuthors first authors) fun nodes ↦
      List.Forall₂ ShowsAuthor authors nodes ∧
        ∃ stop, first ≤ stop ∧ ShownBetween index line first stop (nodes.flatMap (·.children)) := by
  induction authors generalizing first with
  | nil => exact succeeds_pure ⟨.nil, first, Nat.le_refl _, shownBetween_nil⟩
  | cons author rest ih =>
    rw [convertAuthors]
    refine ((succeeds_convertAuthorParts_onLine hline hkept (hlineno author List.mem_cons_self)
      (Nat.le_refl _) hlaid).and (yields_convertAuthorParts _ _)).bind ?_
    rintro parts ⟨⟨hparts, last, middle, hlast, hstop, hmiddle, hshown, hrest⟩, hspans⟩
    have hne : parts ≠ [] := by
      rintro rfl
      cases hlast
    obtain ⟨location, range, hnode, -⟩ :=
      exists_around hne (fun child hchild ↦ hasSpan_of_built (hspans child hchild).1) .author []
    have hcolumn : last.location.stop.column = middle := by rw [hstop]
    rw [hlast]
    dsimp only
    rw [hcolumn]
    refine (succeeds_assembled ⟨_, hnode, rfl⟩).bind fun node hmade ↦ ?_
    subst hmade
    refine (ih (fun other hother ↦ hlineno other (List.mem_cons_of_mem _ hother)) hrest).bind ?_
    rintro others ⟨hothers, stop, hforward, hbehind⟩
    refine succeeds_pure ⟨.cons ⟨rfl, hparts⟩ hothers, stop, hmiddle.trans hforward, ?_⟩
    rw [List.flatMap_cons]
    exact hshown.append hbehind hmiddle hforward

end Runs

/-! ### The authors of a header -/

section Headers

variable {settings : Settings} {text : Text} {document : Document} {header : Header}

/-- The authors of a header are located, none of them left out. Their names and their addresses
stand on the line behind the title, and each of them ends before the next one starts. -/
structure AuthorsLocated (text : Text) (header : Header) (nodes : List Node) : Prop where
  shown : List.Forall₂ ShowsAuthor header.authors nodes
  placed : ∀ child ∈ nodes.flatMap (·.children), ∃ line,
    text.lines[header.info.lineno.toNat]? = some line ∧
      ShownFrom header.info.lineno.toNat line 0 child
  inTurn : (nodes.flatMap (·.children)).Pairwise EndsBeforeStart

/-- A line that can name authors is no comment. -/
theorem isPassedOver_of_isHeaderText {shape : Line.Shape} (h : isHeaderText shape = true) :
    shape.isPassedOver = false := by
  cases shape with
  | plainText _ => rfl
  | term _ _ _ => rfl
  | _ => cases h

/-- The author line of a header is a line of the text, and no comment. -/
theorem exists_of_authorLine? {line : Line} {marker : Text} (hmarker : '\r' ∉ marker)
    (h : authorLine? marker text header = some line) :
    ∃ raw, text.lines[header.info.lineno.toNat]? = some raw ∧ ¬ marker <+: raw ∧
      line.input <+: raw ∧ line.number = header.info.lineno + 1 := by
  rw [authorLine?, Option.filter_eq_some_iff, Option.map_eq_some_iff] at h
  obtain ⟨⟨raw, hraw, rfl⟩, htext⟩ := h
  exact ⟨raw, hraw,
    Line.not_isPrefix_of_not_isPassedOver hmarker (isPassedOver_of_isHeaderText htext),
    isPrefix_dropRightWhile _ raw, rfl⟩

theorem lineno_of_mem_authorsOf {line : Line} {author : Author} (h : author ∈ authorsOf line) :
    author.info.lineno = line.number := by
  obtain ⟨entry, -, hentry⟩ := List.mem_filterMap.mp h
  obtain ⟨parts, -, rfl⟩ := Option.map_eq_some_iff.mp hentry
  rfl

/-- The authors of every header are located on the author line one behind the other. -/
theorem authorsLocated_of_ofText (hmarker : '\r' ∉ settings.commentMarker)
    (h : (Document.ofText settings.commentMarker text).1 = .ok document)
    (hheader : document.header = some header) :
    Succeeds ((ofText settings.loosen text).convertAuthors 0 header.authors)
      (AuthorsLocated text header) := by
  have hauthors := authors_of_ofText h hheader
  cases hline : authorLine? settings.commentMarker text header with
  | none =>
    rw [hline] at hauthors
    rw [show header.authors = [] from hauthors]
    exact succeeds_pure ⟨hauthors ▸ .nil, List.forall_mem_nil _, .nil⟩
  | some line =>
    rw [hline] at hauthors
    obtain ⟨raw, hraw, hkept, hinput, hnumber⟩ := exists_of_authorLine? hmarker hline
    have hindex : line.number = header.info.lineno.toNat + 1 := by
      have := one_le_lineno_header h hheader
      omega
    have hsame : header.authors = authorsOf line := hauthors
    have hlaid : LaidFrom raw 0 (header.authors.flatMap Author.texts) :=
      hsame ▸ laidFrom_authorsOf hinput
    refine (succeeds_convertAuthors_onLine hraw
      (skips_of_not_isPrefix (Settings.marker?_loosen settings) hkept false)
      (fun author hauthor ↦ ?_) hlaid).mono ?_
    · rw [hsame] at hauthor
      rw [lineno_of_mem_authorsOf hauthor, hindex]
    · rintro nodes ⟨hshown, stop, -, hbetween⟩
      exact ⟨hshown, fun child hchild ↦ ⟨raw, hraw, hbetween.shown child hchild⟩,
        hbetween.inTurn⟩

/-- Authors who share names, and whose addresses hold names. -/
theorem authorsLocated_sharedNames :
    let text : Text := "= T\nA A <A>;A; B A <B>".toList
    '\r' ∉ Settings.default.commentMarker ∧
      ∃ document header, (Document.ofText Settings.default.commentMarker text).1 = .ok document ∧
        document.header = some header ∧
        header.authors.map (fun author ↦ (author.name, author.email)) =
          [("A A".toList, some "A".toList), ("A".toList, none), ("B A".toList, some "B".toList)] ∧
        Succeeds ((ofText Settings.default.loosen text).convertAuthors 0 header.authors)
          (AuthorsLocated text header) := by
  intro text
  have hmarker : '\r' ∉ Settings.default.commentMarker := by decide
  obtain ⟨document, header, hread, hheader, -, hauthors⟩ := exists_header_of_authorLineIn
    (show authorLineIn text = some (⟨.plainText "A A <A>;A; B A <B>".toList,
      "A A <A>;A; B A <B>".toList, 2⟩, [("A A".toList, some "A".toList), ("A".toList, none),
        ("B A".toList, some "B".toList)]) by decide +kernel)
  exact ⟨hmarker, document, header, hread, hheader, hauthors,
    authorsLocated_of_ofText hmarker hread hheader⟩

end Headers

end Converter

end AsciidocSpans
