import AsciidocSpans.Conversion.Metadata
import AsciidocSpans.Proofs.Attributes.Entries
import AsciidocSpans.Proofs.Attributes.Lookup

/-!
Attribute lists that give attributes by name, with every value between double quotes, as they are
written for tables. If no value holds a double quote, such a list is read with the attributes it was
made from (`parse_attributeListBody`): a name holds no quotes, commas or equals signs, and what
stands between double quotes is neither cut nor taken for a name, whatever it is.
-/

set_option autoImplicit false
set_option relaxedAutoImplicit false

namespace AsciidocSpans.AttributeList

open Text

variable {name value : Text}

/-- A name of an attribute: a word character, with word characters and hyphens behind it. -/
def IsName (name : Text) : Prop :=
  ∃ first rest, name = first :: rest ∧ isWord first = true ∧ ∀ c ∈ rest, isNameChar c = true

/-- A value between double quotes. -/
def quotedValue (value : Text) : Text :=
  '"' :: value ++ ['"']

/-- An entry that gives an attribute by name. -/
def namedEntry (name value : Text) : Text :=
  name ++ '=' :: quotedValue value

section Entry

theorem isNameChar_of_mem (h : IsName name) : ∀ c ∈ name, isNameChar c = true := by
  obtain ⟨first, rest, rfl, hfirst, hrest⟩ := h
  refine List.forall_mem_cons.mpr ⟨?_, hrest⟩
  rw [isNameChar, hfirst, Bool.true_or]

/-- Names hold nothing that is no name character, such as quotes and commas. -/
theorem ne_of_mem_name (h : IsName name) {c other : Char} (hc : c ∈ name)
    (hother : isNameChar other = false) : c ≠ other := by
  rintro rfl
  rw [isNameChar_of_mem h c hc] at hother
  cases hother

theorem isQuote_of_mem_name (h : IsName name) : ∀ c ∈ name, isQuote c = false := by
  intro c hc
  rw [isQuote, beq_eq_false_iff_ne.mpr (ne_of_mem_name h hc (by decide)),
    beq_eq_false_iff_ne.mpr (ne_of_mem_name h hc (by decide)), Bool.or_false]

/-- The name and the value of an entry are what it was made from. -/
theorem nameAndValue?_namedEntry (h : IsName name) (value : Text) :
    nameAndValue? (namedEntry name value) = some (name, quotedValue value) := by
  obtain ⟨first, rest, rfl, hfirst, hrest⟩ := h
  have htake := takeWhile_append_cons hrest (show isNameChar '=' = false by decide)
    (quotedValue value)
  have hdrop := dropWhile_append_cons hrest (show isNameChar '=' = false by decide)
    (quotedValue value)
  rw [namedEntry, List.cons_append, nameAndValue?, if_pos hfirst, htake, hdrop]
  rfl

/-- Text between double quotes has no white space at its ends. -/
theorem trim_quotedValue (value : Text) : trim (quotedValue value) = quotedValue value := by
  refine trim_eq_self ?_ ?_
  · rintro c ⟨⟩
    decide
  · intro c hc
    rw [quotedValue, List.getLast?_concat] at hc
    cases hc
    decide

/-- A value loses the quotes that were put around it. -/
theorem unquote_quotedValue (value : Text) : unquote (quotedValue value) = value := by
  rw [unquote, trim_quotedValue]
  cases value with
  | nil => rfl
  | cons first rest =>
    have hlast : (first :: rest ++ ['"']).getLast? = some '"' := List.getLast?_concat
    have hinside : (first :: rest ++ ['"']).dropLast = first :: rest := List.dropLast_concat
    exact (if_pos ⟨rfl, hlast⟩).trans hinside

/-- Whatever a value is, the quote before it stays open until the next double quote. -/
theorem openBehind_of_not_mem (h : '"' ∉ value) : openBehind (some '"') value = some '"' := by
  induction value with
  | nil => rfl
  | cons c rest ih =>
    have hc : quoteBehind (some '"') c = some '"' := if_neg (List.ne_of_not_mem_cons h).symm
    rw [openBehind_cons, hc, ih (List.not_mem_of_not_mem_cons h)]

theorem unbroken_of_not_mem (h : '"' ∉ value) : Unbroken (some '"') value := by
  rintro before behind rfl
  rw [openBehind_of_not_mem (fun hmem ↦ h (List.mem_append_left _ hmem))]
  exact Option.some_ne_none _

theorem openBehind_name (h : IsName name) : openBehind none name = none :=
  openBehind_of_no_quotes isQuoteState_none (isQuote_of_mem_name h)

/-- An entry is a part of a list, whatever its value is. -/
theorem unbroken_namedEntry (hname : IsName name) (hvalue : '"' ∉ value) :
    Unbroken none (namedEntry name value) := by
  have hcommas : ',' ∉ name := fun hmem ↦ ne_of_mem_name hname hmem (by decide) rfl
  have hbehind : Unbroken none ('=' :: quotedValue value) := by
    refine unbroken_cons_iff.mpr ⟨by decide, unbroken_cons_iff.mpr ⟨by decide, ?_⟩⟩
    refine unbroken_append_iff.mpr ⟨unbroken_of_not_mem hvalue, ?_⟩
    exact unbroken_of_no_commas (by decide) _
  rw [namedEntry, unbroken_append_iff, openBehind_name hname]
  exact ⟨unbroken_of_no_commas hcommas none, hbehind⟩

/-- An entry leaves no quote open. -/
theorem openBehind_namedEntry (hname : IsName name) (hvalue : '"' ∉ value) :
    openBehind none (namedEntry name value) = none := by
  rw [namedEntry, openBehind_append, openBehind_name hname]
  change openBehind (some '"') (value ++ ['"']) = none
  rw [openBehind_append, openBehind_of_not_mem hvalue]
  rfl

/-- An entry has no white space at its ends. -/
theorem trim_namedEntry (h : IsName name) (value : Text) :
    trim (namedEntry name value) = namedEntry name value := by
  obtain ⟨first, rest, rfl, hfirst, -⟩ := h
  refine trim_eq_self ?_ ?_
  · rintro c ⟨⟩
    exact isBlank_of_isWord hfirst
  · intro c hc
    have hconcat : namedEntry (first :: rest) value =
        (first :: rest ++ '=' :: '"' :: value) ++ ['"'] := by simp [namedEntry, quotedValue]
    rw [hconcat, List.getLast?_concat] at hc
    cases hc
    decide

end Entry

section Lists

variable {pairs : List (Text × Text)}

/-- The entries of a list are the ones that it was made from. -/
theorem splitEntries_namedEntries
    (h : ∀ pair ∈ pairs, IsName pair.1 ∧ '"' ∉ pair.2) :
    splitEntries (joinWith [','] (pairs.map fun pair ↦ namedEntry pair.1 pair.2)) =
      pairs.map fun pair ↦ namedEntry pair.1 pair.2 := by
  by_cases hnone : pairs = []
  · rw [hnone]
    rfl
  have hparts : IsCut none (pairs.map fun pair ↦ namedEntry pair.1 pair.2) := by
    refine isCut_iff.mpr ⟨by simpa using hnone, ?_, ?_⟩
    · exact List.forall_mem_map.mpr fun pair hpair ↦
        unbroken_namedEntry (h pair hpair).1 (h pair hpair).2
    · intro part hpart
      obtain ⟨pair, hpair, rfl⟩ := List.mem_map.mp (List.dropLast_subset _ hpart)
      exact openBehind_namedEntry (h pair hpair).1 (h pair hpair).2
  refine splitEntries_of_isCut hparts ?_ ?_
  · exact List.forall_mem_map.mpr fun pair hpair ↦ trim_namedEntry (h pair hpair).1 pair.2
  · intro hempty
    have hmem : [] ∈ pairs.map fun pair ↦ namedEntry pair.1 pair.2 :=
      hempty ▸ List.mem_singleton_self _
    obtain ⟨pair, -, hpair⟩ := List.mem_map.mp hmem
    simp [namedEntry] at hpair

/-- Entries that give attributes by name assign these attributes in turn. -/
theorem addEntries_namedEntries (attributes : Attributes) (position : Nat)
    (h : ∀ pair ∈ pairs, IsName pair.1 ∧ isOptionsName pair.1 = false) :
    addEntries attributes position (pairs.map fun pair ↦ namedEntry pair.1 pair.2) =
      attributes.update ⟨pairs⟩ := by
  induction pairs generalizing attributes with
  | nil => rfl
  | cons pair rest ih =>
    obtain ⟨⟨hname, hoptions⟩, hrest⟩ := List.forall_mem_cons.mp h
    rw [List.map_cons, addEntries, nameAndValue?_namedEntry hname]
    dsimp only
    rw [if_neg (by rw [hoptions]; exact Bool.false_ne_true), unquote_quotedValue, ih _ hrest]
    rfl

end Lists

/-- A list that is written for attributes is read with just these attributes, in their order, if
they have distinct names, none of which lists options, and values without double quotes. -/
theorem parse_attributeListBody {attributes : Attributes} (hdistinct : attributes.Distinct)
    (hnames : ∀ pair ∈ attributes.toList, IsName pair.1 ∧ isOptionsName pair.1 = false)
    (hvalues : ∀ pair ∈ attributes.toList, '"' ∉ pair.2) :
    parse (Converter.attributeListBody attributes) = attributes := by
  obtain ⟨pairs⟩ := attributes
  have hbody : Converter.attributeListBody ⟨pairs⟩ =
      joinWith [','] (pairs.map fun pair ↦ namedEntry pair.1 pair.2) := by
    simp [Converter.attributeListBody, namedEntry, quotedValue]
  rw [parse, hbody, splitEntries_namedEntries fun pair hpair ↦
    ⟨(hnames pair hpair).1, hvalues pair hpair⟩, addEntries_namedEntries ∅ 0 hnames]
  have hfresh : ((([] : List (Text × Text)) ++ pairs).map (·.1)).Nodup := hdistinct
  exact Attributes.update_of_nodup hfresh

/-- The attributes of a table with columns and a caption that hold commas, quotes and equals
signs. -/
def tableAttributes : Attributes :=
  ⟨[("cols".toList, " 1,2".toList), ("table-caption".toList, "b='c',\n%d=".toList),
    ("3".toList, [])]⟩

/-- They are written with their values between double quotes, and read again. -/
theorem parse_attributeListBody_tableAttributes :
    tableAttributes.Distinct ∧
    (∀ pair ∈ tableAttributes.toList, IsName pair.1 ∧ isOptionsName pair.1 = false) ∧
    (∀ pair ∈ tableAttributes.toList, '"' ∉ pair.2) ∧
    Converter.attributeListBody tableAttributes =
      "cols=\" 1,2\",table-caption=\"b='c',\n%d=\",3=\"\"".toList ∧
    parse "cols=\" 1,2\",table-caption=\"b='c',\n%d=\",3=\"\"".toList = tableAttributes := by
  have hdistinct : tableAttributes.Distinct := by
    unfold Attributes.Distinct
    decide
  have hnames : ∀ pair ∈ tableAttributes.toList,
      IsName pair.1 ∧ isOptionsName pair.1 = false := by
    intro pair hpair
    simp only [tableAttributes, List.mem_cons, List.not_mem_nil, or_false] at hpair
    rcases hpair with rfl | rfl | rfl
    · exact ⟨⟨'c', "ols".toList, rfl, by decide, List.all_eq_true.mp (by decide)⟩, by decide⟩
    · exact ⟨⟨'t', "able-caption".toList, rfl, by decide, List.all_eq_true.mp (by decide)⟩,
        by decide⟩
    · exact ⟨⟨'3', [], rfl, by decide, List.forall_mem_nil _⟩, by decide⟩
  have hvalues : ∀ pair ∈ tableAttributes.toList, '"' ∉ pair.2 := by decide
  have hwritten : Converter.attributeListBody tableAttributes =
      "cols=\" 1,2\",table-caption=\"b='c',\n%d=\",3=\"\"".toList := by decide
  exact ⟨hdistinct, hnames, hvalues, hwritten,
    hwritten ▸ parse_attributeListBody hdistinct hnames hvalues⟩

end AsciidocSpans.AttributeList
