import AsciidocSpans.Proofs.Attributes.Entries
import AsciidocSpans.Proofs.Attributes.Lookup

/-!
Styles with shorthands. Behind a style stand any number of ids, roles and options, each of them a
name behind its marker (`Shorthand`, `writeShorthands`). If the names hold none of the characters
that mean something in an attribute list, a list of that one entry is read with the entry as it is,
the style, the last one of the ids, all roles, and the distinct options with a flag for each, in
this order and with nothing else (`parse_writeShorthands`).

Options are recorded one by one, and one that is recorded already changes nothing; so the options
that are recorded are the distinct ones in the order of their first occurrence
(`mergeOptions_eq`), and so are the flags (`foldl_flags`).
-/

set_option autoImplicit false
set_option relaxedAutoImplicit false

namespace AsciidocSpans.AttributeList

open Text

variable {style text entry : Text}

/-! ### Shorthands as they are written -/

/-- A shorthand behind a style. -/
inductive Shorthand where
  | id (name : Text)
  | role (name : Text)
  | option (name : Text)

namespace Shorthand

/-- The character that a shorthand starts with. -/
def marker : Shorthand → Char
  | id _ => '#'
  | role _ => '.'
  | option _ => '%'

/-- The name behind the marker. -/
def name : Shorthand → Text
  | id name | role name | option name => name

/-- What a shorthand is written as. -/
def written (item : Shorthand) : Text :=
  item.marker :: item.name

/-- The name that a shorthand gives as an id. -/
def id? : Shorthand → Option Text
  | id name => some name
  | _ => none

/-- The name that a shorthand gives as a role. -/
def role? : Shorthand → Option Text
  | role name => some name
  | _ => none

/-- The name that a shorthand gives as an option. -/
def option? : Shorthand → Option Text
  | option name => some name
  | _ => none

end Shorthand

variable {items : List Shorthand}

/-- An entry with a style and shorthands behind it. -/
def writeShorthands (style : Text) (items : List Shorthand) : Text :=
  style ++ items.flatMap Shorthand.written

/-- A name is not empty and holds no markers, commas, equals signs, quotes or white space. -/
structure IsPlainName (name : Text) : Prop where
  ne_nil : name ≠ []
  plain : ∀ c ∈ name, isShorthand c = false ∧ c ≠ ',' ∧ c ≠ '=' ∧ isQuote c = false ∧
    isBlank c = false

instance (name : Text) : Decidable (IsPlainName name) :=
  decidable_of_iff (name ≠ [] ∧ name.all (fun c ↦ isShorthand c = false ∧ c ≠ ',' ∧ c ≠ '=' ∧
    isQuote c = false ∧ isBlank c = false) = true)
    ⟨fun h ↦ ⟨h.1, fun c hc ↦ of_decide_eq_true (List.all_eq_true.mp h.2 c hc)⟩,
      fun h ↦ ⟨h.ne_nil, List.all_eq_true.mpr fun c hc ↦ decide_eq_true (h.plain c hc)⟩⟩

/-- The flag of an option. -/
def optionFlag (option : Text) : Text × Text :=
  (option ++ "-option".toList, [])

/-- What a style with shorthands gives apart from options: the entry as it is, the style, the last
one of the ids and all roles. -/
def styleAttributes (style : Text) (items : List Shorthand) : List (Text × Text) :=
  let roles := items.filterMap Shorthand.role?
  [("1".toList, writeShorthands style items), ("style".toList, style)] ++
    ((items.filterMap Shorthand.id?).getLast?.map fun id ↦ ("id".toList, id)).toList ++
    if roles = [] then [] else [("role".toList, joinWith [' '] roles)]

/-- What the options behind a style give: a flag for each, and the list of them. -/
def optionAttributes (options : List Text) : List (Text × Text) :=
  options.map optionFlag ++
    if options = [] then [] else [("options".toList, joinWith [','] options)]

/-- The names that are given apart from options. -/
def styleNames : List Text :=
  ["1".toList, "style".toList, "id".toList, "role".toList]

/-! ### Reading shorthands -/

section Reading

/-- A text without white space is not changed by trimming. -/
theorem trim_of_no_blanks (h : ∀ c ∈ entry, isBlank c = false) : trim entry = entry :=
  trim_eq_self (fun c hc ↦ h c (List.mem_of_mem_head? hc))
    fun c hc ↦ h c (List.mem_of_mem_getLast? hc)

theorem isShorthand_marker (item : Shorthand) : isShorthand item.marker = true := by
  cases item <;> rfl

theorem IsPlainName.isShorthand_eq_false (h : IsPlainName text) :
    ∀ c ∈ text, (!isShorthand c) = true := by
  intro c hc
  rw [(h.plain c hc).1]
  rfl

/-- Shorthands start with a marker, if there are any. -/
theorem takeWhile_written (items : List Shorthand) :
    (items.flatMap Shorthand.written).takeWhile (!isShorthand ·) = [] := by
  cases items with
  | nil => rfl
  | cons item rest =>
    rw [List.flatMap_cons, Shorthand.written, List.cons_append,
      List.takeWhile_cons_of_neg (by rw [isShorthand_marker]; exact Bool.false_ne_true)]

theorem takeWhile_name_append (h : IsPlainName text) (items : List Shorthand) :
    (text ++ items.flatMap Shorthand.written).takeWhile (!isShorthand ·) = text := by
  rw [List.takeWhile_append_of_pos h.isShorthand_eq_false, takeWhile_written, List.append_nil]

theorem dropWhile_name_append (h : IsPlainName text) (items : List Shorthand) :
    (text ++ items.flatMap Shorthand.written).dropWhile (!isShorthand ·) =
      items.flatMap Shorthand.written := by
  rw [List.dropWhile_append_of_pos h.isShorthand_eq_false]
  have hsplit :=
    (items.flatMap Shorthand.written).takeWhile_append_dropWhile (p := (!isShorthand ·))
  rwa [takeWhile_written, List.nil_append] at hsplit

/-- No shorthand stands inside a name. -/
theorem shorthands_name_append (h : IsPlainName text) (rest : Text) :
    shorthands (text ++ rest) = shorthands rest := by
  have hplain := h.isShorthand_eq_false
  clear h
  induction text with
  | nil => rfl
  | cons c more ih =>
    obtain ⟨hc, hmore⟩ := List.forall_mem_cons.mp hplain
    rw [List.cons_append, shorthands, if_neg (by simpa using hc), ih hmore]

/-- Shorthands are read as they are written: each marker with the name behind it. -/
theorem shorthands_written (h : ∀ item ∈ items, IsPlainName item.name) :
    shorthands (items.flatMap Shorthand.written) =
      items.map fun item ↦ (item.marker, item.name) := by
  induction items with
  | nil => rfl
  | cons item rest ih =>
    obtain ⟨hitem, hrest⟩ := List.forall_mem_cons.mp h
    rw [List.flatMap_cons, Shorthand.written, List.cons_append, shorthands,
      if_pos (isShorthand_marker item), takeWhile_name_append hitem, shorthands_name_append hitem,
      ih hrest]
    rfl

/-- The names behind a marker are those of the shorthands that have this marker. -/
theorem shorthandNames_written (marker : Char) (pick : Shorthand → Option Text)
    (hpick : ∀ item, pick item = if item.marker = marker then some item.name else none)
    (h : ∀ item ∈ items, IsPlainName item.name) :
    shorthandNames marker (items.map fun item ↦ (item.marker, item.name)) =
      items.filterMap pick := by
  induction items with
  | nil => rfl
  | cons item rest ih =>
    obtain ⟨hitem, hrest⟩ := List.forall_mem_cons.mp h
    have hnames := ih hrest
    rw [shorthandNames] at hnames ⊢
    rw [List.map_cons, List.filterMap_cons, List.filterMap_cons, hnames, hpick]
    by_cases hmarker : item.marker = marker
    · rw [if_pos ⟨hmarker, hitem.ne_nil⟩, if_pos hmarker]
    · rw [if_neg fun hboth ↦ hmarker hboth.1, if_neg hmarker]

end Reading

/-! ### Recording options -/

section Options

theorem mergeOptions_cons (known : List Text) (option : Text) (rest : List Text) :
    mergeOptions known (option :: rest) =
      mergeOptions (if known.contains option then known else known ++ [option]) rest :=
  rfl

/-- Options are added to those that are known, each at its first occurrence. -/
theorem mergeOptions_eq (known options : List Text) :
    mergeOptions known options = known ++ (options.filter (!known.contains ·)).eraseDups := by
  induction options generalizing known with
  | nil => simp [mergeOptions]
  | cons option rest ih =>
    rw [mergeOptions_cons, ih]
    by_cases hknown : known.contains option = true
    · rw [if_pos hknown, List.filter_cons_of_neg (by simpa using hknown)]
    · have hothers : rest.filter (fun other ↦ !(known ++ [option]).contains other) =
          (rest.filter (!known.contains ·)).filter (!· == option) := by
        rw [List.filter_filter]
        refine List.filter_congr fun other _ ↦ ?_
        by_cases heq : other = option <;> simp [heq]
      rw [if_neg hknown, List.filter_cons_of_pos (by simpa using hknown), List.eraseDups_cons,
        hothers, List.append_assoc]
      rfl

theorem mergeOptions_nil (options : List Text) : mergeOptions [] options = options.eraseDups := by
  have hall : options.filter (!([] : List Text).contains ·) = options :=
    List.filter_eq_self.mpr fun _ _ ↦ rfl
  rw [mergeOptions_eq, hall, List.nil_append]

theorem lookup_flags {option : Text} {known : List Text} (h : option ∈ known) :
    (known.map optionFlag).lookup (optionFlag option).1 = some [] := by
  induction known with
  | nil => cases h
  | cons first rest ih =>
    rw [List.map_cons, optionFlag, List.lookup_cons]
    split
    · rfl
    · next hne =>
      rcases List.mem_cons.mp h with rfl | hrest
      · simp [optionFlag] at hne
      · exact ih hrest

/-- Recording flags one by one gives a flag for each of the options, once. -/
theorem foldl_flags {pairs : List (Text × Text)} (known options : List Text)
    (hpairs : ∀ option, (optionFlag option).1 ∉ pairs.map (·.1)) :
    options.foldl (fun result option ↦ result.insert (optionFlag option).1 [])
        (⟨pairs ++ known.map optionFlag⟩ : Attributes) =
      ⟨pairs ++ (mergeOptions known options).map optionFlag⟩ := by
  induction options generalizing known with
  | nil => rfl
  | cons option rest ih =>
    have hinsert : (⟨pairs ++ known.map optionFlag⟩ : Attributes).insert (optionFlag option).1 [] =
        ⟨pairs ++ (if known.contains option then known else known ++ [option]).map optionFlag⟩ := by
      split
      · next hknown =>
        refine congrArg Attributes.mk (Attributes.insertPair_of_lookup ?_)
        rw [List.lookup_append, Attributes.lookup_of_not_mem (hpairs option),
          lookup_flags (List.contains_iff_mem.mp hknown)]
        rfl
      · next hknown =>
        rw [Attributes.insert_of_not_mem, List.map_append, List.append_assoc]
        · rfl
        · rw [List.map_append, List.mem_append, not_or, List.map_map]
          refine ⟨hpairs option, fun hmem ↦ hknown (List.contains_iff_mem.mpr ?_)⟩
          obtain ⟨other, hother, heq⟩ := List.mem_map.mp hmem
          rwa [← List.append_cancel_right heq]
    rw [List.foldl_cons, hinsert, mergeOptions_cons, ih]

/-- No flag has the name of an attribute that does not end like one. -/
theorem optionFlag_ne {name : Text} (h : ¬ "-option".toList <:+ name) (option : Text) :
    (optionFlag option).1 ≠ name := by
  rintro rfl
  exact h (List.suffix_append _ _)

/-- Plain names are neither trimmed nor left out. -/
theorem trimmed_of_plain {options : List Text} (h : ∀ option ∈ options, IsPlainName option) :
    (options.map trim).filter (!·.isEmpty) = options := by
  rw [map_trim_eq_self fun option hoption ↦ trim_of_no_blanks fun c hc ↦
    ((h option hoption).plain c hc).2.2.2.2]
  refine List.filter_eq_self.mpr fun option hoption ↦ ?_
  simpa using (h option hoption).ne_nil

/-- Where no options are recorded yet, a flag for each of the options and their list are added. -/
theorem addOptions_eq {pairs : List (Text × Text)} {options : List Text} (hsome : options ≠ [])
    (hflags : ∀ option, (optionFlag option).1 ∉ pairs.map (·.1))
    (hlist : "options".toList ∉ pairs.map (·.1))
    (hplain : ∀ option ∈ options, IsPlainName option) :
    addOptions ⟨pairs⟩ options = ⟨pairs ++ optionAttributes options.eraseDups⟩ := by
  have hnone : (⟨pairs⟩ : Attributes).get? "options".toList = none :=
    Attributes.lookup_of_not_mem hlist
  have hflagged : options.foldl
      (fun (result : Attributes) option ↦ result.insert (optionFlag option).1 []) ⟨pairs⟩ =
      ⟨pairs ++ options.eraseDups.map optionFlag⟩ := by
    have hfold := foldl_flags [] options hflags
    rwa [List.map_nil, List.append_nil, mergeOptions_nil] at hfold
  have hlast : "options".toList ∉ (pairs ++ options.eraseDups.map optionFlag).map (·.1) := by
    rw [List.map_append, List.mem_append, not_or, List.map_map]
    refine ⟨hlist, fun hmem ↦ ?_⟩
    obtain ⟨option, -, heq⟩ := List.mem_map.mp hmem
    exact optionFlag_ne (by decide) option heq
  have hdistinct : options.eraseDups ≠ [] := by
    obtain ⟨option, rest, rfl⟩ := List.exists_cons_of_ne_nil hsome
    rw [List.eraseDups_cons]
    exact List.cons_ne_nil _ _
  rw [addOptions, hnone, trimmed_of_plain hplain]
  change (options.foldl (fun (result : Attributes) option ↦ result.insert (optionFlag option).1 [])
    ⟨pairs⟩).insert _ (joinWith [','] (mergeOptions [] options)) = _
  rw [hflagged, mergeOptions_nil, Attributes.insert_of_not_mem hlast, optionAttributes,
    if_neg hdistinct, List.append_assoc]

/-- Options with plain names are recorded as they are, behind what is recorded already. -/
theorem recordOptions_eq {pairs : List (Text × Text)} {options : List Text}
    (hpairs : ∀ name ∈ pairs.map (·.1), name ∈ styleNames)
    (hplain : ∀ option ∈ options, IsPlainName option) :
    (if options.isEmpty then ⟨pairs⟩ else addOptions ⟨pairs⟩ options) =
      (⟨pairs ++ optionAttributes options.eraseDups⟩ : Attributes) := by
  by_cases hsome : options = []
  · rw [hsome]
    exact congrArg Attributes.mk (List.append_nil pairs).symm
  · have hsuffix : ∀ name ∈ styleNames, ¬ "-option".toList <:+ name := by decide
    have hflags : ∀ option, (optionFlag option).1 ∉ pairs.map (·.1) := fun option hmem ↦
      optionFlag_ne (hsuffix _ (hpairs _ hmem)) option rfl
    have hlist : "options".toList ∉ pairs.map (·.1) := fun hmem ↦
      absurd (hpairs _ hmem) (by decide)
    rw [if_neg (by simpa using hsome), addOptions_eq hsome hflags hlist hplain]

end Options

/-! ### Reading a style with shorthands -/

section Styles

/-- A text without equals signs gives nothing by name. -/
theorem nameAndValue?_eq_none (h : '=' ∉ entry) : nameAndValue? entry = none := by
  rw [nameAndValue?.eq_def]
  split
  · rfl
  · next first rest =>
    split
    · split
      · next value heq =>
        have hbehind : '=' :: value <:+ rest := by
          rw [← heq]
          exact (isSuffix_trimLeft _).trans (List.dropWhile_suffix _)
        exact absurd (List.mem_cons_of_mem first (hbehind.subset List.mem_cons_self)) h
      · rfl
    · rfl

/-- A text without quotes is only trimmed. -/
theorem unquote_of_no_quotes (h : ∀ c ∈ entry, isQuote c = false) : unquote entry = trim entry := by
  rw [unquote]
  split
  · next first second rest heq =>
    have hfirst : isQuote first = false :=
      h first ((isInfix_trim entry).subset (heq ▸ List.mem_cons_self))
    rw [if_neg fun hquoted ↦ by rw [hfirst] at hquoted; exact Bool.false_ne_true hquoted.1, heq]
  · rfl

/-- An entry that is written with plain names holds nothing else that means something in a list. -/
theorem plain_writeShorthands (hstyle : IsPlainName style)
    (hitems : ∀ item ∈ items, IsPlainName item.name) :
    ∀ c ∈ writeShorthands style items,
      c ≠ ',' ∧ c ≠ '=' ∧ isQuote c = false ∧ isBlank c = false := by
  intro c hc
  rw [writeShorthands, List.mem_append, List.mem_flatMap] at hc
  rcases hc with hc | ⟨item, hitem, hc⟩
  · exact (hstyle.plain c hc).2
  · rcases List.mem_cons.mp hc with rfl | hc
    · cases item <;> simp only [Shorthand.marker] <;> decide
    · exact ((hitems item hitem).plain c hc).2

/-- Roles, if there are any, are recorded in one behind what is recorded already. -/
theorem insert_roles {pairs : List (Text × Text)} (roles : List Text)
    (h : "role".toList ∉ pairs.map (·.1)) :
    (if roles.isEmpty then (⟨pairs⟩ : Attributes)
      else (⟨pairs⟩ : Attributes).insert "role".toList (joinWith [' '] roles)) =
      ⟨pairs ++ if roles = [] then [] else [("role".toList, joinWith [' '] roles)]⟩ := by
  cases roles with
  | nil => exact congrArg Attributes.mk (List.append_nil pairs).symm
  | cons role rest => exact Attributes.insert_of_not_mem h _

/-- Nothing but these names is given apart from options. -/
theorem mem_styleNames (style : Text) (items : List Shorthand) :
    ∀ name ∈ (styleAttributes style items).map (·.1), name ∈ styleNames := by
  intro name hname
  obtain ⟨pair, hpair, rfl⟩ := List.mem_map.mp hname
  rw [styleAttributes, List.mem_append, List.mem_append, List.mem_cons, List.mem_singleton,
    Option.mem_toList, Option.map_eq_some_iff] at hpair
  rcases hpair with ((rfl | rfl) | ⟨id, -, rfl⟩) | hpair
  · simp [styleNames]
  · simp [styleNames]
  · simp [styleNames]
  · split at hpair
    · cases hpair
    · rw [List.mem_singleton.mp hpair]
      simp [styleNames]

/-- A style with shorthands is recorded with the entry as it is, the style, the last id, the roles
and the options. -/
theorem addFirstPositional_eq (hstyle : IsPlainName style)
    (hitems : ∀ item ∈ items, IsPlainName item.name) :
    addFirstPositional ∅ (writeShorthands style items) = ⟨styleAttributes style items ++
      optionAttributes (items.filterMap Shorthand.option?).eraseDups⟩ := by
  have hid := shorthandNames_written '#' Shorthand.id?
    (by rintro (_ | _ | _) <;> rfl) hitems
  have hrole := shorthandNames_written '.' Shorthand.role?
    (by rintro (_ | _ | _) <;> rfl) hitems
  have hoption := shorthandNames_written '%' Shorthand.option?
    (by rintro (_ | _ | _) <;> rfl) hitems
  have hstyled : ((∅ : Attributes).insert "1".toList (writeShorthands style items)).insert
      "style".toList style =
      ⟨[("1".toList, writeShorthands style items), ("style".toList, style)]⟩ := rfl
  have hnamed : style.isEmpty = false := by simpa using hstyle.ne_nil
  have htake : (writeShorthands style items).takeWhile (!isShorthand ·) = style :=
    takeWhile_name_append hstyle items
  have hdrop : (writeShorthands style items).dropWhile (!isShorthand ·) =
      items.flatMap Shorthand.written :=
    dropWhile_name_append hstyle items
  rw [← recordOptions_eq (mem_styleNames style items) fun option hoption ↦ ?_]
  · simp only [addFirstPositional, htake, hdrop, shorthands_written hitems, hid, hrole, hoption,
      hnamed, Bool.false_eq_true, if_false, hstyled, styleAttributes]
    cases (items.filterMap Shorthand.id?).getLast? with
    | none =>
      have hfresh : "role".toList ∉ ["1".toList, "style".toList] := by decide
      rw [insert_roles]
      · rfl
      · exact hfresh
    | some id =>
      have hid : "id".toList ∉ ["1".toList, "style".toList] := by decide
      have hfresh : "role".toList ∉ ["1".toList, "style".toList, "id".toList] := by decide
      simp only
      rw [Attributes.insert_of_not_mem hid, insert_roles]
      · rfl
      · exact hfresh
  · obtain ⟨_ | _ | name, hitem, hpick⟩ := List.mem_filterMap.mp hoption
    · cases hpick
    · cases hpick
    · cases hpick
      exact hitems _ hitem

/-- A style with shorthands behind it gives the entry as it is, the style, the last id, all roles,
a flag for each of the distinct options and the list of them, in this order, and nothing else. -/
theorem parse_writeShorthands (hstyle : IsPlainName style)
    (hitems : ∀ item ∈ items, IsPlainName item.name) :
    parse (writeShorthands style items) = ⟨styleAttributes style items ++
      optionAttributes (items.filterMap Shorthand.option?).eraseDups⟩ := by
  have hplain := plain_writeShorthands hstyle hitems
  have htrim : trim (writeShorthands style items) = writeShorthands style items :=
    trim_of_no_blanks fun c hc ↦ (hplain c hc).2.2.2
  have hcut : IsCut none [writeShorthands style items] :=
    .last (unbroken_of_no_commas (fun hmem ↦ (hplain _ hmem).1 rfl) none)
  have hsome : writeShorthands style items ≠ [] := fun hnil ↦
    hstyle.ne_nil (List.append_eq_nil_iff.mp hnil).1
  have hentries : splitEntries (writeShorthands style items) = [writeShorthands style items] :=
    splitEntries_of_isCut hcut (List.forall_mem_singleton.mpr htrim) (by simpa using hsome)
  have hpositional : nameAndValue? (writeShorthands style items) = none :=
    nameAndValue?_eq_none fun hmem ↦ (hplain _ hmem).2.1 rfl
  have hvalue : unquote (writeShorthands style items) = writeShorthands style items :=
    (unquote_of_no_quotes fun c hc ↦ (hplain c hc).2.2.1).trans htrim
  rw [parse, hentries, addEntries, hpositional]
  simp only [hvalue, if_true, addEntries]
  exact addFirstPositional_eq hstyle hitems

/-- Shorthands of all kinds behind a style, some of them given again. -/
def mixedShorthands : List Shorthand :=
  [.option "b".toList, .id "x".toList, .role "r".toList, .option "a".toList, .id "y".toList,
    .option "b".toList, .role "s".toList]

/-- They are read behind a style: the later id, both roles, and each option once. -/
theorem parse_writeShorthands_mixedShorthands :
    parse "source%b#x.r%a#y%b.s".toList =
      ⟨[("1".toList, "source%b#x.r%a#y%b.s".toList), ("style".toList, "source".toList),
        ("id".toList, "y".toList), ("role".toList, "r s".toList), ("b-option".toList, []),
        ("a-option".toList, []), ("options".toList, "b,a".toList)]⟩ := by
  have hstyle : IsPlainName "source".toList := by decide
  have hitems : ∀ item ∈ mixedShorthands, IsPlainName item.name := by decide
  have hwritten : writeShorthands "source".toList mixedShorthands =
      "source%b#x.r%a#y%b.s".toList := by decide
  rw [← hwritten, parse_writeShorthands hstyle hitems]
  decide

end Styles

end AsciidocSpans.AttributeList
