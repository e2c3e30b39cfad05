import AsciidocSpans.Proofs.Blocks.Formation
import AsciidocSpans.Proofs.Blocks.Sites
import AsciidocSpans.Proofs.Conversion.Known
import AsciidocSpans.Proofs.Span.Admissible
import Mathlib

/-!
Where the attributes of images are located. Every image is made by a macro that stands on its line
(`ImageMade`), and each of its attributes is looked for on that line as a whole: it is located at
the first occurrence of its value, whatever that belongs to (`PlacedFirst`).

So the target is located at its place in the macro just if it does not occur before, and the
alternative text in the brackets just if it is written there and does not occur before. Where that
is so, and the directory of images stands elsewhere, no two attributes share text
(`AttributesLocated`, `imagesLocated_of_locateText`). `mislocated_images` has macros with letters of
their name in the target and the alternative text, and with an alternative text that is made from
the name of the file.
-/

set_option autoImplicit false
set_option relaxedAutoImplicit false

namespace AsciidocSpans

open Text

/-! ### What images say -/

theorem Attributes.Distinct.update {attributes : Attributes} (h : attributes.Distinct)
    (others : Attributes) : (attributes.update others).Distinct := by
  obtain ⟨pairs⟩ := others
  change (pairs.foldl (fun result pair ↦ result.insert pair.1 pair.2) attributes).Distinct
  induction pairs generalizing attributes with
  | nil => exact h
  | cons pair rest ih => exact ih (h.insert pair.1 pair.2)

namespace Blocks

theorem distinct_add? {metadata : Metadata} (h : metadata.attributes.Distinct)
    (shape : Line.Shape) : ((metadata.add? shape).getD metadata).attributes.Distinct := by
  cases shape with
  | blockAttributes body =>
    change (metadata.addAttributes (AttributeList.parse body)).attributes.Distinct
    unfold Metadata.addAttributes
    split
    · exact h.update _
    · exact h.update _
  | _ => exact h

/-- The attributes that wait behind some lines have one value for each name. -/
theorem distinct_after (lines : List Line) : (Metadata.empty.after lines).attributes.Distinct := by
  induction lines using List.reverseRecOn with
  | nil => exact Attributes.distinct_empty
  | append_singleton before line ih =>
    rw [Metadata.after_append]
    exact distinct_add? ih line.shape

/-- The alternative text of an image macro: what its attributes give, or else what its target
does. -/
def macroAlt (target body : Text) : Text :=
  let given := (takeAlt (AttributeList.parse body)).1
  if given.isEmpty then altFromTarget target else given

/-- The target of an image macro and its alternative text are attributes of the image. -/
theorem exists_makeImage (number : Int) (target body : Text) (directory : Option Text) :
    ∃ info, makeImage number target body directory = .image info target ∧ info.lineno = number ∧
      info.attributes.get? "target".toList = some target ∧
      info.attributes.get? "alt".toList = some (macroAlt target body) := by
  unfold makeImage macroAlt
  generalize takeAlt (AttributeList.parse body) = taken
  obtain ⟨given, rest⟩ := taken
  dsimp only
  refine ⟨_, rfl, rfl, ?_, ?_⟩
  · cases directory <;> simp [Attributes.get?_insert]
  · cases directory <;> simp [Attributes.get?_insert]

/-- The text of a macro. -/
def macroText (name target body : Text) : Text :=
  name ++ ':' :: ':' :: target ++ '[' :: body ++ [']']

/-- An image is made by a macro in a text, on the line with an index from a column on, and by the
metadata that waits there. What the attribute lines above the macro say of its target and of its
alternative text goes before what the macro says. -/
inductive ImageMade (commentMarker : Text) (written : List Text) (info : ElementInfo)
    (target : Text) (index column : Nat) (body : Text) : Prop
  | made {metadata : Metadata} {line : Line} {rest : List Line}
      (waits : Waits (BeginIn commentMarker written) metadata (line :: rest))
      (site : Sited commentMarker written index column (line :: rest))
      (shape : line.shape = .blockMacro "image".toList target body)
      (lineno : info.lineno = index + 1)
      (stands : StandsFrom written index column (macroText "image".toList target body))
      (given : info.attributes.get? "target".toList =
        (metadata.attributes.get? "target".toList <|> some target))
      (described : info.attributes.get? "alt".toList =
        (metadata.attributes.get? "alt".toList <|> some (macroAlt target body)))

/-- Every image is made by a macro in the text. -/
theorem exists_imageMade {commentMarker : Text} {written : List Text} {info : ElementInfo}
    {target : Text}
    (h : Formed commentMarker (BeginIn commentMarker written) (.image info target)) :
    ∃ index column body, ImageMade commentMarker written info target index column body := by
  generalize helement : Element.image info target = element at h
  cases h with
  | @image metadata line rest macroTarget body directory waits shape =>
    obtain ⟨index, column, hsited⟩ := waits.here lasting_beginIn
    have hspelled := hsited.head.spelled
    rw [shape] at hspelled
    obtain ⟨behind, -, hinput⟩ := hspelled
    have hdistinct : metadata.attributes.Distinct := by
      obtain ⟨-, given, -, -, rfl⟩ := waits
      exact distinct_after given
    obtain ⟨own, hmade, hnumber, htarget, halt⟩ :=
      exists_makeImage line.number macroTarget body directory
    rw [hmade] at helement
    cases helement
    have hlineno := hnumber.trans hsited.head.number
    have hprefix : macroText "image".toList target body <+: line.input := by
      rw [hinput]
      generalize "image".toList = name
      exact ⟨behind, by simp [macroText]⟩
    have hstands := hsited.head.stands.of_isPrefix hprefix
    have hgiven := Attributes.get?_update own.attributes hdistinct "target".toList
    have hdescribed := Attributes.get?_update own.attributes hdistinct "alt".toList
    rw [htarget] at hgiven
    rw [halt] at hdescribed
    exact ⟨index, column, body, .made waits hsited shape hlineno hstands hgiven hdescribed⟩
  | plain isPlain =>
    subst helement
    cases isPlain
  | _ => cases helement

end Blocks

/-! ### Values on a line -/

/-- The span of a value that stands on a line from a column on. -/
def valueSpan (lineno : Int) (column : Nat) (value : Text) : Location where
  start := ⟨lineno, column⟩
  stop := ⟨lineno, (column + value.length : Nat)⟩

/-- Spans that share no text. -/
def Location.Apart (a b : Location) : Prop :=
  a.stop ≤ b.start ∨ b.stop ≤ a.start

/-- A text first occurs at a column of a line. -/
def Text.FirstAt (value line : Text) (column : Nat) : Prop :=
  IsLeast {c | OccursAt value line c} column

section Occurrences

variable {value line before behind : Text} {column : Nat}

/-- What stands behind the beginning of a text occurs that much further on. -/
theorem Text.OccursAt.part (h : OccursAt (before ++ value ++ behind) line column) :
    OccursAt value line (column + before.length) := by
  obtain ⟨hcolumn, further, hfurther⟩ := h
  have hlength := congrArg List.length hfurther
  simp only [List.length_append, List.length_drop] at hlength
  refine ⟨by omega, ?_⟩
  rw [← List.drop_drop, ← hfurther, List.append_assoc, List.append_assoc, List.drop_left]
  exact ⟨behind ++ further, rfl⟩

theorem Text.OccursAt.isInfix (h : OccursAt value line column) : value <:+: line :=
  h.2.isInfix.trans (List.drop_suffix _ _).isInfix

theorem Text.exists_occursAt (h : value <:+: line) : ∃ column, OccursAt value line column := by
  obtain ⟨before, behind, rfl⟩ := h
  refine ⟨before.length, by simp, ?_⟩
  rw [List.append_assoc, List.drop_left]
  exact ⟨behind, rfl⟩

theorem Text.column?_eq_some_iff_firstAt :
    column? value line 0 = some column ↔ FirstAt value line column := by
  rw [column?_eq_some_iff_isLeast (Int.le_refl 0), FirstAt]
  simp

end Occurrences

/-- A value that is looked for on a line alone, from a column on, is located at its first occurrence
there. -/
theorem Locator.find?_onLine {locator : Locator} {verbatim : Bool} {index : Nat} {raw value : Text}
    {start : Int} (hline : locator.source.lines[index]? = some raw)
    (hkept : locator.skips verbatim raw = false) :
    locator.find? verbatim [value]
        { minLine := index + 1, maxLine := index + 1, startColumn := start } =
      (column? value raw start).map fun column ↦ valueSpan (index + 1) column value := by
  obtain ⟨hindex, -⟩ := List.getElem?_eq_some_iff.mp hline
  have hlast : locator.lastStart [value]
      { minLine := index + 1, maxLine := index + 1, startColumn := start } = index + 1 := by
    rw [lastStart, Source.lineCount, List.length_singleton]
    dsimp only
    omega
  cases hcolumn : column? value raw start with
  | some column =>
    have hstands : lastLine? (locator.skips verbatim) start ((index : Int) + 1)
        (locator.source.lines.drop index) [value] = some ((index : Int) + 1, raw) := by
      rw [drop_eq_cons hline, lastLine?_of_not_skipped hkept hcolumn]
      rfl
    rw [find?_of_lastLine? (List.cons_ne_nil _ _) hline rfl (by rw [hlast]) hstands, spanOf,
      Option.map_some, valueSpan]
    simp [hcolumn]
  | none =>
    have hfirst : firstStart
        { minLine := index + 1, maxLine := index + 1, startColumn := start } = index + 1 := by
      rw [firstStart]
      dsimp only
      omega
    rw [find?, hlast, hfirst, if_neg (by simp)]
    dsimp only
    rw [show ((index : Int) + 1 - ((index : Int) + 1) + 1).toNat = 1 by omega,
      show ((index : Int) + 1 - 1).toNat = index by omega, drop_eq_cons hline, scan?, lastLine?,
      nextLine?, hkept]
    simp [hcolumn, scan?]

/-! ### The attributes of images -/

/-- Whether a kind is that of a named attribute. -/
def NodeKind.isNamedAttribute : NodeKind → Bool
  | namedAttribute _ => true
  | _ => false

/-- The named attributes right below a node. -/
def Node.namedAttributes (node : Node) : List Node :=
  node.children.filter (·.kind.isNamedAttribute)

/-- The column of the target of a macro that stands from a column on. -/
def targetColumn (column : Nat) : Nat :=
  column + 7

/-- The column of what stands in the brackets of a macro that stands from a column on. -/
def bodyColumn (column : Nat) (target : Text) : Nat :=
  targetColumn column + target.length + 1

namespace Converter

/-- An image has a value for the name of an attribute. -/
def HasValue (info : ElementInfo) (name value : Text) : Prop :=
  info.attributes.get? name = some value ∧ value ≠ []

/-- A node is located at the first occurrence, on a line, of the value for a name. -/
structure PlacedFirst (info : ElementInfo) (raw name : Text) (node : Node) : Prop where
  kind : node.kind = .namedAttribute name
  given : HasValue info name node.raw
  placed : ∃ column, FirstAt node.raw raw column ∧
    node.location = valueSpan info.lineno column node.raw

/-- Some nodes are the attributes of an image with some names that stand on a line. -/
structure AttributesOf (info : ElementInfo) (raw : Text) (names : List Text) (nodes : List Node) :
    Prop where
  placed : ∀ node ∈ nodes, ∃ name ∈ names, PlacedFirst info raw name node
  shown : ∀ name ∈ names, ∀ value, HasValue info name value → value <:+: raw →
    ∃ node ∈ nodes, node.kind = .namedAttribute name
  kinds : names.Nodup → nodes.Pairwise fun a b ↦ a.kind ≠ b.kind

section Lines

variable {converter : Converter} {info : ElementInfo} {index : Nat} {raw : Text}
  (hline : converter.source.lines[index]? = some raw)
  (hkept : converter.locator.skips false raw = false) (hlineno : info.lineno = index + 1)

include hline hkept hlineno

/-- An attribute is located just if its value stands on the line of its image. -/
theorem placedFirst_convertNamedAttribute (name : Text) :
    Yields (converter.convertNamedAttribute info name) fun result ↦
      (∀ node ∈ result, PlacedFirst info raw name node) ∧
      ∀ value, HasValue info name value → value <:+: raw → ∃ node, result = some node := by
  rw [convertNamedAttribute]
  rcases hvalue : info.attributes.get? name with _ | _ | ⟨c, rest⟩
  · refine yields_pure ⟨fun _ hnone ↦ (Option.not_mem_none _ hnone).elim, fun value hgives ↦ ?_⟩
    rw [HasValue, hvalue] at hgives
    cases hgives.1
  · refine yields_pure ⟨fun _ hnone ↦ (Option.not_mem_none _ hnone).elim, fun value hgives ↦ ?_⟩
    rw [HasValue, hvalue] at hgives
    cases hgives.1
    exact absurd rfl hgives.2
  · refine (yields_find converter false [c :: rest] _).bind fun found hfound ↦ ?_
    rw [hlineno, Locator.find?_onLine hline hkept] at hfound
    cases hcolumn : column? (c :: rest) raw 0 with
    | none =>
      rw [hcolumn] at hfound
      cases hfound
      refine (yields_trivial _).bind fun _ _ ↦
        yields_pure ⟨fun _ hnone ↦ (Option.not_mem_none _ hnone).elim,
          fun value hgives hinside ↦ ?_⟩
      rw [HasValue, hvalue] at hgives
      cases hgives.1
      obtain ⟨column, hoccurs⟩ := exists_occursAt hinside
      exact absurd hoccurs ((column?_eq_none_iff (Int.le_refl 0)).mp hcolumn column (by omega))
    | some column =>
      rw [hcolumn] at hfound
      cases hfound
      refine (yields_assembled fun node hnode ↦ hnode).bind fun node hnode ↦
        yields_pure ⟨fun other hother ↦ ?_, fun _ _ _ ↦ ⟨node, rfl⟩⟩
      obtain ⟨range, leaf, -, -, rfl⟩ := aroundText_eq_ok hnode
      cases hother
      refine ⟨rfl, ⟨hvalue, List.cons_ne_nil c rest⟩, column,
        column?_eq_some_iff_firstAt.mp hcolumn, ?_⟩
      rw [hlineno]
      rfl

theorem attributesOf_convertNamedAttributes (names : List Text) :
    Yields (converter.convertNamedAttributes info (names.map .text))
      (AttributesOf info raw names) := by
  induction names with
  | nil => exact yields_pure ⟨List.forall_mem_nil _, List.forall_mem_nil _, fun _ ↦ .nil⟩
  | cons name rest ih =>
    rw [List.map_cons, convertNamedAttributes]
    refine (placedFirst_convertNamedAttribute hline hkept hlineno name).bind fun first hfirst ↦
      ih.bind fun others hothers ↦ yields_pure ⟨?_, ?_, ?_⟩
    · intro node hnode
      rcases List.mem_append.mp hnode with hmem | hmem
      · exact ⟨name, List.mem_cons_self, hfirst.1 node (Option.mem_toList.mp hmem)⟩
      · obtain ⟨other, hother, hplaced⟩ := hothers.placed node hmem
        exact ⟨other, List.mem_cons_of_mem _ hother, hplaced⟩
    · intro other hother value hgives hinside
      rcases List.mem_cons.mp hother with rfl | hrest
      · obtain ⟨node, rfl⟩ := hfirst.2 value hgives hinside
        exact ⟨node, List.mem_cons_self, (hfirst.1 node rfl).kind⟩
      · obtain ⟨node, hnode, hkind⟩ := hothers.shown other hrest value hgives hinside
        exact ⟨node, List.mem_append_right _ hnode, hkind⟩
    · intro hnodup
      obtain ⟨hname, hrest⟩ := List.nodup_cons.mp hnodup
      refine List.pairwise_append.mpr ⟨?_, hothers.kinds hrest, fun a ha b hb heq ↦ ?_⟩
      · cases first with
        | none => exact .nil
        | some node => exact List.pairwise_singleton _ node
      · obtain ⟨other, hother, hplaced⟩ := hothers.placed b hb
        rw [(hfirst.1 a (Option.mem_toList.mp ha)).kind, hplaced.kind] at heq
        cases heq
        exact hname hother

end Lines

theorem AttributesOf.perm {info : ElementInfo} {raw : Text} {names : List Text}
    {nodes others : List Node} (h : AttributesOf info raw names nodes) (hperm : nodes.Perm others) :
    AttributesOf info raw names others where
  placed node hnode := h.placed node (hperm.mem_iff.mpr hnode)
  shown name hname value hgives hinside := by
    obtain ⟨node, hnode, hkind⟩ := h.shown name hname value hgives hinside
    exact ⟨node, hperm.mem_iff.mp hnode, hkind⟩
  kinds hnodup := (hperm.pairwise_iff Ne.symm).mp (h.kinds hnodup)

section Images

variable {settings : Settings} {text : Text} {info : ElementInfo} {index : Nat} {raw : Text}
  (hline : text.lines[index]? = some raw) (hkept : ¬ settings.commentMarker <+: raw)
  (hlineno : info.lineno = index + 1)

include hline hkept hlineno

theorem attributesOf_convertImageAttributes :
    Yields ((ofText settings.loosen text).convertImageAttributes info)
      (AttributesOf info raw settings.imageAttributeNames) := by
  have hskips : (ofText settings.loosen text).locator.skips false raw = false :=
    skips_of_not_isPrefix (Settings.marker?_loosen settings) hkept false
  have hnames : (ofText settings.loosen text).settings.imageAttributeNames.listed? =
      some (settings.imageAttributeNames.map .text) := rfl
  rw [convertImageAttributes, hnames, usable, pure_bind]
  exact (attributesOf_convertNamedAttributes hline hskips hlineno _).bind fun nodes hnodes ↦
    yields_pure (hnodes.perm (List.mergeSort_perm nodes _).symm)

/-- The named attributes below an image are those that stand on its line. -/
theorem attributesOf_convertImage (window : Window) :
    Yields ((ofText settings.loosen text).convertImage info window) fun nodes ↦
      ∀ node ∈ nodes,
        AttributesOf info raw settings.imageAttributeNames node.namedAttributes := by
  rw [convertImage]
  refine (yields_trivial _).bind fun line _ ↦ (yields_trivial _).bind fun found _ ↦ ?_
  cases found with
  | none => exact yields_pure (List.forall_mem_nil _)
  | some location =>
    refine (yields_kind_convertBlockTitle info window).bind fun title htitle ↦
      (attributesOf_convertImageAttributes hline hkept hlineno).bind fun attributes hattributes ↦
      (yields_assembled fun leaf hleaf ↦ hleaf).bind fun leaf hleaf ↦
        (yields_assembled fun node hnode ↦ hnode).bind fun node hnode ↦ yields_pure ?_
    obtain ⟨range, -, rfl⟩ := located_eq_ok hleaf
    obtain ⟨span, range, -, -, rfl⟩ := around_eq_ok hnode
    have htitles : title.toList.filter (·.kind.isNamedAttribute) = [] := by
      refine List.filter_eq_nil_iff.mpr fun node hmem ↦ ?_
      rw [htitle node (Option.mem_toList.mp hmem)]
      exact Bool.false_ne_true
    have hnamed : attributes.filter (·.kind.isNamedAttribute) = attributes := by
      refine List.filter_eq_self.mpr fun node hmem ↦ ?_
      obtain ⟨name, -, hplaced⟩ := hattributes.placed node hmem
      rw [hplaced.kind]
      rfl
    intro node hmem
    rw [List.mem_singleton.mp hmem, Node.namedAttributes]
    change AttributesOf info raw _ ((title.toList ++ attributes ++ [_]).filter _)
    rw [List.filter_append, List.filter_append, htitles, hnamed, List.nil_append]
    change AttributesOf info raw _ (attributes ++ [])
    rw [List.append_nil]
    exact hattributes

end Images

/-! ### Places in a macro -/

section Places

open Blocks (macroText)

variable {info : ElementInfo} {target raw body value : Text} {column low : Nat} {node : Node}

/-- What a part of a line goes on with stands that much further on in the line. -/
theorem isPrefix_drop_add (hbody : OccursAt body raw low) {offset : Nat}
    (hoffset : offset ≤ body.length) : body.drop offset <+: raw.drop (low + offset) := by
  obtain ⟨-, behind, hbehind⟩ := hbody
  rw [← List.drop_drop, ← hbehind, List.drop_append_of_le_length hoffset]
  exact List.prefix_append _ _

/-- What occurs in a part of a line occurs that much further on in the line. -/
theorem occursAt_add (hbody : OccursAt body raw low) {offset : Nat}
    (h : OccursAt value body offset) : OccursAt value raw (low + offset) := by
  have hlength := hbody.2.length_le
  rw [List.length_drop] at hlength
  have hlow := hbody.1
  have hoffset := h.1
  exact ⟨by omega, h.2.trans (isPrefix_drop_add hbody hoffset)⟩

/-- What occurs within the bounds of a part of a line stands in that part. -/
theorem isInfix_of_occursAt (hbody : OccursAt body raw low) (h : OccursAt value raw column)
    (hlow : low ≤ column) (hhigh : column + value.length ≤ low + body.length) :
    value <:+: body := by
  obtain ⟨offset, rfl⟩ := Nat.exists_eq_add_of_le hlow
  have hfits : value.length ≤ (body.drop offset).length := by
    rw [List.length_drop]
    omega
  exact (List.prefix_of_prefix_length_le h.2 (isPrefix_drop_add hbody (by omega))
    hfits).isInfix.trans (List.drop_suffix offset body).isInfix

variable (hwritten : OccursAt (macroText "image".toList target body) raw column)

include hwritten

theorem occursAt_targetColumn : OccursAt target raw (targetColumn column) := by
  have hpart (name : Text) : macroText name target body =
      (name ++ [':', ':']) ++ target ++ ('[' :: body ++ [']']) := by
    simp [macroText]
  rw [hpart] at hwritten
  exact hwritten.part

theorem occursAt_bodyColumn : OccursAt body raw (bodyColumn column target) := by
  have hpart (name : Text) : macroText name target body =
      (name ++ [':', ':'] ++ target ++ ['[']) ++ body ++ [']'] := by
    simp [macroText]
  rw [hpart] at hwritten
  have hoccurs := hwritten.part
  have hcolumn : column + ("image".toList ++ [':', ':'] ++ target ++ ['[']).length =
      bodyColumn column target := by
    simp [bodyColumn, targetColumn]
    omega
  rwa [hcolumn] at hoccurs

/-- A target is located at its place in the macro just if it is the one that the image has and
occurs nowhere before. -/
theorem location_target_iff (h : PlacedFirst info raw "target".toList node) :
    node.location = valueSpan info.lineno (targetColumn column) target ↔
      node.raw = target ∧ ∀ c < targetColumn column, ¬ OccursAt target raw c := by
  obtain ⟨first, hfirst, hlocation⟩ := h.placed
  have hown := occursAt_targetColumn hwritten
  rw [hlocation]
  constructor
  · intro hspan
    simp only [valueSpan, Location.mk.injEq, Position.mk.injEq, true_and, Nat.cast_inj] at hspan
    obtain ⟨rfl, hlength⟩ := hspan
    have hraw : node.raw = target :=
      (List.prefix_of_prefix_length_le hfirst.1.2 hown.2 (by omega)).eq_of_length (by omega)
    exact ⟨hraw, fun c hc hoccurs ↦ absurd (hfirst.2 (hraw ▸ hoccurs)) (by omega)⟩
  · rintro ⟨hraw, hbefore⟩
    rw [hraw] at hfirst ⊢
    have hle : first ≤ targetColumn column := hfirst.2 hown
    have hge : targetColumn column ≤ first := Nat.le_of_not_lt fun hlt ↦
      hbefore first hlt hfirst.1
    rw [Nat.le_antisymm hle hge]

/-- An attribute is located in the brackets just if its value is written there and occurs nowhere
before. -/
theorem within_brackets_iff {name : Text} (h : PlacedFirst info raw name node) :
    node.location.Within (valueSpan info.lineno (bodyColumn column target) body) ↔
      node.raw <:+: body ∧ ∀ c < bodyColumn column target, ¬ OccursAt node.raw raw c := by
  obtain ⟨first, hfirst, hlocation⟩ := h.placed
  have hown := occursAt_bodyColumn hwritten
  rw [hlocation, Location.Within, Position.le_iff, Position.le_iff]
  simp only [valueSpan, lt_self_iff_false, true_and, false_or, Int.ofNat_le]
  constructor
  · rintro ⟨hlow, hhigh⟩
    exact ⟨isInfix_of_occursAt hown hfirst.1 hlow hhigh,
      fun c hc hoccurs ↦ absurd (hfirst.2 hoccurs) (by omega)⟩
  · rintro ⟨hinside, hbefore⟩
    obtain ⟨offset, hoccurs⟩ := exists_occursAt hinside
    have hle : first ≤ bodyColumn column target + offset := hfirst.2 (occursAt_add hown hoccurs)
    have hge : bodyColumn column target ≤ first := Nat.le_of_not_lt fun hlt ↦
      hbefore first hlt hfirst.1
    have hlength := hoccurs.2.length_le
    rw [List.length_drop] at hlength
    have hoffset := hoccurs.1
    exact ⟨hge, by omega⟩

/-- The values of an image's attributes occur on the line of its macro first where they belong: the
target at its place, the alternative text in the brackets if anywhere, and the directory outside of
both. -/
structure FirstInMacro (info : ElementInfo) (target raw body : Text) (column : Nat) : Prop where
  ofTarget : ∀ value, HasValue info "target".toList value →
    value = target ∧ ∀ c < targetColumn column, ¬ OccursAt target raw c
  ofAlt : ∀ value, HasValue info "alt".toList value → value <:+: raw →
    value <:+: body ∧ ∀ c < bodyColumn column target, ¬ OccursAt value raw c
  ofDirectory : ∀ value, HasValue info "imagesdir".toList value → ∀ c, FirstAt value raw c →
    c + value.length ≤ targetColumn column ∨ bodyColumn column target + body.length ≤ c

/-- An attribute whose value first occurs where it belongs is located there. -/
theorem exists_region (hfirst : FirstInMacro info target raw body column) {name : Text}
    (hname : name ∈ Settings.default.imageAttributeNames) (h : PlacedFirst info raw name node) :
    ∃ start, node.location = valueSpan info.lineno start node.raw ∧
      (name = "alt".toList ∧ bodyColumn column target ≤ start ∧
          start + node.raw.length ≤ bodyColumn column target + body.length ∨
        name = "imagesdir".toList ∧ (start + node.raw.length ≤ targetColumn column ∨
          bodyColumn column target + body.length ≤ start) ∨
        name = "target".toList ∧ start = targetColumn column ∧
          start + node.raw.length < bodyColumn column target) := by
  obtain ⟨start, hstart, hlocation⟩ := h.placed
  refine ⟨start, hlocation, ?_⟩
  have hnames : name = "alt".toList ∨ name = "imagesdir".toList ∨ name = "target".toList := by
    simpa [Settings.default] using hname
  rcases hnames with rfl | rfl | rfl
  · have hwithin := (within_brackets_iff hwritten h).mpr
      (hfirst.ofAlt node.raw h.given hstart.1.isInfix)
    rw [hlocation, Location.Within, Position.le_iff, Position.le_iff] at hwithin
    simp only [valueSpan, lt_self_iff_false, true_and, false_or, Int.ofNat_le] at hwithin
    exact .inl ⟨rfl, hwithin⟩
  · exact .inr (.inl ⟨rfl, hfirst.ofDirectory node.raw h.given start hstart⟩)
  · obtain ⟨hraw, hbefore⟩ := hfirst.ofTarget node.raw h.given
    have hspan := (location_target_iff hwritten h).mpr ⟨hraw, hbefore⟩
    rw [hlocation] at hspan
    simp only [valueSpan, Location.mk.injEq, Position.mk.injEq, true_and, Nat.cast_inj] at hspan
    refine .inr (.inr ⟨rfl, hspan.1, ?_⟩)
    rw [hraw, hspan.1, bodyColumn]
    exact Nat.lt_succ_self _

/-- Attributes whose values first occur where they belong share no text. -/
theorem apart_of_firstInMacro (hfirst : FirstInMacro info target raw body column)
    {nodes : List Node} (h : AttributesOf info raw Settings.default.imageAttributeNames nodes) :
    nodes.Pairwise fun a b ↦ a.location.Apart b.location := by
  refine (h.kinds (by decide)).imp_of_mem fun {a b} ha hb hkinds ↦ ?_
  obtain ⟨name, hname, hplaced⟩ := h.placed a ha
  obtain ⟨other, hother, hplacedOther⟩ := h.placed b hb
  rw [hplaced.kind, hplacedOther.kind] at hkinds
  obtain ⟨start, hstart, hregion⟩ := exists_region hwritten hfirst hname hplaced
  obtain ⟨low, hlow, hregionOther⟩ := exists_region hwritten hfirst hother hplacedOther
  have hbounds : start + a.raw.length ≤ low ∨ low + b.raw.length ≤ start := by
    have hbody : bodyColumn column target = targetColumn column + target.length + 1 := rfl
    rcases hregion with ⟨rfl, _, _⟩ | ⟨rfl, _⟩ | ⟨rfl, _, _⟩ <;>
      rcases hregionOther with ⟨rfl, _, _⟩ | ⟨rfl, _⟩ | ⟨rfl, _, _⟩ <;>
      first | exact absurd rfl hkinds | omega
  rw [hstart, hlow, Location.Apart, Position.le_iff, Position.le_iff]
  simp only [valueSpan, lt_self_iff_false, true_and, false_or, Int.ofNat_le]
  exact hbounds

end Places

/-! ### Images of a text -/

section Trees

open Blocks (BeginIn Formed ImageMade exists_imageMade macroText)

variable {settings : Settings} {text : Text}

/-- The named attributes below the node of an image are those that stand on its line, at the first
occurrences of their values. So the target is at its place in a macro on that line just if it occurs
nowhere before, the alternative text is in the brackets just if it is written there and occurs
nowhere before, and the attributes share no text if they all first occur where they belong. -/
structure AttributesLocated (info : ElementInfo) (target raw : Text) (node : Node) : Prop where
  shown : AttributesOf info raw Settings.default.imageAttributeNames node.namedAttributes
  ofTarget : ∀ column body, OccursAt (macroText "image".toList target body) raw column →
    ∀ child ∈ node.namedAttributes, child.kind = .namedAttribute "target".toList →
      (child.location = valueSpan info.lineno (targetColumn column) target ↔
        child.raw = target ∧ ∀ c < targetColumn column, ¬ OccursAt target raw c)
  ofAlt : ∀ column body, OccursAt (macroText "image".toList target body) raw column →
    ∀ child ∈ node.namedAttributes, child.kind = .namedAttribute "alt".toList →
      (child.location.Within (valueSpan info.lineno (bodyColumn column target) body) ↔
        child.raw <:+: body ∧ ∀ c < bodyColumn column target, ¬ OccursAt child.raw raw c)
  apart : ∀ column body, OccursAt (macroText "image".toList target body) raw column →
    FirstInMacro info target raw body column →
      node.namedAttributes.Pairwise fun a b ↦ a.location.Apart b.location

/-- The nodes of an image on a line have its attributes below them, if the line is no comment. -/
def ImageConverted (marker : Text) (lines : List Text) (_ : Window) (_ : Option Position)
    (element : Element) (nodes : List Node) : Prop :=
  ∀ info target, element = .image info target → ∀ (index : Nat) (raw : Text),
    lines[index]? = some raw → info.lineno = index + 1 → ¬ marker <+: raw →
      ∀ node ∈ nodes, AttributesLocated info target raw node

/-- An image is made by a macro on a line of a text, and its nodes have its attributes below them,
if that line is no comment. -/
def ImageLocated (marker : Text) (lines : List Text) (_ : Window) (_ : Option Position)
    (element : Element) (nodes : List Node) : Prop :=
  ∀ info target, element = .image info target → ∃ (index column : Nat) (body raw : Text),
    ImageMade marker lines info target index column body ∧ lines[index]? = some raw ∧
      OccursAt (macroText "image".toList target body) raw column ∧
      (¬ marker <+: raw → ∀ node ∈ nodes, AttributesLocated info target raw node)

theorem attributesLocated_of_attributesOf {info : ElementInfo} {target raw : Text} {node : Node}
    (h : AttributesOf info raw Settings.default.imageAttributeNames node.namedAttributes) :
    AttributesLocated info target raw node := by
  have hplaced : ∀ child ∈ node.namedAttributes, ∀ name, child.kind = .namedAttribute name →
      PlacedFirst info raw name child := by
    intro child hchild name hkind
    obtain ⟨own, -, hown⟩ := h.placed child hchild
    rw [hown.kind] at hkind
    cases hkind
    exact hown
  refine ⟨h, ?_, ?_, fun column body hwritten hfirst ↦ apart_of_firstInMacro hwritten hfirst h⟩
  · intro column body hwritten child hchild hkind
    exact location_target_iff hwritten (hplaced child hchild _ hkind)
  · intro column body hwritten child hchild hkind
    exact within_brackets_iff hwritten (hplaced child hchild _ hkind)

/-- Every image by itself has its attributes located. -/
theorem imageConverted_convertElement
    (hnames : settings.imageAttributeNames = Settings.default.imageAttributeNames) :
    HoldsOfBlocks (ofText settings.loosen text)
      (ImageConverted settings.commentMarker text.lines) := by
  intro window following lastEnd element s nodes s' hrun info target helement index raw hline
    hlineno hkept
  subst helement
  rw [convertElement] at hrun
  have hnodes := attributesOf_convertImage hline hkept hlineno _ s nodes s' hrun
  intro node hnode
  exact attributesLocated_of_attributesOf (hnames ▸ hnodes node hnode)

/-- An image that is made of lines and converted is located. -/
theorem imageLocated_of_formed (marker : Text) (lines : List Text) :
    Gives (Formed marker (BeginIn marker lines)) (ImageConverted marker lines)
      (ImageLocated marker lines) := by
  rintro window lastEnd - nodes - hformed hconverted info target rfl
  obtain ⟨index, column, body, hmade⟩ := exists_imageMade hformed
  obtain ⟨-, -, -, hlineno, ⟨raw, hline, hoccurs⟩, -, -⟩ := id hmade
  exact ⟨index, column, body, raw, hmade, hline, hoccurs,
    hconverted info target rfl index raw hline hlineno⟩

/-- Throughout the located tree of every text, images are made by macros and have their attributes
at the first occurrences of the values on their lines. -/
theorem imagesLocated_of_locateText {root : Node}
    (hnames : settings.imageAttributeNames = Settings.default.imageAttributeNames)
    (h : (locateText settings.loosen text).1 = .ok root) :
    ∃ document head nodes, (Document.ofText settings.commentMarker text).1 = .ok document ∧
      root.children = head ++ nodes ∧
      TracedAll (ofText settings.loosen text) (ImageLocated settings.commentMarker text.lines)
        { minLine := 1, maxLine := text.lines.length } none document.blocks nodes :=
  traced_formed_of_locateText (imageConverted_convertElement hnames)
    (imageLocated_of_formed settings.commentMarker text.lines) h

/-- The kinds, the texts and the spans of the named attributes in the located tree of a text. -/
def attributeSpans (text : Text) : Option (List (NodeKind × Text × Location)) :=
  (locateText Settings.default.loosen text).1.toOption.map fun root ↦
    (root.nodes.filter (·.kind.isNamedAttribute)).map fun node ↦
      (node.kind, node.raw, node.location)

/-- An image with a directory that does not stand on its line. -/
theorem imagesLocated_withDirectory :
    let text : Text := ":imagesdir: pics\n\nimage::b.png[Sun]".toList
    Settings.default.imageAttributeNames = Settings.default.imageAttributeNames ∧
    attributeSpans text = some
      [(.namedAttribute "target".toList, "b.png".toList, ⟨⟨3, 7⟩, ⟨3, 12⟩⟩),
        (.namedAttribute "alt".toList, "Sun".toList, ⟨⟨3, 13⟩, ⟨3, 16⟩⟩)] ∧
    ∃ root, (locateText Settings.default.loosen text).1 = .ok root ∧
      ∃ document head nodes,
        (Document.ofText Settings.default.commentMarker text).1 = .ok document ∧
        root.children = head ++ nodes ∧
        TracedAll (ofText Settings.default.loosen text)
          (ImageLocated Settings.default.commentMarker text.lines)
          { minLine := 1, maxLine := text.lines.length } none document.blocks nodes := by
  have hnames : Settings.default.imageAttributeNames = Settings.default.imageAttributeNames := rfl
  obtain ⟨root, hroot, -⟩ := exists_of_okAnd (show okAnd (locateText Settings.default.loosen
    ":imagesdir: pics\n\nimage::b.png[Sun]".toList).1 (fun _ ↦ true) = true by cbv)
  exact ⟨hnames, by cbv, root, hroot, imagesLocated_of_locateText hnames hroot⟩

/-- Images whose attributes are not located where they are written: a letter that the target and the
alternative text share with the name of the macro, an alternative text that the target starts with,
and one that is written nowhere and made from the target. -/
theorem mislocated_images :
    ("image::a[a]".toList = macroText "image".toList "a".toList "a".toList ∧
      attributeSpans "image::a[a]".toList = some
        [(.namedAttribute "alt".toList, "a".toList, ⟨⟨1, 2⟩, ⟨1, 3⟩⟩),
          (.namedAttribute "target".toList, "a".toList, ⟨⟨1, 2⟩, ⟨1, 3⟩⟩)]) ∧
    ("image::sunset.jpg[sunset]".toList =
        macroText "image".toList "sunset.jpg".toList "sunset".toList ∧
      attributeSpans "image::sunset.jpg[sunset]".toList = some
        [(.namedAttribute "alt".toList, "sunset".toList, ⟨⟨1, 7⟩, ⟨1, 13⟩⟩),
          (.namedAttribute "target".toList, "sunset.jpg".toList, ⟨⟨1, 7⟩, ⟨1, 17⟩⟩)]) ∧
    "image::sunset.jpg[]".toList = macroText "image".toList "sunset.jpg".toList [] ∧
      attributeSpans "image::sunset.jpg[]".toList = some
        [(.namedAttribute "alt".toList, "sunset".toList, ⟨⟨1, 7⟩, ⟨1, 13⟩⟩),
          (.namedAttribute "target".toList, "sunset.jpg".toList, ⟨⟨1, 7⟩, ⟨1, 17⟩⟩)] :=
  ⟨⟨by decide +kernel, by cbv⟩, ⟨by decide +kernel, by cbv⟩, by decide +kernel, by cbv⟩

end Trees

end Converter

end AsciidocSpans
