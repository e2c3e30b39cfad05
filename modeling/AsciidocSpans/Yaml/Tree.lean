import AsciidocSpans.Yaml.TokenStream
import AsciidocSpans.Yaml.Word

/-!
The tree of a YAML text: scalars, lists and dictionaries, each with the kind of value that it is
for. The kind of a scalar without quotes and without a tag is told by its text. An alias stands for
the tree that its anchor marks.

The readers nest through one another, so they carry a bound on their steps; every step takes a token
away or goes down to a part, and `Tree.ofText?` starts with more steps than there can be.
-/

set_option autoImplicit false
set_option relaxedAutoImplicit false

namespace AsciidocSpans.Yaml

/-- A tree. -/
inductive Tree where
  | scalar (tag : Tag) (text : Text)
  | list (tag : Tag) (items : List Tree)
  | dictionary (tag : Tag) (entries : List (Tree × Tree))
  /-- An alias inside the tree that it stands for. -/
  | cycle

/-- The tree that stands where nothing is written. -/
def Tree.null : Tree :=
  .scalar .null []

/-- The first part of the names of tags that have a meaning. -/
def coreNames : String :=
  "tag:yaml.org,2002:"

/-- The tags that have a meaning, by the second part of their names. -/
def coreTags : List (Text × Tag) :=
  [("null".toList, .null), ("bool".toList, .boolean), ("int".toList, .integer),
    ("float".toList, .float), ("timestamp".toList, .moment), ("str".toList, .text),
    ("seq".toList, .list), ("map".toList, .dictionary), ("merge".toList, .merge),
    ("value".toList, .default)]

/-- The kind of value that the name of a tag stands for. -/
def Tag.ofName (name : Text) : Tag :=
  if coreNames.toList.isPrefixOf name then
    (coreTags.lookup (name.drop coreNames.length)).getD .unknown
  else .unknown

/-- What a text says about its parts by names: the handles of tags, and the trees with anchors. A
tree that is not complete has no value yet. -/
structure Names where
  handles : List (Text × Text)
  anchors : List (Text × Option Tree) := []

/-- The handles that need not be given. -/
def defaultHandles : List (Text × Text) :=
  [(['!'], ['!']), (['!', '!'], coreNames.toList)]

/-- A step that puts tokens together. -/
abbrev Composing := StateT Names Reading

namespace Composing

/-- The next token, which stays the next one. -/
def peek : Composing Token :=
  fun names ↦ do return (← Reading.peek, names)

/-- Take the next token away. -/
def take : Composing Unit :=
  fun names ↦ do return (← Reading.take, names)

/-- Fail because something else was expected. -/
def fail {α : Type} (cause : GrammarError) : Composing α :=
  fun _ ↦ throw (.grammar cause)

/-- Fail because parts do not fit together. -/
def misfit {α : Type} (cause : ReferenceError) : Composing α :=
  fun _ ↦ throw (.reference cause)

/-- Fail because there are no more steps. -/
def stop {α : Type} : Composing α :=
  fun _ ↦ throw .outOfSteps

/-! ### Properties -/

/-- The anchor at the next place, if there is one. -/
def anchor? : Composing (Option Text) := do
  match ← peek with
  | .anchor name => do
    take
    return some name
  | _ => return none

/-- The tag at the next place, if there is one. -/
def tag? : Composing (Option TagName) := do
  match ← peek with
  | .tag name => do
    take
    return some name
  | _ => return none

/-- What is written before the content of a tree, in either order. -/
def properties : Composing (Option Text × Option TagName) := do
  match ← anchor? with
  | some name => return (some name, ← tag?)
  | none =>
    let tag ← tag?
    if tag.isSome then return (← anchor?, tag) else return (none, none)

/-- The name of a tag in full. -/
def fullName (name : TagName) : Composing Text := do
  match name.handle with
  | none => return name.rest
  | some handle =>
    match (← get).handles.lookup handle with
    | some meaning => return meaning ++ name.rest
    | none => fail .unknownHandle

/-- The kind of a scalar. -/
def scalarTag (name : Option Text) (text : Text) (isPlain : Bool) : Tag :=
  match name with
  | some name => if name = ['!'] then .ofWord text else .ofName name
  | none => if isPlain then .ofWord text else .text

/-- The kind of a collection, given that of collections of its sort. -/
def collectionTag (name : Option Text) (tag : Tag) : Tag :=
  match name with
  | some name => if name = ['!'] then tag else .ofName name
  | none => tag

/-- Begin the tree with an anchor. -/
def beginTree (anchor : Option Text) : Composing Unit := do
  match anchor with
  | none => return
  | some name =>
    if ((← get).anchors.lookup name).isSome then misfit .repeatedAnchor
    else modify fun names ↦ { names with anchors := (name, none) :: names.anchors }

/-- Complete the tree with an anchor. -/
def endTree (anchor : Option Text) (tree : Tree) : Composing Tree := do
  match anchor with
  | none => return tree
  | some name =>
    modify fun names ↦ { names with anchors := (name, some tree) :: names.anchors }
    return tree

/-- The tree that an alias stands for. -/
def aliased (name : Text) : Composing Tree := do
  match (← get).anchors.lookup name with
  | some (some tree) => return tree
  | some none => return .cycle
  | none => misfit .unknownAlias

/-! ### Trees -/

/-- Whether a token can only stand behind an entry of a block dictionary, or before its value. -/
def endsEntry : Token → Bool
  | .key | .value | .blockEnd => true
  | _ => false

mutual

/-- Compose the tree at the next place. Block collections may begin there only if `nests`, and a
list whose items stand in the column of its key only if `isValue`. -/
def tree (nests isValue : Bool) : Nat → Composing Tree
  | 0 => stop
  | steps + 1 => do
    match ← peek with
    | .alias name =>
      take
      aliased name
    | _ =>
      let (anchor, tag) ← properties
      let name ← match tag with
        | some tag => some <$> fullName tag
        | none => pure none
      match ← peek with
      | .item =>
        if isValue then
          beginTree anchor
          let items ← looseItems steps
          endTree anchor (.list (collectionTag name .list) items)
        else emptyTree anchor name
      | .scalar text isPlain =>
        take
        beginTree anchor
        endTree anchor (.scalar (scalarTag name text isPlain) text)
      | .flowListStart =>
        beginTree anchor
        take
        let items ← flowItems true steps
        endTree anchor (.list (collectionTag name .list) items)
      | .flowDictionaryStart =>
        beginTree anchor
        take
        let entries ← flowEntries true steps
        endTree anchor (.dictionary (collectionTag name .dictionary) entries)
      | .blockListStart =>
        if nests then
          beginTree anchor
          take
          let items ← blockItems steps
          endTree anchor (.list (collectionTag name .list) items)
        else emptyTree anchor name
      | .blockDictionaryStart =>
        if nests then
          beginTree anchor
          take
          let entries ← blockEntries steps
          endTree anchor (.dictionary (collectionTag name .dictionary) entries)
        else emptyTree anchor name
      | _ => emptyTree anchor name

/-- Compose a tree that has no content, as only one with an anchor or a tag may be. -/
def emptyTree (anchor name : Option Text) : Composing Tree := do
  if anchor.isNone && name.isNone then fail .missingContent
  else
    beginTree anchor
    endTree anchor (.scalar (scalarTag name [] true) [])

/-- Compose the items of a block list up to its end. -/
def blockItems : Nat → Composing (List Tree)
  | 0 => stop
  | steps + 1 => do
    match ← peek with
    | .item =>
      take
      let item ← match ← peek with
        | .item | .blockEnd => pure Tree.null
        | _ => tree true false steps
      return item :: (← blockItems steps)
    | .blockEnd =>
      take
      return []
    | _ => fail .missingEntry

/-- Compose the items of a list that stands in the column of its key. -/
def looseItems : Nat → Composing (List Tree)
  | 0 => stop
  | steps + 1 => do
    match ← peek with
    | .item =>
      take
      let next ← peek
      let item ← if next = .item ∨ endsEntry next then pure Tree.null else tree true false steps
      return item :: (← looseItems steps)
    | _ => return []

/-- Compose the key or the value of an entry of a block dictionary. -/
def blockPart : Nat → Composing Tree
  | 0 => stop
  | steps + 1 => do
    if endsEntry (← peek) then return Tree.null else tree true true steps

/-- Compose the entries of a block dictionary up to its end. -/
def blockEntries : Nat → Composing (List (Tree × Tree))
  | 0 => stop
  | steps + 1 => do
    match ← peek with
    | .key =>
      take
      let key ← blockPart steps
      let value ← match ← peek with
        | .value => do
          take
          blockPart steps
        | _ => pure Tree.null
      return (key, value) :: (← blockEntries steps)
    | .blockEnd =>
      take
      return []
    | _ => fail .missingEntry

/-- Compose the part of an entry of a flow collection, which may be missing. -/
def flowPart (closing : Token) (endsAtValue : Bool) : Nat → Composing Tree
  | 0 => stop
  | steps + 1 => do
    let next ← peek
    if next = .separator ∨ next = closing ∨ (endsAtValue ∧ next = .value) then return Tree.null
    else tree false false steps

/-- Compose the value of an entry of a flow collection, which may be missing with its colon. -/
def flowValue (closing : Token) : Nat → Composing Tree
  | 0 => stop
  | steps + 1 => do
    match ← peek with
    | .value =>
      take
      flowPart closing false steps
    | _ => return Tree.null

/-- Compose the items of a flow list up to its end. An item with a colon is a dictionary with one
entry. -/
def flowItems (isFirst : Bool) : Nat → Composing (List Tree)
  | 0 => stop
  | steps + 1 => do
    if (← peek) = .flowListEnd then
      take
      return []
    if !isFirst then
      if (← peek) = .separator then take else fail .missingSeparator
    match ← peek with
    | .flowListEnd =>
      take
      return []
    | .key =>
      take
      let key ← flowPart .flowListEnd true steps
      let value ← flowValue .flowListEnd steps
      return .dictionary .dictionary [(key, value)] :: (← flowItems false steps)
    | _ =>
      let item ← tree false false steps
      return item :: (← flowItems false steps)

/-- Compose the entries of a flow dictionary up to its end. -/
def flowEntries (isFirst : Bool) : Nat → Composing (List (Tree × Tree))
  | 0 => stop
  | steps + 1 => do
    if (← peek) = .flowDictionaryEnd then
      take
      return []
    if !isFirst then
      if (← peek) = .separator then take else fail .missingSeparator
    match ← peek with
    | .flowDictionaryEnd =>
      take
      return []
    | .key =>
      take
      let key ← flowPart .flowDictionaryEnd true steps
      let value ← flowValue .flowDictionaryEnd steps
      return (key, value) :: (← flowEntries false steps)
    | _ =>
      let key ← tree false false steps
      return (key, Tree.null) :: (← flowEntries false steps)

end

/-! ### Documents -/

/-- Take note of the directives before a document. -/
def directives (hasVersion : Bool) : Nat → Composing Unit
  | 0 => stop
  | steps + 1 => do
    match ← peek with
    | .directive (.version major) =>
      take
      if hasVersion then fail .repeatedDirective
      else if major ≠ 1 then fail .incompatibleVersion
      else directives true steps
    | .directive (.handle name meaning) =>
      take
      if ((← get).handles.lookup name).isSome then fail .repeatedDirective
      else
        modify fun names ↦ { names with handles := (name, meaning) :: names.handles }
        directives hasVersion steps
    | .directive .other =>
      take
      directives hasVersion steps
    | _ => return

/-- Begin a document that is announced. -/
def beginDocument (steps : Nat) : Composing Unit := do
  set { handles := [] : Names }
  directives false steps
  modify fun names ↦ { names with handles := names.handles ++ defaultHandles }
  if (← peek) = .documentStart then take else fail .missingDocumentStart

/-- Compose the content of a document that is announced. -/
def content (steps : Nat) : Composing Tree := do
  match ← peek with
  | .directive _ | .documentStart | .documentEnd | .streamEnd => return Tree.null
  | _ => tree true false steps

/-- Pass over the marks at which documents end. -/
def passEnds : Nat → Composing Unit
  | 0 => stop
  | steps + 1 => do
    if (← peek) = .documentEnd then
      take
      passEnds steps

/-- Compose the only document, if there is one. -/
def document? (steps : Nat) : Composing (Option Tree) := do
  let tree ← match ← peek with
    | .streamEnd => return none
    | .directive _ | .documentStart => do
      beginDocument steps
      content steps
    | _ => tree true false steps
  passEnds steps
  if (← peek) = .streamEnd then return some tree
  else
    beginDocument steps
    misfit .severalDocuments

end Composing

/-- The tree of the only document of a text, if there is one. -/
def Tree.ofText? (text : Text) : Except ReadError (Option Tree) :=
  let steps := 4 * text.length + 16
  match (Composing.document? steps { handles := defaultHandles }).run (.ofText text) with
  | .ok (tree, _) _ => .ok tree
  | .error cause _ => .error cause

end AsciidocSpans.Yaml
