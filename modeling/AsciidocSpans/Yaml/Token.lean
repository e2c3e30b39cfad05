import AsciidocSpans.Yaml.Cursor
import AsciidocSpans.Yaml.ReadError

/-!
The tokens of a YAML text, and those among them that carry a name: anchors and aliases, tags, and
the directives before a document. A tag is written with a handle, which stands for the first part
of its name, or in full.
-/

set_option autoImplicit false
set_option relaxedAutoImplicit false

namespace AsciidocSpans.Yaml

/-- What a line before a document says. -/
inductive Directive where
  | version (major : Nat)
  | handle (name meaning : Text)
  | other
  deriving DecidableEq, Repr

/-- A tag as it is written. -/
structure TagName where
  /-- The handle, unless the tag is written in full. -/
  handle : Option Text
  rest : Text
  deriving DecidableEq, Repr

/-- A token. Where a block collection begins and ends is told by indentation, and where a key begins
by the colon behind it. -/
inductive Token where
  | streamEnd
  | directive (directive : Directive)
  | documentStart
  | documentEnd
  | blockListStart
  | blockDictionaryStart
  | blockEnd
  | flowListStart
  | flowListEnd
  | flowDictionaryStart
  | flowDictionaryEnd
  | item
  | separator
  | key
  | value
  | alias (name : Text)
  | anchor (name : Text)
  | tag (name : TagName)
  | scalar (text : Text) (isPlain : Bool)
  deriving DecidableEq, Repr

/-! ### Anchors -/

/-- The name of an anchor or an alias at a place, and the place behind it. -/
def readName (cursor : Cursor) : Except ReadError (Text × Cursor) :=
  let (name, behind) := cursor.span isNameCharacter
  if name.isEmpty ∨ !(atBlank behind.rest || atAny "?:,]\x7d%@\x60" behind.rest) then
    .error (.token .improperName)
  else .ok (name, behind)

/-! ### Tags -/

/-- Whether a character may be part of a tag. -/
def isTagCharacter (c : Char) : Bool :=
  c.isAlphanum || "-;/?:@&=+$,_.!~*'()[]".toList.contains c

/-- The bytes that are written as percent signs with two digits each at a place, and the place
behind them. -/
def readBytes : Nat → Cursor → Except ReadError (List UInt8 × Cursor)
  | 0, _ => .error .outOfSteps
  | steps + 1, cursor =>
    match cursor.rest with
    | '%' :: a :: b :: _ =>
      if isDigitOf 16 a && isDigitOf 16 b then do
        let (bytes, final) ← readBytes steps (cursor.skip 3)
        return (UInt8.ofNat (numberOf 16 [a, b]) :: bytes, final)
      else .error (.token .improperName)
    | '%' :: _ => .error (.token .improperName)
    | _ => .ok ([], cursor)

/-- The part of a tag at a place, and the place behind it. -/
def readTagPart : Nat → Cursor → Except ReadError (Text × Cursor)
  | 0, _ => .error .outOfSteps
  | steps + 1, cursor => do
    let (part, behind) := cursor.span isTagCharacter
    if atAny "%" behind.rest then
      let (bytes, start) ← readBytes behind.steps behind
      match String.fromUTF8? ⟨bytes.toArray⟩ with
      | some meaning =>
        let (further, final) ← readTagPart steps start
        return (part ++ meaning.toList ++ further, final)
      | none => throw (.token .improperName)
    else return (part, behind)

/-- The part of a tag at a place, which is not empty, and the place behind it. -/
def readSomeTagPart (cursor : Cursor) : Except ReadError (Text × Cursor) := do
  let (part, behind) ← readTagPart cursor.steps cursor
  if behind.index = cursor.index then throw (.token .improperName) else return (part, behind)

/-- The handle at a place, from one exclamation mark to another or before a space, and the place
behind it. -/
def readHandle (cursor : Cursor) : Except ReadError (Text × Cursor) :=
  match cursor.rest with
  | '!' :: rest =>
    let name := rest.takeWhile isNameCharacter
    if rest.head? = some ' ' then .ok (['!'], cursor.next)
    else if (rest.drop name.length).head? = some '!' then
      .ok ('!' :: name ++ ['!'], cursor.skip (name.length + 2))
    else .error (.token .improperName)
  | _ => .error (.token .improperName)

/-- The tag at an exclamation mark, and the place behind it. -/
def readTagName (cursor : Cursor) : Except ReadError (TagName × Cursor) :=
  let rest := cursor.next.rest
  if rest.head? = some '<' then do
    let (name, behind) ← readSomeTagPart (cursor.skip 2)
    if behind.rest.head? = some '>' then return (⟨none, name⟩, behind.next)
    else throw (.token .improperName)
  else if atBlank rest then .ok (⟨none, ['!']⟩, cursor.next)
  else if (rest.takeWhile fun c ↦ !(c == ' ' || isBreak c)).contains '!' then do
    let (handle, start) ← readHandle cursor
    let (name, behind) ← readSomeTagPart start
    return (⟨some handle, name⟩, behind)
  else do
    let (name, behind) ← readSomeTagPart cursor.next
    return (⟨some ['!'], name⟩, behind)

/-- The tag at a place, behind which there is a space, and the place behind it. -/
def readTag (cursor : Cursor) : Except ReadError (TagName × Cursor) := do
  let (name, behind) ← readTagName cursor
  if atSpace behind.rest then return (name, behind) else throw (.token .improperName)

/-! ### Directives -/

/-- The number at a place, and the place behind it. -/
def readNumber (cursor : Cursor) : Except ReadError (Nat × Cursor) :=
  let (digits, behind) := cursor.span (isDigitOf 10)
  if digits.isEmpty then .error (.token .improperName) else .ok (numberOf 10 digits, behind)

/-- The version that a directive gives, and the place behind it. -/
def readVersion (cursor : Cursor) : Except ReadError (Directive × Cursor) := do
  let (major, point) ← readNumber (cursor.behind (· == ' '))
  if point.rest.head? ≠ some '.' then throw (.token .improperName)
  let (_, behind) ← readNumber point.next
  if atSpace behind.rest then return (.version major, behind) else throw (.token .improperName)

/-- The meaning of a handle that a directive gives, and the place behind it. -/
def readHandleMeaning (cursor : Cursor) : Except ReadError (Directive × Cursor) := do
  let (handle, gap) ← readHandle (cursor.behind (· == ' '))
  if gap.rest.head? ≠ some ' ' then throw (.token .improperName)
  let (meaning, behind) ← readSomeTagPart (gap.behind (· == ' '))
  if atSpace behind.rest then return (.handle handle meaning, behind)
  else throw (.token .improperName)

/-- What the directive at a place says, and the place behind its name and its values. -/
def readDirective (cursor : Cursor) : Except ReadError (Directive × Cursor) := do
  let (name, behind) := cursor.span isNameCharacter
  if name.isEmpty ∨ !atSpace behind.rest then throw (.token .improperName)
  else if name = "YAML".toList then readVersion behind
  else if name = "TAG".toList then readHandleMeaning behind
  else return (.other, behind.behind (!isBreak ·))

end AsciidocSpans.Yaml
