import AsciidocSpans.Yaml.Block
import AsciidocSpans.Yaml.Plain
import AsciidocSpans.Yaml.Token

/-!
The tokens of a YAML text, cut off one after the other as they are asked for. Only the colon behind
a key tells that it is one, so a word that may be a key is remembered, and no token from it on is
given away until that is settled: when a colon follows on the same line, the token of the key is put
before the word. Outside of flow collections the columns of the words open and close the block
collections.

An error is met when the part of the text is read in which it lies, so one that lies behind another
in the text is not seen.
-/

set_option autoImplicit false
set_option relaxedAutoImplicit false

namespace AsciidocSpans.Yaml

/-- A word that may turn out to be a key. -/
structure PossibleKey where
  /-- The number of tokens before it. -/
  number : Nat
  /-- Whether it stands where only a key can. -/
  isRequired : Bool
  index : Nat
  line : Nat
  column : Nat
  deriving DecidableEq, Repr

/-- What has been read and what is to be read. -/
structure TokenStream where
  cursor : Cursor
  /-- The tokens that have been read and not given away. -/
  queue : List Token := []
  /-- The number of tokens that have been given away. -/
  taken : Nat := 0
  /-- Whether the end has been read. -/
  isDone : Bool := false
  /-- The column of the innermost block collection, below zero outside of all of them. -/
  indent : Int := -1
  /-- The columns of the block collections around it, from the inside out. -/
  outer : List Int := []
  /-- The number of flow collections that are open. -/
  depth : Nat := 0
  /-- Whether a key may begin here. -/
  allowsKey : Bool := true
  /-- The word that may be a key for each number of open flow collections. -/
  keys : List (Nat × PossibleKey) := []

/-- The stream of the tokens of a text. -/
def TokenStream.ofText (text : Text) : TokenStream :=
  { cursor := { rest := text } }

/-- A step that reads from a stream of tokens. -/
abbrev Reading := EStateM ReadError TokenStream

namespace Reading

/-- The place that is reached. -/
def cursor : Reading Cursor := do
  return (← get).cursor

/-- Go on at another place. -/
def goTo (cursor : Cursor) : Reading Unit :=
  modify fun stream ↦ { stream with cursor }

/-- What is read at the place that is reached. -/
def scanned {α : Type} (read : Cursor → Except ReadError (α × Cursor)) : Reading α := do
  match read (← cursor) with
  | .ok (result, behind) =>
    goTo behind
    return result
  | .error cause => throw cause

/-- Put a token behind those that have been read. -/
def emit (token : Token) : Reading Unit :=
  modify fun stream ↦ { stream with queue := stream.queue ++ [token] }

/-- Say whether a key may begin at the next place. -/
def allowKey (allowsKey : Bool) : Reading Unit :=
  modify fun stream ↦ { stream with allowsKey }

/-- Put a token that is so many characters long behind those that have been read. -/
def emitMark (token : Token) (width : Nat) : Reading Unit := do
  goTo ((← cursor).skip width)
  emit token

/-! ### Keys -/

/-- Forget the words that can be keys no more, because their line has ended or is too long. -/
def dropOldKeys : Reading Unit := do
  let stream ← get
  let isOld := fun (entry : Nat × PossibleKey) ↦
    entry.2.line != stream.cursor.line || entry.2.index + 1024 < stream.cursor.index
  if stream.keys.any fun entry ↦ isOld entry && entry.2.isRequired then
    throw (.token .missingColon)
  set { stream with keys := stream.keys.filter (!isOld ·) }

/-- Forget the word that may be a key in the innermost collection. -/
def dropKey : Reading Unit := do
  let stream ← get
  match stream.keys.lookup stream.depth with
  | some key =>
    if key.isRequired then throw (.token .missingColon)
    set { stream with keys := stream.keys.filter (·.1 != stream.depth) }
  | none => return

/-- Remember that the next word may be a key. -/
def saveKey : Reading Unit := do
  if (← get).allowsKey then
    dropKey
    let stream ← get
    let key := {
      number := stream.taken + stream.queue.length
      isRequired := stream.depth == 0 && stream.indent == stream.cursor.column
      index := stream.cursor.index
      line := stream.cursor.line
      column := stream.cursor.column }
    set { stream with keys := (stream.depth, key) :: stream.keys }

/-! ### Indentation -/

/-- The block collections that go on in a column, when a word stands there, and the number of those
that end before it. -/
def unwound (column indent : Int) : List Int → Nat × Int × List Int
  | [] => (0, indent, [])
  | outer :: rest =>
    if column < indent then
      let (count, indent, rest) := unwound column outer rest
      (count + 1, indent, rest)
    else (0, indent, outer :: rest)

/-- End the block collections that do not go on in a column. -/
def unwind (column : Int) : Reading Unit := do
  let stream ← get
  if stream.depth = 0 then
    let (count, indent, outer) := unwound column stream.indent stream.outer
    let queue := stream.queue ++ List.replicate count .blockEnd
    set { stream with queue, indent, outer }

/-- Begin a block collection in a column, if it is further to the right than the innermost one, with
a token that is put before the tokens from the given number on. -/
def indentTo (column number : Nat) (token : Token) : Reading Unit := do
  let stream ← get
  if stream.depth = 0 ∧ stream.indent < column then
    set { stream with
      indent := column
      outer := stream.indent :: stream.outer
      queue := stream.queue.insertIdx (number - stream.taken) token }

/-- Begin a block collection at the next word, where one may begin. -/
def indentHere (token : Token) : Reading Unit := do
  let stream ← get
  if stream.depth = 0 ∧ !stream.allowsKey then throw (.token .misplacedIndicator)
  indentTo stream.cursor.column (stream.taken + stream.queue.length) token

/-! ### Tokens -/

/-- The place of the next word, and whether a line ends before it. -/
def nextWord (breaks : Bool) : Nat → Cursor → Bool × Cursor
  | 0, cursor => (breaks, cursor)
  | steps + 1, cursor =>
    let word := (cursor.behind (· == ' ')).behindComment
    match word.lineBreak? with
    | some (_, behind) => nextWord true steps behind
    | none => (breaks, word)

/-- Go to the next word. -/
def goToWord : Reading Unit := do
  let start ← cursor
  let start := if start.index = 0 ∧ start.rest.head? = some '\ufeff' then start.next else start
  let (breaks, word) := nextWord false start.steps start
  modify fun stream ↦
    { stream with cursor := word, allowsKey := stream.allowsKey || (breaks && stream.depth == 0) }

/-- Read the end of the text. -/
def readEnd : Reading Unit := do
  unwind (-1)
  dropKey
  modify fun stream ↦ { stream with allowsKey := false, keys := [], isDone := true }
  emit .streamEnd

/-- Leave all collections, for something that stands between documents. -/
def leaveDocument : Reading Unit := do
  unwind (-1)
  dropKey
  allowKey false

/-- Read a line before a document. -/
def readDirectiveLine : Reading Unit := do
  leaveDocument
  goTo (← cursor).next
  let directive ← scanned readDirective
  match behindLine .improperName (← cursor) with
  | .ok behind => goTo behind
  | .error cause => throw cause
  emit (.directive directive)

/-- Read the opening bracket of a flow collection. -/
def openFlow (token : Token) : Reading Unit := do
  saveKey
  modify fun stream ↦ { stream with depth := stream.depth + 1, allowsKey := true }
  emitMark token 1

/-- Read the closing bracket of a flow collection. -/
def closeFlow (token : Token) : Reading Unit := do
  dropKey
  modify fun stream ↦ { stream with depth := stream.depth - 1, allowsKey := false }
  emitMark token 1

/-- Read the comma behind an entry of a flow collection. -/
def readSeparator : Reading Unit := do
  allowKey true
  dropKey
  emitMark .separator 1

/-- Read the dash before an item of a block list. -/
def readItemMark : Reading Unit := do
  indentHere .blockListStart
  allowKey true
  dropKey
  emitMark .item 1

/-- Read the question mark before a key. -/
def readKeyMark : Reading Unit := do
  indentHere .blockDictionaryStart
  allowKey ((← get).depth == 0)
  dropKey
  emitMark .key 1

/-- Read the colon before a value. The word before it was a key if it might have been one. -/
def readValueMark : Reading Unit := do
  let stream ← get
  match stream.keys.lookup stream.depth with
  | some key =>
    set { stream with
      keys := stream.keys.filter (·.1 != stream.depth)
      queue := stream.queue.insertIdx (key.number - stream.taken) .key }
    indentTo key.column key.number .blockDictionaryStart
    allowKey false
  | none =>
    indentHere .blockDictionaryStart
    allowKey (stream.depth == 0)
    dropKey
  emitMark .value 1

/-- Read a word that may be a key. -/
def readWord (read : Cursor → Except ReadError (Token × Cursor)) : Reading Unit := do
  saveKey
  allowKey false
  emit (← scanned read)

/-- Read a plain scalar. If a line ends behind it, a key may follow. -/
def readPlainWord : Reading Unit := do
  saveKey
  let stream ← get
  let (text, breaks, behind) :=
    readPlain (stream.depth != 0) (stream.indent + 1) stream.cursor.steps stream.cursor
  goTo behind
  allowKey breaks
  emit (.scalar text true)

/-- Read a block scalar, behind which a key may follow. -/
def readBlockText (folded : Bool) : Reading Unit := do
  allowKey true
  dropKey
  goTo (← cursor).next
  let column := (← get).indent
  emit (.scalar (← scanned (readBlock folded column)) false)

/-- Whether a plain scalar may begin a text. -/
def beginsPlain (inFlow : Bool) : Text → Bool
  | [] => false
  | c :: rest =>
    !(isBlank c || isBreak c || atAny "-?:,[]\x7b\x7d#&*!|>'\"%@\x60" [c]) ||
      (!atBlank rest && (c == '-' || (!inFlow && (c == '?' || c == ':'))))

/-- Read the token that begins with a character, or another one that this one brings about. -/
def readAt (stream : TokenStream) (c : Char) (rest : Text) : Reading Unit :=
  let inFlow := stream.depth != 0
  let isFirst := stream.cursor.column == 0
  if isFirst && c == '%' then readDirectiveLine
  else if isFirst && atTriple '-' (c :: rest) then do leaveDocument; emitMark .documentStart 3
  else if isFirst && atTriple '.' (c :: rest) then do leaveDocument; emitMark .documentEnd 3
  else if c = '[' then openFlow .flowListStart
  else if c = '\x7b' then openFlow .flowDictionaryStart
  else if c = ']' then closeFlow .flowListEnd
  else if c = '\x7d' then closeFlow .flowDictionaryEnd
  else if c = ',' then readSeparator
  else if c = '-' ∧ atBlank rest then readItemMark
  else if c = '?' ∧ (inFlow || atBlank rest) then readKeyMark
  else if c = ':' ∧ (inFlow || atBlank rest) then readValueMark
  else if c = '*' then readWord fun cursor ↦
    (readName cursor.next).map fun (name, behind) ↦ (.alias name, behind)
  else if c = '&' then readWord fun cursor ↦
    (readName cursor.next).map fun (name, behind) ↦ (.anchor name, behind)
  else if c = '!' then readWord fun cursor ↦
    (readTag cursor).map fun (name, behind) ↦ (.tag name, behind)
  else if c = '|' ∧ !inFlow then readBlockText false
  else if c = '>' ∧ !inFlow then readBlockText true
  else if c = '\'' ∨ c = '"' then readWord fun cursor ↦
    (readQuoted c cursor.steps cursor.next).map fun (text, behind) ↦ (.scalar text false, behind)
  else if beginsPlain inFlow (c :: rest) then readPlainWord
  else throw (.token .unknownIndicator)

/-- Read the next token. -/
def readToken : Reading Unit := do
  goToWord
  dropOldKeys
  unwind (← cursor).column
  let stream ← get
  match stream.cursor.rest with
  | [] => readEnd
  | c :: rest => readAt stream c rest

/-- Whether more has to be read before the next token can be given away. -/
def needsMore : Reading Bool := do
  let stream ← get
  if stream.isDone then return false
  else if stream.queue.isEmpty then return true
  else
    dropOldKeys
    return (← get).keys.any fun entry ↦ entry.2.number == stream.taken

/-- Read until the next token can be given away. -/
def fill : Nat → Reading Unit
  | 0 => throw .outOfSteps
  | steps + 1 => do
    if ← needsMore then
      readToken
      fill steps

/-- The next token, which stays the next one. -/
def peek : Reading Token := do
  fill ((← cursor).steps + 1)
  return (← get).queue.headD .streamEnd

/-- Take the next token away. -/
def take : Reading Unit := do
  fill ((← cursor).steps + 1)
  modify fun stream ↦ { stream with queue := stream.queue.drop 1, taken := stream.taken + 1 }

end Reading

end AsciidocSpans.Yaml
