/-!
Why a YAML text cannot be read. A text is cut into tokens, the tokens are put together to a tree,
and the tree is turned into a value; each step has errors of its own.
-/

set_option autoImplicit false
set_option relaxedAutoImplicit false

namespace AsciidocSpans.Yaml

/-- Why a text cannot be cut into tokens. -/
inductive TokenError where
  /-- A quote is not closed. -/
  | unclosedQuote
  /-- A document starts or ends inside quotes. -/
  | markerInQuotes
  /-- An escape means nothing. -/
  | unknownEscape
  /-- An indicator stands where it may not. -/
  | misplacedIndicator
  /-- A key has no colon. -/
  | missingColon
  /-- A character begins nothing. -/
  | unknownIndicator
  /-- An anchor, an alias, a tag or a directive has no proper name. -/
  | improperName
  /-- The line that announces a block of text says something else as well. -/
  | improperHeader
  deriving DecidableEq, Repr

/-- Why tokens make no tree. -/
inductive GrammarError where
  /-- Something has no content. -/
  | missingContent
  /-- A block collection goes on with something that is no entry. -/
  | missingEntry
  /-- Two entries of a flow collection have no comma between them. -/
  | missingSeparator
  /-- A further document has no mark at its start. -/
  | missingDocumentStart
  /-- The handle of a tag stands for nothing. -/
  | unknownHandle
  /-- A directive is given twice. -/
  | repeatedDirective
  /-- The text is of another version. -/
  | incompatibleVersion
  deriving DecidableEq, Repr

/-- Why the parts of a tree do not fit together. -/
inductive ReferenceError where
  /-- An alias has no anchor. -/
  | unknownAlias
  /-- Two anchors have one name. -/
  | repeatedAnchor
  /-- There is more than one document. -/
  | severalDocuments
  deriving DecidableEq, Repr

/-- Why a tree has no value. -/
inductive ValueError where
  /-- A tag means nothing, or nothing for what it stands at. -/
  | improperTag
  /-- A collection is a key. -/
  | collectionAsKey
  /-- Something is to be merged that is no dictionary. -/
  | improperMerge
  /-- A number is empty. -/
  | missingNumber
  /-- A number has no digits, improper ones or too many. -/
  | improperNumber
  /-- A truth value is neither true nor false. -/
  | improperBoolean
  /-- A moment has not the form of one. -/
  | improperMoment
  /-- A moment is not in the calendar. -/
  | noSuchMoment
  deriving DecidableEq, Repr

/-- Why a text cannot be read. -/
inductive ReadError where
  /-- A character may not occur at all. -/
  | unprintable
  /-- An escape names a character that does not exist. -/
  | noSuchCharacter (code : Nat)
  | token (cause : TokenError)
  | grammar (cause : GrammarError)
  | reference (cause : ReferenceError)
  | value (cause : ValueError)
  /-- The bound on steps was reached. -/
  | outOfSteps
  deriving DecidableEq, Repr

/-- The wording of an error. -/
def ReadError.message : ReadError → String
  | unprintable => "a character is not allowed"
  | noSuchCharacter _ => "an escape names no character"
  | token _ => "the text cannot be cut into tokens"
  | grammar _ => "something else was expected"
  | reference _ => "the parts of the text do not fit together"
  | value _ => "something has no value"
  | outOfSteps => "collections are nested too deeply"

end AsciidocSpans.Yaml
