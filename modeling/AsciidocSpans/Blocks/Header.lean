import AsciidocSpans.Blocks.Metadata
import AsciidocSpans.Blocks.State
import AsciidocSpans.Text.Blank

/-!
The document header: a title of the highest level, before which only comments, attribute entries
and metadata lines stand, then a line of authors, a line with the revision, and further attribute
entries. Without such a title nothing is read; the attribute entries met while looking for one
stay recorded.
-/

set_option autoImplicit false
set_option relaxedAutoImplicit false

namespace AsciidocSpans.Blocks

open Text

/-- The first way to split a text that ends in `>` into a name and an address between angle
brackets. -/
def splitAddress? (before : Text) : Text → Option (Text × Text)
  | [] => none
  | c :: rest =>
    let name := trimRight before
    if c = '<' ∧ name ≠ [] ∧ 2 ≤ rest.length ∧ rest.getLast? = some '>' ∧
        rest.dropLast.all (fun d ↦ d != '>' && !isBlank d) then
      some (name, rest.dropLast)
    else splitAddress? (before ++ [c]) rest

/-- The name and the address in one entry of an author line. An entry of nothing but white space
has its last character for a name. -/
def authorParts? (entry : Text) : Option (Text × Option Text) :=
  match trim entry with
  | [] => entry.getLast?.map fun c ↦ ([c], none)
  | trimmed =>
    match splitAddress? [] trimmed with
    | some (name, address) => some (name, some address)
    | none => some (trimmed, none)

/-- The authors named on a line, separated by semicolons. -/
def authorsOf (line : Line) : List Author :=
  (cutAt ';' line.input).filterMap fun entry ↦
    (authorParts? entry).map fun (name, email) ↦ { info := { lineno := line.number }, name, email }

/-- Look for the document title: pass over comments, attribute entries and metadata lines, and
return the metadata. The state is the comment block that is open, by its delimiter and the number
of its first line. -/
def scanHeader (opened : Option (Text × Int)) (metadata : Metadata) :
    List Line → Reading Metadata
  | [] => do
    setLines []
    if let some (_, number) := opened then
      report .warning s!"Unterminated comment block starting at line {number}"
    return metadata
  | line :: rest =>
    match opened with
    | some (delimiter, number) =>
      if line.shape = .commentDelimiter delimiter then scanHeader none metadata rest
      else scanHeader (some (delimiter, number)) metadata rest
    | none =>
      match line.shape with
      | .blank | .comment _ => scanHeader none metadata rest
      | .commentDelimiter delimiter => scanHeader (some (delimiter, line.number)) metadata rest
      | .attributeEntry name value => do
        recordEntry name value
        scanHeader none metadata rest
      | shape =>
        match metadata.add? shape with
        | some added => scanHeader none added rest
        | none => do
          setLines (line :: rest)
          return metadata

/-- The attribute entries and comments that follow the title and the author lines. -/
def readHeaderEntries : List Line → Reading Unit
  | [] => setLines []
  | line :: rest =>
    match line.shape with
    | .attributeEntry name value => do
      recordEntry name value
      readHeaderEntries rest
    | .comment _ => readHeaderEntries rest
    | _ => setLines (line :: rest)

/-- Whether a line can name the authors or the revision. -/
def isHeaderText (shape : Line.Shape) : Bool :=
  match shape with
  | .plainText _ | .term .. => true
  | _ => false

/-- The author line and the revision line behind a title: the authors, the revision if there is
one, and the lines behind. -/
def authorLines : List Line → List Author × Option Text × List Line
  | [] => ([], none, [])
  | first :: rest =>
    if isHeaderText first.shape then
      match rest with
      | second :: behind =>
        if isHeaderText second.shape then (authorsOf first, some (trim second.input), behind)
        else (authorsOf first, none, rest)
      | [] => (authorsOf first, none, [])
    else ([], none, first :: rest)

/-- A document header with the revision that was given with it. -/
structure HeaderRead where
  header : Header
  revision : Option Text

/-- Read the document header, if the lines start with one. -/
def readHeader : Reading (Option HeaderRead) := do
  let start := (← get).lines
  let metadata ← scanHeader none .empty start
  match (← get).lines with
  | [] =>
    setLines start
    return none
  | line :: rest =>
    match line.shape with
    | .sectionTitle ['='] title =>
      let (authors, revision, behind) := authorLines rest
      readHeaderEntries behind
      let info :=
        { lineno := line.number, title := some title, id := metadata.id
          attributes := metadata.attributes }
      return some { header := { info, level := 0, authors }, revision }
    | _ =>
      setLines start
      return none

end AsciidocSpans.Blocks
