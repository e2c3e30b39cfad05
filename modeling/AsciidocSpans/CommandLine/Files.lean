import AsciidocSpans.Text.Basic

/-!
The files that a run can look at, by their paths. Two paths may lead to one file: a path is walked
name by name, some names lead nowhere else and others lead back. Behind a file there is nothing to
walk to. A directory is there if something is below it, or if it is given itself, by a path that
ends in a slash.
-/

set_option autoImplicit false
set_option relaxedAutoImplicit false

namespace AsciidocSpans.CommandLine

/-- Files with their contents. -/
abbrev Files := List (Text × Text)

/-- What a path leads to. -/
inductive FileEntry where
  | file (contents : Text)
  | directory
  | missing
  deriving DecidableEq, Repr

/-- Whether a name in a path stands for the place that it is in. -/
def isSamePlace (name : Text) : Bool :=
  name.isEmpty || name = ['.']

/-- Whether a name in a path leads back to the place around. -/
def leadsBack (name : Text) : Bool :=
  name = ['.', '.']

/-- The place around another one, both by the names that lead there. -/
def placeAround (names : List Text) : List Text :=
  match names.getLast? with
  | none => [['.', '.']]
  | some last =>
    if leadsBack last then names ++ [['.', '.']]
    else if last = ['/'] then names
    else names.dropLast

/-- The place behind a name, if nothing is in the way. -/
def placeBehind (reached : List Text) (name : Text) : List Text :=
  if isSamePlace name then reached
  else if leadsBack name then placeAround reached
  else reached ++ [name]

/-- Where a path starts. -/
def startOf (path : Text) : List Text :=
  if path.head? = some '/' then [['/']] else []

/-- The names that lead to where a path leads. -/
def pathNames (path : Text) : List Text :=
  (path.cutAt '/').foldl placeBehind (startOf path)

/-- What the rest of a path leads to from the place that is reached. -/
def walk (files : Files) (reached : List Text) : List Text → FileEntry
  | [] => .directory
  | name :: rest =>
    let next := placeBehind reached name
    if isSamePlace name || leadsBack name then walk files next rest
    else match files.find? fun file ↦ pathNames file.1 == next && !Text.endsWith file.1 ['/'] with
      | some file => if rest.isEmpty then .file file.2 else .missing
      | none =>
        if files.any fun file ↦ next.isPrefixOf (pathNames file.1) then walk files next rest
        else .missing

/-- What a path leads to. -/
def entryAt (files : Files) (path : Text) : FileEntry :=
  match files.lookup path with
  | some contents => .file contents
  | none => if path.isEmpty then .missing else walk files (startOf path) (path.cutAt '/')

/-- The path that some names make. -/
def pathOf : List Text → Text
  | [] => ['.']
  | ['/'] :: rest => '/' :: Text.joinWith ['/'] rest
  | names => Text.joinWith ['/'] names

/-- The shortest path to where a path leads. -/
def shortestPath (path : Text) : Text :=
  pathOf (pathNames path)

/-- The path of the directory that the shortest path to somewhere goes through last. -/
def directoryOf (path : Text) : Text :=
  pathOf (placeAround (pathNames path))

end AsciidocSpans.CommandLine
