import AsciidocSpans.Yaml.Style

/-!
Writing a dictionary as a YAML text, in block style. Dictionaries are sorted by key; a list that is
the value of a key stands in the column of the key; what is empty is written in flow style. A key
that is empty, long or broken over lines is written behind a question mark.
-/

set_option autoImplicit false
set_option relaxedAutoImplicit false

namespace AsciidocSpans.Yaml

/-- The text of a floating-point number, which always has a point. -/
def floatText : Binary64 → Text
  | .infinite negative => Binary64.withMinus negative ".inf".toList
  | .notANumber => ".nan".toList
  | x =>
    if x.text.contains '.' then x.text
    else x.text.flatMap fun c ↦ if c = 'e' then ['.', '0', 'e'] else [c]

/-- A number with at least so many digits. -/
def padded (width n : Nat) : Text :=
  let digits := (toString n).toList
  List.replicate (width - digits.length) '0' ++ digits

/-- The text of a time. -/
def clockText (time : ClockTime) : Text :=
  let fine := if time.microsecond = 0 then [] else '.' :: padded 6 time.microsecond
  let zone := match time.ahead with
    | some minutes =>
      (if minutes < 0 then '-' else '+') :: padded 2 (minutes.natAbs / 60) ++
        ':' :: padded 2 (minutes.natAbs % 60)
    | none => []
  padded 2 time.hour ++ ':' :: padded 2 time.minute ++ ':' :: padded 2 time.second ++ fine ++ zone

/-- The text of a moment. -/
def momentText (moment : Moment) : Text :=
  let day := padded 4 moment.year ++ '-' :: padded 2 moment.month ++ '-' :: padded 2 moment.day
  match moment.time with
  | some time => day ++ ' ' :: clockText time
  | none => day

/-! ### Order -/

/-- The text by which a key is sorted. -/
def sortText : Value → Text
  | .text t => t
  | key => key.shown

/-- Entries sorted by key. -/
def sortedEntries (entries : List (Value × Value)) : List (Value × Value) :=
  entries.mergeSort fun a b ↦ String.ofList (sortText a.1) ≤ String.ofList (sortText b.1)

mutual

/-- A value with all its dictionaries sorted. -/
def sorted : Value → Value
  | .list items => .list (sortedAll items)
  | .dictionary entries => .dictionary (sortedEntries (sortedWithin entries))
  | value => value

/-- Values with all their dictionaries sorted. -/
def sortedAll : List Value → List Value
  | [] => []
  | item :: rest => sorted item :: sortedAll rest

/-- Entries with all dictionaries in them sorted. -/
def sortedWithin : List (Value × Value) → List (Value × Value)
  | [] => []
  | (key, value) :: rest => (sorted key, sorted value) :: sortedWithin rest

end

/-! ### Keys -/

/-- The greatest length of a text that is written before its colon. -/
def greatestKeyLength : Nat :=
  122

/-- Whether a key is written before its colon. -/
def isSimpleKey : Value → Bool
  | .text t => !t.isEmpty && !hasBreak t && t.length ≤ greatestKeyLength
  | .list items => items.isEmpty
  | .dictionary entries => entries.isEmpty
  | _ => true

/-! ### Values -/

/-- Where a value stands. -/
inductive Place where
  | key
  | value
  | item
  deriving DecidableEq, Repr

/-- The column of the entries of a collection, given that of the collection around it. The items of
a list that is a value stand in the column of its key, unless the value has a mark of its own. -/
def entryColumn (isList : Bool) (place : Place) (outer : Option Nat) (sheet : Sheet) : Nat :=
  match outer with
  | none => 0
  | some column =>
    if isList && place == .value && !sheet.isIndented then column else column + 2

/-- Write a word that stands for a value. -/
def putWord (sheet : Sheet) (word : Text) : Sheet :=
  sheet.beginContent.put word

mutual

/-- Write a value, given the column of the entries among which it stands. -/
def putValue (place : Place) (outer : Option Nat) (sheet : Sheet) : Value → Sheet
  | .null => putWord sheet "null".toList
  | .boolean true => putWord sheet "true".toList
  | .boolean false => putWord sheet "false".toList
  | .integer n => putWord sheet (Text.ofInt n)
  | .float x => putWord sheet (floatText x)
  | .moment m => putWord sheet (momentText m)
  | .text t => putText (place != .key) (outer.elim 2 (· + 2)) sheet t
  | .list [] => putWord sheet ['[', ']']
  | .list (item :: rest) => putItems (entryColumn true place outer sheet) sheet (item :: rest)
  | .dictionary [] => putWord sheet ['\x7b', '\x7d']
  | .dictionary (entry :: rest) =>
    putEntries (entryColumn false place outer sheet) sheet (entry :: rest)

/-- Write the items of a list in a column. -/
def putItems (column : Nat) (sheet : Sheet) : List Value → Sheet
  | [] => sheet
  | item :: rest =>
    let start := (sheet.indentTo column).mark '-'
    putItems column (putValue .item (some column) start item) rest

/-- Write the entries of a dictionary in a column. -/
def putEntries (column : Nat) (sheet : Sheet) : List (Value × Value) → Sheet
  | [] => sheet
  | (key, value) :: rest =>
    let start := sheet.indentTo column
    let behind :=
      if isSimpleKey key then (putValue .key (some column) start key).close [':']
      else ((putValue .value (some column) (start.mark '?') key).indentTo column).mark ':'
    putEntries column (putValue .value (some column) behind value) rest

end

/-- The text of a dictionary with some entries. -/
def write (entries : List (Value × Value)) : Text :=
  ((putValue .value none {} (sorted (.dictionary entries))).indentTo 0).written

end AsciidocSpans.Yaml
