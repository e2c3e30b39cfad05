import AsciidocSpans.Yaml.Tree

/-!
Reading a YAML text: the value of its tree. Keys of a dictionary are no collections, and of entries
with equal keys the last one counts, in the place of the first. The dictionaries that a dictionary
merges come before its own entries, which count more; of several in a list the first counts most.
-/

set_option autoImplicit false
set_option relaxedAutoImplicit false

namespace AsciidocSpans.Yaml

/-! ### Dictionaries -/

/-- A number as a floating-point number if it is one, and as an integer else. -/
def number? : Value → Option (Binary64 ⊕ Int)
  | .float x => some (.inl x)
  | .integer n => some (.inr n)
  | .boolean b => some (.inr (if b then 1 else 0))
  | _ => none

/-- Whether two numbers are equal. -/
def areEqualNumbers : Binary64 ⊕ Int → Binary64 ⊕ Int → Bool
  | .inl x, .inl y => x == y || (x.isZero && y.isZero)
  | .inl x, .inr n | .inr n, .inl x => x.compareInt? n == some .eq
  | .inr m, .inr n => m == n

/-- Whether two keys are one. Numbers are compared by what they are worth. -/
def isSameKey (key other : Value) : Bool :=
  match number? key, number? other with
  | some x, some y => areEqualNumbers x y
  | none, none =>
    match key, other with
    | .null, .null => true
    | .text t, .text u => t == u
    | .moment m, .moment n => m == n
    | _, _ => false
  | _, _ => false

/-- The entries with one added, or changed if its key is already there. -/
def insertEntry (entries : List (Value × Value)) (entry : Value × Value) : List (Value × Value) :=
  if entries.any fun old ↦ isSameKey old.1 entry.1 then
    entries.map fun old ↦ if isSameKey old.1 entry.1 then (old.1, entry.2) else old
  else entries ++ [entry]

namespace Tree

/-- Whether a tree is the key whose value is merged. -/
def isMerge : Tree → Bool
  | scalar tag _ | list tag _ | dictionary tag _ => tag == .merge
  | cycle => false

mutual

/-- The entries of a dictionary behind those of the dictionaries that it merges. -/
def mergedEntries : List (Tree × Tree) → Except ValueError (List (Tree × Tree) × List (Tree × Tree))
  | [] => .ok ([], [])
  | (key, value) :: rest => do
    if key.isMerge then
      let merged ← sources value
      let (others, own) ← mergedEntries rest
      return (merged ++ others, own)
    else
      let key := match key with
        | scalar .default text => scalar .text text
        | other => other
      let (merged, own) ← mergedEntries rest
      return (merged, (key, value) :: own)

/-- The entries that a tree has for a dictionary that merges it. -/
def sources : Tree → Except ValueError (List (Tree × Tree))
  | dictionary _ entries => do
    let (merged, own) ← mergedEntries entries
    return merged ++ own
  | list _ items => listedSources items
  | scalar .. | cycle => .error .improperMerge

/-- The entries that the dictionaries of a list have for one that merges them. -/
def listedSources : List Tree → Except ValueError (List (Tree × Tree))
  | [] => .ok []
  | dictionary _ entries :: rest => do
    let (merged, own) ← mergedEntries entries
    return (← listedSources rest) ++ (merged ++ own)
  | _ :: _ => .error .improperMerge

end

/-- All entries of a dictionary. -/
def allEntries (entries : List (Tree × Tree)) : Except ValueError (List (Tree × Tree)) := do
  let (merged, own) ← mergedEntries entries
  return merged ++ own

/-! ### Values -/

mutual

/-- The depth of a tree. -/
def depth : Tree → Nat
  | scalar .. | cycle => 1
  | list _ items => depthOfAll items + 1
  | dictionary _ entries => depthOfEntries entries + 1

/-- The depth of the deepest of some trees. -/
def depthOfAll : List Tree → Nat
  | [] => 0
  | item :: rest => max item.depth (depthOfAll rest)

/-- The depth of the deepest tree in some entries. -/
def depthOfEntries : List (Tree × Tree) → Nat
  | [] => 0
  | (key, value) :: rest => max (max key.depth value.depth) (depthOfEntries rest)

end

/-- The value of a tree that is no deeper than a bound. A value holds nothing of itself: it is cut
off where the tree comes back to itself. -/
def value : Nat → Tree → Except ReadError Value
  | 0, _ => .error .outOfSteps
  | _ + 1, cycle => .ok (.list [])
  | _ + 1, scalar tag text => (tag.valueOf text).mapError .value
  | bound + 1, list tag items => do
    if tag ≠ .list then throw (.value .improperTag)
    return .list (← items.mapM (value bound))
  | bound + 1, dictionary tag entries => do
    if tag ≠ .dictionary then throw (.value .improperTag)
    let entries ← (allEntries entries).mapError .value
    return .dictionary (← entries.foldlM (fun result entry ↦ do
      let key ← value bound entry.1
      if key.isCollection then throw (.value .collectionAsKey)
      return insertEntry result (key, ← value bound entry.2)) [])

end Tree

/-- Read a text. An empty one stands for null. -/
def read (text : Text) : Except ReadError Value := do
  if !text.all isAllowed then throw .unprintable
  match ← Tree.ofText? text with
  | some tree => tree.value tree.depth
  | none => return .null

end AsciidocSpans.Yaml
