import AsciidocSpans.Node.Basic
import AsciidocSpans.Source.Basic

/-!
Validation of a tree against the text it was located in. Every node has to be of a known kind, with
a text for its literal text and integers for its offsets; its span has to be well ordered and its
offsets have to lie within the text, to agree with the span, and to contain those of all its
children. The rules are checked in this order, a node before the nodes below it.

A truth value counts as an integer here. A child's offsets are compared before the child itself is
looked at, so an offset that cannot be compared makes the comparison itself fail.
-/

set_option autoImplicit false
set_option relaxedAutoImplicit false

namespace AsciidocSpans

/-- The rule that a tree breaks. -/
inductive ValidationRule where
  | unknownKind
  | rawNotText
  | rangeNotIntegers
  | rangeOutsideText (length : Nat)
  | locationReversed
  | locationOutsideText
  | rangeMismatch
  | leafWithChildren
  | childOutsideParent (child : Text) (range : Value × Value)

/-- Why a tree is not valid. -/
inductive ValidationError where
  /-- A node breaks a rule. -/
  | broken (rule : ValidationRule) (kind : Text)
  /-- A child's offset can not be compared with that of its parent. -/
  | incomparable

/-- The wording of a rule that a node of some kind breaks. -/
def ValidationRule.message (rule : ValidationRule) (kind : Text) : String :=
  match rule with
  | unknownKind => s!"unknown node type {String.ofList kind.quoted}"
  | rawNotText => "raw must be a string"
  | rangeNotIntegers => "range must hold integer offsets"
  | rangeOutsideText length => s!"range is outside the text (length {length})"
  | locationReversed => "location ends before it starts"
  | locationOutsideText => "location lines are outside the text"
  | rangeMismatch => "range does not match location"
  | leafWithChildren => "Str nodes cannot have children"
  | childOutsideParent child range =>
    let first := String.ofList range.1.shown
    let last := String.ofList range.2.shown
    s!"child {String.ofList child} range ({first}, {last}) is outside its parent"

/-- The report that a node of some kind breaks a rule. -/
def ValidationRule.report (rule : ValidationRule) (kind : Text) : String :=
  s!"{String.ofList kind}: {rule.message kind}"

namespace LooseNode

/-- The integer that a value counts as. -/
def integer? : Value → Option Int
  | .integer n => some n
  | .boolean b => some (if b then 1 else 0)
  | _ => none

/-- Whether a value is less than an integer, or greater; only numbers can be compared, and what is
not a number is neither. -/
def compareWith? (value : Value) (n : Int) : Option Ordering :=
  match value with
  | .float x => some ((x.compareInt? n).getD .eq)
  | other => (integer? other).map fun m ↦ compare m n

/-- The offsets of a node that passes the rules about the node alone, or the rule it breaks. -/
def checkAlone (source : Source) (kind : NodeKind) (raw : Value) (location : Location)
    (range : Value × Value) (hasChildren : Bool) : Except ValidationRule (Int × Int) := do
  unless kind.isKnown do throw .unknownKind
  match raw with
  | .text _ => pure ()
  | _ => throw .rawNotText
  match integer? range.1, integer? range.2 with
  | some first, some last =>
    unless 0 ≤ first ∧ first ≤ last ∧ last ≤ source.text.length do
      throw (.rangeOutsideText source.text.length)
    unless location.start ≤ location.stop do throw .locationReversed
    unless 1 ≤ location.start.line ∧ location.stop.line ≤ source.lineCount do
      throw .locationOutsideText
    unless source.range? location = some (first, last) do throw .rangeMismatch
    if kind = .str ∧ hasChildren then throw .leafWithChildren
    return (first, last)
  | _, _ => throw .rangeNotIntegers

/-- Whether a child's offsets lie within those of its parent; none if they can not be compared. -/
def isInside? (parent : Int × Int) (range : Value × Value) : Option Bool := do
  if (← compareWith? range.1 parent.1) = .lt then return false
  else return (← compareWith? range.2 parent.2) ≠ .gt

mutual

/-- The first reason for which a tree is not valid. -/
def check (source : Source) : LooseNode → Except ValidationError Unit
  | .mk kind raw location range children =>
    match checkAlone source kind raw location range (!children.isEmpty) with
    | .error rule => .error (.broken rule kind.name)
    | .ok offsets => checkAll source kind offsets children

/-- The first reason for which the children of a node are not valid. -/
def checkAll (source : Source) (parent : NodeKind) (offsets : Int × Int) :
    List LooseNode → Except ValidationError Unit
  | [] => .ok ()
  | .mk kind raw location range children :: rest =>
    match isInside? offsets range with
    | none => .error .incomparable
    | some false => .error (.broken (.childOutsideParent kind.name range) parent.name)
    | some true => do
      check source (.mk kind raw location range children)
      checkAll source parent offsets rest

end

/-- Validate a tree against a text. -/
def validate (text : Text) (node : LooseNode) : Except ValidationError Unit :=
  check (.ofText text) node

end LooseNode

end AsciidocSpans
