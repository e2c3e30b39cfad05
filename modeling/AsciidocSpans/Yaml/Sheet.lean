import AsciidocSpans.Text.Basic

/-!
A sheet that YAML is written on, from left to right and from top to bottom. It knows the column in
which the next character stands, and whether that is still in the indentation of its line.
-/

set_option autoImplicit false
set_option relaxedAutoImplicit false

namespace AsciidocSpans.Yaml

/-- A sheet with what is written on it. -/
structure Sheet where
  /-- What is written, the last character first. -/
  backwards : Text := []
  column : Nat := 0
  /-- Whether white space stands before the next character. -/
  isSpaced : Bool := true
  /-- Whether only indentation and the marks of items and keys stand before the next character. -/
  isIndented : Bool := true
  deriving DecidableEq, Repr

namespace Sheet

/-- What is written on a sheet. -/
def written (sheet : Sheet) : Text :=
  sheet.backwards.reverse

/-- Write text that has no line breaks. -/
def put (sheet : Sheet) (text : Text) : Sheet :=
  { sheet with
    backwards := text.reverse ++ sheet.backwards, column := sheet.column + text.length }

/-- Go to the start of the next line. -/
def newLine (sheet : Sheet) : Sheet :=
  { backwards := '\n' :: sheet.backwards }

/-- Begin content: behind a space, unless white space stands there. -/
def beginContent (sheet : Sheet) : Sheet :=
  { if sheet.isSpaced then sheet else sheet.put [' '] with isSpaced := false, isIndented := false }

/-- Write a mark that is content, directly behind what stands there. -/
def close (sheet : Sheet) (mark : Text) : Sheet :=
  { sheet.put mark with isSpaced := false, isIndented := false }

/-- Write the mark of an item or a key, behind which indentation goes on. -/
def mark (sheet : Sheet) (c : Char) : Sheet :=
  let spaced := if sheet.isSpaced then sheet else sheet.put [' ']
  { spaced.put [c] with isSpaced := false }

/-- Go to a column, on the next line if this one has content or reaches further. -/
def indentTo (sheet : Sheet) (column : Nat) : Sheet :=
  let sheet :=
    if !sheet.isIndented || column < sheet.column || (column == sheet.column && !sheet.isSpaced)
    then sheet.newLine else sheet
  if sheet.column < column then
    { sheet.put (List.replicate (column - sheet.column) ' ') with isSpaced := true }
  else sheet

/-- Go on with content on the next line, in a column. -/
def foldTo (sheet : Sheet) (column : Nat) : Sheet :=
  { sheet.indentTo column with isSpaced := false, isIndented := false }

end Sheet

end AsciidocSpans.Yaml
