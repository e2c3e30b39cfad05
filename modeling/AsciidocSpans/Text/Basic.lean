/-!
Text as a sequence of code points. Columns, offsets and lengths count characters, so a text is
the list of its characters, and `length`, `take` and `drop` measure exactly what positions
measure. Lines end at `'\n'` and nowhere else: `lines` cuts there and `unlines` joins again, and
`unlines_lines` says that nothing is lost on the way.
-/

set_option autoImplicit false
set_option relaxedAutoImplicit false

namespace AsciidocSpans

/-- A text is the list of its code points. -/
abbrev Text := List Char

namespace Text

/-- A text cut at every occurrence of a character, which belongs to no part. -/
def cutAt (separator : Char) : Text → List Text
  | [] => [[]]
  | c :: rest =>
    if c = separator then [] :: cutAt separator rest
    else match cutAt separator rest with
      | [] => [[c]]
      | part :: others => (c :: part) :: others

/-- Texts joined by a separator. -/
def joinWith (separator : Text) : List Text → Text
  | [] => []
  | [last] => last
  | first :: rest => first ++ separator ++ joinWith separator rest

/-- The lines of a text: cut at every newline, which belongs to no line. -/
def lines (text : Text) : List Text :=
  cutAt '\n' text

/-- Lines joined by newlines. -/
def unlines (parts : List Text) : Text :=
  joinWith ['\n'] parts

/-- A text without the characters at its end that satisfy a test. -/
def dropRightWhile (test : Char → Bool) (text : Text) : Text :=
  (text.reverse.dropWhile test).reverse

/-- A text without its last `n` characters. -/
def dropRight (n : Nat) (text : Text) : Text :=
  text.take (text.length - n)

/-- Whether a text ends with the given characters. -/
def endsWith (text ending : Text) : Bool :=
  ending.isSuffixOf text

/-- Line endings made uniform: a carriage return, with a newline after it or not, is a newline. -/
def uniformNewlines : Text → Text
  | [] => []
  | '\r' :: '\n' :: rest => '\n' :: uniformNewlines rest
  | c :: rest => (if c = '\r' then '\n' else c) :: uniformNewlines rest

/-- The text of a number in decimal digits. -/
def ofInt (n : Int) : Text :=
  (toString n).toList

theorem cutAt_ne_nil (separator : Char) (text : Text) : cutAt separator text ≠ [] := by
  cases text with
  | nil => simp [cutAt]
  | cons c rest =>
    rw [cutAt]
    split
    · simp
    · split <;> simp

theorem joinWith_cons (separator first : Text) {rest : List Text} (h : rest ≠ []) :
    joinWith separator (first :: rest) = first ++ separator ++ joinWith separator rest := by
  cases rest with
  | nil => exact absurd rfl h
  | cons => rfl

/-- Joining the parts of a cut text gives the text back. -/
theorem joinWith_cutAt (separator : Char) (text : Text) :
    joinWith [separator] (cutAt separator text) = text := by
  induction text with
  | nil => rfl
  | cons c rest ih =>
    rw [cutAt]
    split
    · next hc => rw [joinWith_cons _ _ (cutAt_ne_nil separator rest), ih, hc]; rfl
    · split
      · next hrest => exact absurd hrest (cutAt_ne_nil separator rest)
      · next part others hrest =>
        rw [hrest] at ih
        cases others with
        | nil => exact congrArg (c :: ·) ih
        | cons => exact congrArg (c :: ·) ih

theorem lines_ne_nil (text : Text) : lines text ≠ [] :=
  cutAt_ne_nil '\n' text

/-- Joining the lines of a text gives the text back. -/
theorem unlines_lines (text : Text) : unlines (lines text) = text :=
  joinWith_cutAt '\n' text

end Text

end AsciidocSpans
