/-!
# Blank characters

The characters that count as white space in text that people write: the ones with the
Unicode property `White_Space`.

* `isBlank`: the characters that are blank.
* `dropBlank`, `dropBlankEnd`, `trim`: blanks cut from the ends of a text.
* `blankWords`: the maximal runs of characters that are not blank.
-/

namespace MarkupEdit.Text

/-- A character with the property `White_Space`. -/
def isBlank (c : Char) : Bool :=
  ('\t' ≤ c && c ≤ '\r') || c == ' ' || c == '\u0085' || c == '\u00a0' || c == '\u1680'
    || ('\u2000' ≤ c && c ≤ '\u200a') || c == '\u2028' || c == '\u2029' || c == '\u202f'
    || c == '\u205f' || c == '\u3000'

/-- The text without the characters at its end that satisfy `p`. -/
def dropWhileEnd (p : Char → Bool) (s : List Char) : List Char :=
  (s.reverse.dropWhile p).reverse

/-- The text without the blanks at its start. -/
def dropBlank (s : List Char) : List Char := s.dropWhile isBlank

/-- The text without the blanks at its end. -/
def dropBlankEnd (s : List Char) : List Char := dropWhileEnd isBlank s

/-- The text without the blanks at its ends. -/
def trim (s : List Char) : List Char := dropBlankEnd (dropBlank s)

/-- The string without the blanks at its ends. -/
def trimmed (s : String) : String := String.ofList (trim s.toList)

/-- Whether a string holds nothing but blanks. -/
def allBlank (s : String) : Bool := s.toList.all isBlank

/-- The pieces of a text between the characters that satisfy `p`, empty ones included. -/
def splitAtEach (p : Char → Bool) : List Char → List (List Char)
  | [] => [[]]
  | c :: s =>
    if p c then [] :: splitAtEach p s
    else
      match splitAtEach p s with
      | [] => [[c]]
      | piece :: rest => (c :: piece) :: rest

theorem splitAtEach_ne_nil (p : Char → Bool) (s : List Char) : splitAtEach p s ≠ [] := by
  cases s with
  | nil => simp [splitAtEach]
  | cons c s =>
    by_cases h : p c = true
    · simp [splitAtEach, h]
    · cases hs : splitAtEach p s <;> simp [splitAtEach, h, hs]

/-- The maximal runs of characters that are not blank, in order. -/
def blankWords (s : List Char) : List (List Char) :=
  (splitAtEach isBlank s).filter (fun piece => !piece.isEmpty)

/-- The words of a string, in order. -/
def words (s : String) : List String := (blankWords s.toList).map String.ofList

end MarkupEdit.Text
