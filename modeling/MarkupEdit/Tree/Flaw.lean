import MarkupEdit.Grammar.Cut
import MarkupEdit.Text.Blank
import MarkupEdit.Tree.Error

/-!
# Flaws

Where and how a text leaves its language: at the stretches that its best reading passes over, and
where it takes a lexeme to be missing.

* `excerpt`: how a stretch of text begins, for a message.
* `flaws`: the flaws of a reading, in their order.
-/

namespace MarkupEdit.Tree

open MarkupEdit.Text MarkupEdit.Grammar

/-- The number of characters that an excerpt has at most. -/
def excerptSize : Nat := 40

/-- The first line of a text; of a long one, the start and three points. -/
def excerpt (s : List Char) : String :=
  let line := s.takeWhile (· != '\n')
  let line := if line.length < s.length && line.getLast? == some '\r' then line.dropLast else line
  if line.length ≤ excerptSize then String.ofList line
  else String.ofList (line.take (excerptSize - 3)) ++ "..."

/-- The flaw of the characters of a text from `first` up to `last`. -/
def flawAt (text : List Char) (first last : Nat) (problem : Problem) : Flaw :=
  let place := Point.start.after (text.take first)
  let body := (text.drop first).take (last - first)
  { start := place.byte, stop := place.byte + byteSize body, line := place.row + 1
    column := place.column + 1, excerpt := excerpt body, problem }

mutual

/-- The flaws in a subtree, which goes by `title` if it has another name here than its own: it is a
flaw itself, or those in its children are. What does not show is none itself. -/
def flawsIn (its : Items) (text : List Char) (title : Option Title) : Subtree → List Flaw
  | { label, start, stop, cost, isVisible, isMissing, production, children, .. } =>
    if title.isSome || isVisible then
      if label == .error then [flawAt text start stop .unexpected]
      else if isMissing then
        [flawAt text start start (.missing (title.getD (its.titleOf label)).name)]
      else if cost == 0 then []
      else flawsAmong its text (its.steps production) children
    else flawsAmong its text (its.steps production) children

/-- The flaws in the children of a production with the given steps. -/
def flawsAmong (its : Items) (text : List Char) (steps : List Step) : List Subtree → List Flaw
  | [] => []
  | t :: rest =>
    if t.isExtra then flawsIn its text none t ++ flawsAmong its text steps rest
    else
      flawsIn its text (steps.head?.bind (·.title)) t ++ flawsAmong its text steps.tail rest

end

/-- The flaws of a reading of a text. Where there is none, all of the text is one. -/
def flaws (its : Items) (text : List Char) : Option Subtree → List Flaw
  | some root => flawsIn its text none root
  | none =>
    [flawAt text (text.takeWhile isGap).length (dropWhileEnd isGap text).length .unexpected]

end MarkupEdit.Tree
