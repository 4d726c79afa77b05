import MarkupEdit.Style.Key

/-!
# Class lists

The classes of an element, in order, as tokens. Where two classes conflict, the one added last
stays.

* `absorb`: one class added to a list.
* `merge`: the classes of two lists, added one after the other.
* `sortClasses`: the canonical order.
-/

namespace MarkupEdit.Style

open MarkupEdit.Text

/-- Classes in the order of the source; one may stand twice. -/
abbrev ClassList := List String

namespace ClassList

/-- The classes of the value of an attribute. -/
def parse (value : String) : ClassList := words value

/-- The value of the attribute that holds the classes. -/
def text (l : ClassList) : String := " ".intercalate l

/-- Whether a class of its own takes the other one away. -/
def displaces (token other : String) : Bool :=
  token != other &&
    match Key.of? token, Key.of? other with
    | some k, some l => k.displaces l
    | _, _ => false

/-- Adds a class behind the others, without those that it displaces. A class that is there already
keeps its place. -/
def absorb (l : ClassList) (token : String) : ClassList :=
  let kept := l.filter (fun other => !displaces token other)
  if kept.contains token then kept else kept ++ [token]

/-- The classes of both lists, added one after the other to an empty list. -/
def merge (existing incoming : ClassList) : ClassList := (existing ++ incoming).foldl absorb []

/-- The classes that are in no other list. -/
def without (l dropped : ClassList) : ClassList := l.filter (fun token => !dropped.contains token)

/-- The first class that a new one would displace. -/
def findConflict? (l : ClassList) (token : String) : Option String := l.find? (displaces token)

/-- The classes at their first places. -/
def deduplicate : ClassList → ClassList
  | [] => []
  | token :: l => token :: (deduplicate l).filter (· != token)

/-- Whether a class has no variants. -/
def isPlain (token : String) : Bool := (splitVariants token.toList).1.isEmpty

/-- The place of a class in the canonical order: its category, and in it the plain classes first. -/
def rank (token : String) : Nat := 2 * (categoryOf token).rank + if isPlain token then 0 else 1

/-- The classes in their canonical order; classes of one rank keep theirs. -/
def sort (l : ClassList) : ClassList := l.mergeSort (fun a b => rank a ≤ rank b)

end ClassList

end MarkupEdit.Style
