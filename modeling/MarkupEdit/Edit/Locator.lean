import MarkupEdit.Edit.Element
import MarkupEdit.Edit.Request
import MarkupEdit.Text.Ascii
import MarkupEdit.Text.Lines

/-!
# Locating elements

Positions go stale, texts change as they are typed, ids are rare, and classes are shared. So every
hint that is given is tried, in a fixed order, and the first that leads to an element counts.

* `byPosition?`, `byText?`, `byId?`, `byClass?`: the element that a hint leads to.
* `locate`: the path of the target, and the hint that led to it.
-/

namespace MarkupEdit.Edit

open MarkupEdit.Number MarkupEdit.Text MarkupEdit.Tree

/-- A candidate and how far it is from the wanted place. -/
abbrev Measured := Nat × Element

/-- The first candidate that is nearest. -/
def nearest? : List Measured → Option Measured
  | [] => none
  | candidate :: rest =>
    match nearest? rest with
    | none => some candidate
    | some other => if other.1 < candidate.1 then some other else some candidate

/-- How far an element starts from a position, if that is near enough or on its line. -/
def measured? (config : PositionConfig) (offset line : Nat) (element : Element) : Option Measured :=
  element.span.bind fun span =>
    let distance := (span.startByte - offset) + (offset - span.startByte)
    if distance ≤ config.tolerance || (config.sameLine && span.startRow == line) then
      some (distance, element)
    else none

/-- The element that starts nearest to a position. -/
def byPosition? (source : List Char) (config : Config) (elements : List Element)
    (hint : PositionHint) : Option Element :=
  match (LineIndex.ofText source).offsetOf? source hint.line.toNat hint.column.toNat with
  | none => none
  | some offset =>
    (nearest? (elements.filterMap
      (measured? config.position offset (hint.line.toNat - 1)))).map Prod.snd

/-- The elements with a name, or all of them. -/
def ofTag (tag : Option String) (elements : List Element) : List Element :=
  match tag with
  | none => elements
  | some name => elements.filter (·.name == name)

/-- How much of the longer of two texts the shorter one is. -/
structure Similarity where
  shorter : Nat
  longer : Nat
  deriving DecidableEq, Repr

namespace Similarity

def ofLengths (m n : Nat) : Similarity := ⟨min m n, max m n⟩

/-- Whether a ratio is greater than another. Of texts shorter than 2^32 no product is too large for 64
bits, so products that saturate there are the same. -/
def exceeds (a b : Similarity) : Bool := b.shorter * a.longer < a.shorter * b.longer

/-- Whether a ratio, rounded to a double, reaches a floor. Lengths count up to 32 bits. -/
def meetsFloor (s : Similarity) (floor : Double) : Bool :=
  s.longer != 0 &&
    (Double.ofRatio (min s.shorter 4294967295) (min s.longer 4294967295)).reaches floor

end Similarity

/-- How similar two texts are, if one contains the other. -/
def similarity? (text query : String) : Option Similarity :=
  let s := text.toList
  let t := query.toList
  if hasPart t s || hasPart s t then some (Similarity.ofLengths s.length t.length) else none

/-- The first element with the greatest similarity to a text. -/
def mostSimilar? (query : String) (elements : List Element) : Option (Similarity × Element) :=
  elements.foldl (fun best element =>
    if element.text == "" then best
    else
      match similarity? element.text query, best with
      | none, _ => best
      | some s, none => some (s, element)
      | some s, some (t, _) => if s.exceeds t then some (s, element) else best) none

/-- The element that shows a text, or else the most similar one, if it is similar enough. -/
def byText? (config : Config) (elements : List Element) (hint : TextHint) : Option Element :=
  let query := normalized (String.ofList (decodeReferences hint.text.toList))
  if query == "" then none
  else
    let candidates := ofTag hint.tag elements
    match candidates.find? (·.text == query) with
    | some element => some element
    | none =>
      (mostSimilar? query candidates).bind fun (similarity, element) =>
        if similarity.meetsFloor config.similarityFloor then some element else none

/-- The element with an id, counted among those that share it. -/
def byId? (elements : List Element) (hint : IdHint) : Option Element :=
  (elements.filter (·.stableId == some hint.id))[hint.index]?

/-- The first element with exactly these classes. -/
def byClass? (elements : List Element) (hint : ClassHint) : Option Element :=
  (ofTag hint.tag elements).find? (fun element =>
    (element.classes.map normalized) == some (normalized hint.value))

/-- What the hints lead to, in the order in which they count. -/
def attempts (source : List Char) (config : Config) (elements : List Element)
    (criteria : Criteria) : List (Strategy × Option Element) :=
  (criteria.byPosition.map (fun hint =>
      (Strategy.position, byPosition? source config elements hint))).toList
    ++ (criteria.byText.map (fun hint => (Strategy.text, byText? config elements hint))).toList
    ++ (criteria.byId.map (fun hint => (Strategy.id, byId? elements hint))).toList
    ++ (criteria.byClass.map (fun hint => (Strategy.className, byClass? elements hint))).toList

/-- The path of the target, and the hint that led to it. -/
def locate (tree : SourceTree) (source : String) (config : Config) (criteria : Criteria) :
    Except EditFault (Path × Strategy) :=
  if criteria.isEmpty then .error .noHint
  else
    let tried := attempts source.toList config (listElements tree config) criteria
    match tried.findSome? (fun (strategy, found) =>
        found.map (fun element => (element.path, strategy))) with
    | some target => .ok target
    | none => .error (.unmatched (tried.map Prod.fst))

end MarkupEdit.Edit
