import MarkupEdit.Edit.Target
import MarkupEdit.Text.Casing

/-!
# Texts in literals

Components often show texts out of arrays and objects. Where no element shows a text itself, the
literal that holds it is edited in its place.

* `findLiteral?`: the best literal whose whole value is a text.
* `replaceLiteral`: a tree with another value in such a literal.
* `recase`: a text in the letter case of another.
-/

namespace MarkupEdit.Edit

open MarkupEdit.Text MarkupEdit.Tree

/-- A literal that holds a text. -/
structure LiteralMatch where
  path : Path
  value : String
  /-- Whether the text has the same letter case. -/
  isExact : Bool
  isInArray : Bool
  deriving DecidableEq, Repr

/-- The match of a literal with a text, if it may be edited and holds that text. The names of
modules and the keys of objects may not. -/
def literalMatch? (query : String) (node : Node) (place : Place) : Option LiteralMatch :=
  let isModule := (place.parent?.map (·.kind == .exportStatement)).getD false
  if isModule || node.field == some "key" then none
  else
    node.staticValue?.bind fun value =>
      let isExact := normalized value == query
      if isExact || lowercase (normalized value) == lowercase query then
        some ⟨place.path, value, isExact, (place.parent?.map (·.kind == .array)).getD false⟩
      else none

/-- Collects matching literals, outside imports and attributes. -/
def literalHook (query : String) : Hook (List LiteralMatch) := fun node place found =>
  match node.kind with
  | .importStatement | .jsxAttribute => (found, { Control.none with skip := true })
  | .string | .templateString => (found ++ (literalMatch? query node place).toList, Control.none)
  | _ => (found, Control.none)

/-- The literals that hold a text, in the order of the document. -/
def literalMatches (tree : SourceTree) (query : String) (config : Config) : List LiteralMatch :=
  (traverse tree.root (.onEnter (literalHook query)) config.maxDepth []).state

/-- How far a match is from the best kind: arrays come first if they are preferred, then exact case.
-/
def LiteralMatch.rank (config : LiteralConfig) (found : LiteralMatch) : Nat :=
  (if config.preferArrays && !found.isInArray then 2 else 0) + if found.isExact then 0 else 1

/-- The first match of the best kind. -/
def bestLiteral? (config : LiteralConfig) : List LiteralMatch → Option LiteralMatch
  | [] => none
  | found :: rest =>
    match bestLiteral? config rest with
    | none => some found
    | some other => if other.rank config < found.rank config then some other else some found

/-- The best literal whose whole value is a text. -/
def findLiteral? (tree : SourceTree) (text : String) (config : Config) : Option LiteralMatch :=
  let query := normalized (String.ofList (decodeReferences text.toList))
  if query == "" then none else bestLiteral? config.literals (literalMatches tree query config)

/-- The letter case of a text. -/
inductive LetterCase where
  | upper
  | lower
  | capitalized
  | mixed
  deriving DecidableEq, Repr

/-- The letter case of a text. One capital letter alone is a capitalized word. -/
def letterCase (s : List Char) : LetterCase :=
  match s.filter isAlphabetic with
  | [] => .mixed
  | first :: rest =>
    if !rest.isEmpty && (first :: rest).all isUppercase then .upper
    else if (first :: rest).all isLowercase then .lower
    else if isUppercase first then .capitalized
    else .mixed

/-- A text in the letter case of another. -/
def recase (replacement model : String) : String :=
  match letterCase model.toList with
  | .upper => uppercase replacement
  | .lower => lowercase replacement
  | .capitalized =>
    match replacement.toList with
    | [] => ""
    | first :: rest => String.ofList (upperChar first ++ rest)
  | .mixed => replacement

/-- What is written for a new text in place of a match. -/
def LiteralMatch.replacement (found : LiteralMatch) (text : String) (config : Config) : String :=
  if !found.isExact && config.literals.preserveCase then recase text found.value else text

/-- The tree with another value in the literal of a match. The quotes stay. -/
def replaceLiteral (tree : SourceTree) (found : LiteralMatch) (text : String) (config : Config) :
    Except EditFault (SourceTree × Change) :=
  match tree.get found.path with
  | none => .error (.noLiteral found.path)
  | some current =>
    let value := found.replacement text config
    let literal := inPlaceOf (.stringLiteral value (current.quote?.getD '"')) current
    (placed tree found.path literal).map (fun edited =>
      (edited, .modified found.path.text found.value value))

end MarkupEdit.Edit
