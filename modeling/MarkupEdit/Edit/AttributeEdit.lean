import MarkupEdit.Edit.Request
import MarkupEdit.Edit.Target

/-!
# Attributes of an element

An attribute is set, added or removed. All others keep their text.

* `setAttribute`: an element with a change of one attribute.
-/

namespace MarkupEdit.Edit

open MarkupEdit.Text MarkupEdit.Tree

/-- Names of attributes: letters, digits, `-`, `_`, `.` and at most one `:`, with a letter or `_` in
front. -/
def isAttributeName (name : String) : Bool :=
  match name.toList with
  | [] => false
  | first :: rest =>
    (isAsciiLetter first || first == '_')
      && rest.all (fun c => isAsciiAlphanumeric c || ['-', '_', '.', ':'].contains c)
      && rest.count ':' ≤ 1

/-- The node for a value of an attribute and what is shown for it; none removes the attribute. -/
def written? : Option AttributeValue → Option (Option Node × String)
  | none => none
  | some (.flag false) => none
  | some (.flag true) => some (none, "true")
  | some (.text text) => some (some (.attributeValue text), text)

/-- What a change of an attribute does to the opening tag. -/
inductive AttributeChange where
  | none
  | remove (index : Nat) (old : AttributeContent)
  | replace (index : Nat) (previous : Node) (new : Node) (shown : String)
  | append (new : Node) (shown : String)

namespace AttributeChange

/-- The change that sets an attribute of an opening tag. -/
def of (opening : Node) (name : String) (value : Option AttributeValue) : AttributeChange :=
  let existing := opening.attributeIndex? name
  match existing, existing.bind (opening.children[·]?), written? value with
  | some index, some previous, some (node, shown) =>
    replace index previous (inPlaceOf (.markupAttribute name node) previous) shown
  | some index, some previous, .none => remove index (attributeContent previous)
  | _, _, some (node, shown) => append (.markupAttribute name node) shown
  | _, _, .none => none

/-- The opening tag with the change made. -/
def apply (opening : Node) : AttributeChange → Node
  | none => opening
  | remove index _ => opening.withChildren (opening.children.eraseIdx index)
  | replace index _ new _ => opening.withChildren (opening.children.set index new)
  | append new _ => opening.withChildren (opening.children.insertIdx opening.attributeEnd new)

/-- The change as it is reported. -/
def reported (path : String) : AttributeChange → List Change
  | none => []
  | remove _ old => [.removed path old.shown]
  | replace _ previous _ shown => [.modified path (attributeContent previous).shown shown]
  | append _ shown => [.added path shown]

end AttributeChange

/-- An element with a change of one attribute. -/
def setAttribute (element : Node) (name : String) (value : Option AttributeValue) : Node :=
  element.updateOpening (fun opening => (AttributeChange.of opening name value).apply opening)

/-- Sets an attribute of the element at a path. The one with the stable ids is protected. -/
def editAttribute (tree : SourceTree) (path : Path) (name : String) (value : Option AttributeValue)
    (config : Config) : Except EditFault (SourceTree × List Change) :=
  if name == config.idAttribute then .error (.protectedAttribute name)
  else if !isAttributeName name then .error (.attributeName name)
  else do
    let element ← elementAt tree path
    match element.opening? with
    | none => throw (.notAnElement path)
    | some opening =>
      return (← placed tree path (setAttribute element name value),
        (AttributeChange.of opening name value).reported (attributePath path name))

end MarkupEdit.Edit
