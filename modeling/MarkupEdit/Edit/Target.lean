import MarkupEdit.Edit.Element
import MarkupEdit.Tree.Builder

/-!
# Targets of edits

What all edits share: the element at a path, the node that takes the place of another, and changes
of the tag that opens an element.

* `elementAt`: the element at a path.
* `inPlaceOf`: a node in the place of another.
* `Node.updateOpening`: an element with another opening tag.
-/

namespace MarkupEdit.Tree.Node

/-- The element with a change in the node that carries its name and its attributes. -/
def updateOpening (change : Node → Node) (element : Node) : Node :=
  match element.kind with
  | .jsxSelfClosingElement => change element
  | .jsxElement =>
    match element.children.findIdx? (·.kind == .jsxOpeningElement) with
    | some index => { element with children := element.children.modify index change }
    | none => element
  | _ => element

/-- The node with others in place of the children between two indices. -/
def splice (n : Node) (start stop : Nat) (nodes : List Node) : Node :=
  { n with children := n.children.take start ++ (nodes ++ n.children.drop stop) }

/-- The index of the attribute with a name among the children of an opening tag. -/
def attributeIndex? (opening : Node) (name : String) : Option Nat :=
  opening.children.findIdx? (isAttribute name)

/-- Where a new attribute goes: behind the name and the last attribute. -/
def attributeEnd (opening : Node) : Nat :=
  match opening.children.reverse.findIdx? isNamed with
  | some fromEnd => opening.children.length - fromEnd
  | none => opening.children.length

end MarkupEdit.Tree.Node

namespace MarkupEdit.Edit

open MarkupEdit.Tree

/-- The element at a path. -/
def elementAt (tree : SourceTree) (path : Path) : Except EditFault Node :=
  match tree.get path with
  | some node => if node.kind.isElement then .ok node else .error (.noElement path)
  | none => .error (.noElement path)

/-- A node with the trivia and the field of the one that it replaces. -/
def inPlaceOf (node previous : Node) : Node :=
  { node with leading := previous.leading, field := previous.field.or node.field }

/-- The path of an attribute, as changes give it. -/
def attributePath (path : Path) (name : String) : String := path.text ++ "@" ++ name

/-- The tree with another node at a path. -/
def placed (tree : SourceTree) (path : Path) (node : Node) : Except EditFault SourceTree :=
  match tree.replace path node with
  | .ok (edited, _) => .ok edited
  | .error fault => .error (.tree fault)

end MarkupEdit.Edit
