import MarkupEdit.Tree.Error
import MarkupEdit.Tree.Node
import MarkupEdit.Tree.Path

/-!
# Source trees

The tree of one file with the text around it, and edits of it by path.

* `SourceTree.toSource`: the text of the file.
* `Node.update?`: a node with the descendant at a path changed.
* `SourceTree.replace`, `SourceTree.remove`, `SourceTree.insert`: edits at a path.
-/

namespace MarkupEdit.Tree

namespace Node

/-- The node with `f` applied to the descendant at a path; none if there is no such descendant or
`f` refuses it. -/
def update? (f : Node → Option Node) : List Nat → Node → Option Node
  | [], n => f n
  | i :: path, n =>
    match n.children[i]? with
    | none => none
    | some child =>
      (update? f path child).map (fun child => { n with children := n.children.set i child })

/-- The node with other children. -/
def withChildren (n : Node) (children : List Node) : Node := { n with children := children }

end Node

/-- The tree of one file. -/
structure SourceTree where
  root : Node
  /-- The text in front of the root. -/
  before : String
  /-- The text behind the root. -/
  after : String
  language : Language

namespace SourceTree

/-- The text of the file. -/
def toSource (t : SourceTree) : String := t.before ++ (t.root.full ++ t.after)

def get (t : SourceTree) (path : Path) : Option Node := t.root.get path

/-- The tree with another node at a path, and the node that was there. -/
def replace (t : SourceTree) (path : Path) (node : Node) : Except SyntaxFault (SourceTree × Node) :=
  match t.get path, t.root.update? (fun _ => some node) path with
  | some old, some root => .ok ({ t with root := root }, old)
  | _, _ => .error (.invalidPath path.text "no node at path")

/-- The tree without the node at a path, and that node. -/
def remove (t : SourceTree) (path : Path) : Except SyntaxFault (SourceTree × Node) :=
  match path.getLast? with
  | none => .error (.invalidPath path.text "the root has no parent")
  | some index =>
    match t.get path.dropLast with
    | none => .error (.invalidPath path.text "no parent at path")
    | some parent =>
      match parent.children[index]?,
          t.root.update? (fun p => some (p.withChildren (p.children.eraseIdx index)))
            path.dropLast with
      | some old, some root => .ok ({ t with root := root }, old)
      | _, _ => .error (.invalidPath path.text "child index out of range")

/-- The tree with one more node as a child of the node at a path. -/
def insert (t : SourceTree) (parent : Path) (index : Nat) (node : Node) :
    Except SyntaxFault SourceTree :=
  match t.get parent with
  | none => .error (.invalidPath parent.text "no node at path")
  | some owner =>
    if owner.children.length < index then
      .error (.invalidPath (parent.child index).text "insertion index out of range")
    else
      match t.root.update?
          (fun p => some (p.withChildren (p.children.insertIdx index node))) parent with
      | some root => .ok { t with root := root }
      | none => .error (.invalidPath parent.text "no node at path")

end SourceTree

end MarkupEdit.Tree
