import MarkupEdit.Tree.SourceTree

/-!
# Edit scripts

Changes of a tree that are collected first and made afterwards, each addressed by the path of the
node it changes. A change of a node makes the changes below it void.

* `EditScript.record`: a script with one more change.
* `EditScript.apply`: the tree after all changes, or why one of them cannot be made.
-/

namespace MarkupEdit.Tree

/-- A change of a node. -/
inductive Edit where
  | replace (node : Node)
  | remove

/-- Changes by path, in the order in which they were asked for. -/
abbrev EditScript := List (Path × Edit)

namespace EditScript

/-- Adds a change; those at the path and below it no longer count. -/
def record (script : EditScript) (path : Path) (edit : Edit) : EditScript :=
  script.filter (fun entry => !entry.1.startsWith path) ++ [(path, edit)]

/-- Makes one change. -/
def applyOne (root : Node) : Path × Edit → Except SyntaxFault Node
  | (path, .replace node) =>
    match root.update? (fun _ => some node) path with
    | some root => .ok root
    | none => .error (.visit ("no node at " ++ path.text ++ " to replace"))
  | (path, .remove) =>
    match path.getLast? with
    | none => .error (.visit "cannot remove the root node")
    | some index =>
      match root.get path.dropLast with
      | none => .error (.visit ("no parent for " ++ path.text ++ " to remove from"))
      | some parent =>
        if parent.children.length ≤ index then
          .error (.visit ("no node at " ++ path.text ++ " to remove"))
        else
          match root.update? (fun p => some (p.withChildren (p.children.eraseIdx index)))
              path.dropLast with
          | some root => .ok root
          | none => .error (.visit ("no parent for " ++ path.text ++ " to remove from"))

/-- The changes from the last in document order to the first, so that none of them moves the node
of a later one. -/
def lastFirst (script : EditScript) : EditScript :=
  (script.mergeSort (fun a b => (a.1.order b.1).isLE)).reverse

/-- Makes all changes. -/
def apply (script : EditScript) (root : Node) : Except SyntaxFault Node :=
  script.lastFirst.foldlM applyOne root

end EditScript

end MarkupEdit.Tree
