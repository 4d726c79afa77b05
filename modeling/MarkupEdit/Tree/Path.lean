/-!
# Paths

A path leads from the root of a tree to a node by child indices. Paths are ordered as lists are:
a path comes before its extensions, and otherwise the first different index decides.

* `Path.startsWith`: a path equals or extends another.
* `Path.toString`: `/0/3/1`, and `/` for the root.
-/

namespace MarkupEdit.Tree

/-- The child indices from the root to a node. -/
abbrev Path := List Nat

namespace Path

/-- The path of the child at an index. -/
def child (p : Path) (index : Nat) : Path := p ++ [index]

/-- The path without its last index. -/
def parent? (p : Path) : Option Path := if p.isEmpty then none else some p.dropLast

/-- Whether the path equals or descends from `ancestor`. -/
def startsWith (p ancestor : Path) : Bool := ancestor.isPrefixOf p

/-- The order of a preorder walk. -/
def order : Path → Path → Ordering
  | [], [] => .eq
  | [], _ :: _ => .lt
  | _ :: _, [] => .gt
  | i :: p, j :: q => (compare i j).then (order p q)

/-- Each index behind a slash; the root is a slash alone. -/
def text (p : Path) : String :=
  if p.isEmpty then "/" else String.join (p.map (fun i => "/" ++ toString i))

end Path

end MarkupEdit.Tree
