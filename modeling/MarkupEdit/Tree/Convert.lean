import MarkupEdit.Tree.Outline
import MarkupEdit.Tree.SourceTree

/-!
# Trees from outlines

The outline of a text becomes a source tree that holds the text. What stands between two nodes
becomes the leading trivia of the second, what stands behind the last node of a branch its trailing
trivia, and what stands around the root goes around the tree. Outlines are walked with a stack of
open branches, since nodes can be nested deep; those nested too deep are refused.

* `convertFrom`: the walk.
* `convert`: the tree of a text with an outline.
* `converted`: the node of an outline, by recursion; `Proofs/Tree/Conversion` shows that the walk
  builds it.
-/

namespace MarkupEdit.Tree

open MarkupEdit.Text

/-- The span of an outline. -/
def Outline.span (o : Outline) : Span := ⟨o.start.byte, o.stop, o.start.row, o.start.column⟩

/-- The node of an outline without the nodes inside it. Its trivia starts at the byte `gap`. -/
def startNode (s : List Char) (gap : Nat) (o : Outline) : Node where
  kind := o.kind
  field := o.field
  span := some o.span
  leading := slice s gap o.start.byte
  text := if o.isLeaf then some (slice s o.start.byte o.stop) else none
  children := []
  trailing := ""

/-- A branch whose children are being converted. -/
structure OpenBranch where
  /-- The branch with the children that are converted. -/
  node : Node
  /-- The byte behind the last of them. -/
  offset : Nat
  /-- The byte behind the branch. -/
  stop : Nat
  remaining : List Outline

namespace OpenBranch

/-- A branch none of whose children is converted. -/
def start (s : List Char) (gap : Nat) (o : Outline) : OpenBranch :=
  ⟨startNode s gap o, o.start.byte, o.stop, o.children⟩

/-- The branch with one more child, which ends at a byte. -/
def push (b : OpenBranch) (child : Node) (stop : Nat) : OpenBranch :=
  { b with node := { b.node with children := b.node.children ++ [child] }
           offset := max b.offset stop }

/-- The node of a branch all of whose children are converted. -/
def close (s : List Char) (b : OpenBranch) : Node :=
  { b.node with trailing := slice s b.offset b.stop }

end OpenBranch

/-- The fault of a branch that is nested too deep. -/
def tooDeepAt (language : Language) (place : Point) : SyntaxFault :=
  .tooDeep language (place.row + 1) (place.column + 1)

/-- Converts the remaining children of an open branch, then those of the branches around it; the
outermost one becomes the node. -/
def convertFrom (language : Language) (s : List Char) (b : OpenBranch) (below : List OpenBranch) :
    Except SyntaxFault Node :=
  match b, below with
  | ⟨node, offset, stop, o :: rest⟩, below =>
    let b := ⟨node, offset, stop, rest⟩
    if o.isLeaf then convertFrom language s (b.push (startNode s offset o) o.stop) below
    else if maxDepth ≤ below.length + 1 then .error (tooDeepAt language o.start)
    else convertFrom language s (.start s offset o) (b :: below)
  | ⟨node, offset, stop, []⟩, [] => .ok (OpenBranch.close s ⟨node, offset, stop, []⟩)
  | ⟨node, offset, stop, []⟩, parent :: below =>
    convertFrom language s
      (parent.push (OpenBranch.close s ⟨node, offset, stop, []⟩) stop) below
termination_by
  2 * Outline.countAll b.remaining
    + total (fun parent => 2 * Outline.countAll parent.remaining + 1) below
decreasing_by
  · have := o.count_eq
    simp only [OpenBranch.push, Outline.countAll]
    omega
  · have := o.count_eq
    simp only [OpenBranch.start, Outline.countAll, total_cons]
    omega
  · simp only [OpenBranch.push, Outline.countAll, total_cons]
    omega

/-- The node of an outline behind a gap that starts at a byte. -/
def convertRoot (language : Language) (s : List Char) (gap : Nat) (o : Outline) :
    Except SyntaxFault Node :=
  if o.isLeaf then .ok (startNode s gap o) else convertFrom language s (.start s gap o) []

/-- The tree of a text with an outline. -/
def convert (language : Language) (s : List Char) (o : Outline) : Except SyntaxFault SourceTree :=
  (convertRoot language s o.start.byte o).map fun root =>
    { root
      before := slice s 0 o.start.byte
      after := slice s o.stop (byteSize s)
      language }

/-! ## By recursion -/

/-- The byte behind some nodes, the first of which has nothing in front of it but a gap. -/
def behind (offset : Nat) (os : List Outline) : Nat := os.foldl (fun n o => max n o.stop) offset

mutual

/-- The node of an outline whose trivia starts at the byte `gap`. -/
def converted (s : List Char) (gap : Nat) : Outline → Node
  | ⟨kind, field, start, stop, children⟩ =>
    let node := startNode s gap ⟨kind, field, start, stop, children⟩
    if children.isEmpty || kind.isVerbatim then node
    else
      { node with
        children := convertedAll s start.byte children
        trailing := slice s (behind start.byte children) stop }

def convertedAll (s : List Char) (offset : Nat) : List Outline → List Node
  | [] => []
  | o :: rest => converted s offset o :: convertedAll s (max offset o.stop) rest

end

end MarkupEdit.Tree
