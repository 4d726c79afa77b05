import MarkupEdit.Tree.Kind

/-!
# Nodes of a source tree

A leaf carries its text, a branch its children. The blanks in front of a node belong to it as its
leading trivia, so writing a tree out gives back every character of the text it was read from.

* `Node.body`, `Node.full`: the text of a node without and with its leading trivia.
* `Node.get`: the descendant that a list of child indices addresses.
* `Node.detached`: the same tree without source spans.
-/

namespace MarkupEdit.Tree

/-- The bytes that a node covered in the text it was read from, and the row and the column (in
bytes) of the first of them, all counted from zero. -/
structure Span where
  startByte : Nat
  endByte : Nat
  startRow : Nat
  startColumn : Nat
  deriving DecidableEq, Repr

/-- The line and the column of the start, counted from one; both fit in 32 bits. -/
def Span.lineColumn (s : Span) : Nat × Nat :=
  (min (s.startRow + 1) 4294967295, min (s.startColumn + 1) 4294967295)

/-- A node of a source tree. -/
structure Node where
  kind : Kind
  /-- The name under which the parent holds the node. -/
  field : Option String
  /-- Where the node was read; nodes made by an edit have none. -/
  span : Option Span
  /-- The text between the previous sibling, or the parent's start, and the node. -/
  leading : String
  /-- The text of a leaf. -/
  text : Option String
  children : List Node
  /-- The text between the last child and the end of a branch. -/
  trailing : String
  deriving Repr, Inhabited

namespace Node

/-- A leaf without leading trivia. -/
def leaf (kind : Kind) (text : String) : Node := ⟨kind, none, none, "", some text, [], ""⟩

/-- A mark or a keyword. -/
def token (text : String) : Node := leaf .token text

/-- A branch without leading trivia. -/
def branch (kind : Kind) (children : List Node) : Node := ⟨kind, none, none, "", none, children, ""⟩

def withLeading (n : Node) (leading : String) : Node := { n with leading := leading }

def withField (n : Node) (field : String) : Node := { n with field := some field }

mutual

/-- The text of a node without its leading trivia. -/
def body : Node → String
  | ⟨_, _, _, _, text, children, trailing⟩ => text.getD "" ++ (bodies children ++ trailing)

/-- The texts of some nodes, each behind its leading trivia. -/
def bodies : List Node → String
  | [] => ""
  | ⟨kind, field, span, leading, text, children, trailing⟩ :: rest =>
    leading ++ (body ⟨kind, field, span, leading, text, children, trailing⟩ ++ bodies rest)

end

/-- The text of a node behind its leading trivia. -/
def full (n : Node) : String := n.leading ++ n.body

mutual

/-- The node without any source span in it. -/
def detached : Node → Node
  | ⟨kind, field, _, leading, text, children, trailing⟩ =>
    ⟨kind, field, none, leading, text, detachedAll children, trailing⟩

def detachedAll : List Node → List Node
  | [] => []
  | n :: rest => detached n :: detachedAll rest

end

/-- Whether a node is the given mark or keyword. -/
def isToken (n : Node) (text : String) : Bool := n.kind == .token && n.text == some text

/-- The first child that is held under a field. -/
def childByField? (n : Node) (field : String) : Option Node :=
  n.children.find? (·.field == some field)

/-- The first child of a kind. -/
def childOfKind? (n : Node) (kind : Kind) : Option Node := n.children.find? (·.kind == kind)

/-- A node that is neither a token nor a comment. -/
def isNamed (n : Node) : Bool := n.kind != .token && n.kind != .comment

/-- The children that are neither tokens nor comments. -/
def namedChildren (n : Node) : List Node := n.children.filter isNamed

/-- The descendant at the end of a list of child indices. -/
def get (n : Node) : List Nat → Option Node
  | [] => some n
  | i :: path =>
    match n.children[i]? with
    | none => none
    | some child => child.get path

end Node

end MarkupEdit.Tree
