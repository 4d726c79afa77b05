import MarkupEdit.Tree.EditScript

/-!
# Walking a tree

A walk enters every node in front of its children and leaves it behind them. A visitor with a state
of its own sees each node with its place, and may stop the walk, skip the children of a node, or ask
for a change of it. Nodes deeper than a limit abandon the walk. Nodes can be nested deep, so the
walk keeps stacks of its own: the open nodes, the nodes around the current one, and its path.

* `traverse`: the walk.
* `tour`: the same by recursion; `Proofs/Tree/Tour` shows that the walk makes the same calls.
* `collect`, `find?`: the nodes that satisfy a condition, in document order.
* `walkEditing`, `walkInPlace`: a walk and the changes that were asked for.
-/

namespace MarkupEdit.Tree

/-- The limit on depth unless another one is asked for. -/
def defaultMaxDepth : Nat := 500

/-- Where a walk is. -/
structure Place where
  /-- The nodes around the current one, nearest first. -/
  above : List Node
  /-- The child indices that lead to it, last first. -/
  steps : List Nat

namespace Place

def root : Place := ⟨[], []⟩

/-- The place of the child at an index of the node at this place. -/
def child (p : Place) (node : Node) (index : Nat) : Place := ⟨node :: p.above, index :: p.steps⟩

/-- The place with one more node around it. -/
def within (p : Place) (node : Node) : Place := { p with above := node :: p.above }

/-- The place without the nearest of the nodes around it. -/
def outside (p : Place) : Place := { p with above := p.above.tail }

/-- The place with one more index behind its path. -/
def step (p : Place) (index : Nat) : Place := { p with steps := index :: p.steps }

/-- The place without the last index of its path. -/
def unstep (p : Place) : Place := { p with steps := p.steps.tail }

def path (p : Place) : Path := p.steps.reverse

/-- The number of nodes around the current one. -/
def depth (p : Place) : Nat := p.above.length

def parent? (p : Place) : Option Node := p.above.head?

/-- The nodes around the current one, the root first. -/
def ancestors (p : Place) : List Node := p.above.reverse

end Place

/-- What a visitor asks for at a node. -/
structure Control where
  stop : Bool
  skip : Bool
  edit : Option Edit

def Control.none : Control := ⟨false, false, .none⟩

/-- What is done at a node, with a state that passes from node to node. -/
abbrev Hook (σ : Type) := Node → Place → σ → σ × Control

/-- The hooks of a walk. -/
structure Visitor (σ : Type) where
  enter : Hook σ
  leave : Hook σ

/-- How a walk ended. -/
inductive Completion where
  | finished
  | stopped
  | depthLimitExceeded (limit : Nat)
  deriving DecidableEq, Repr

/-- What came out of a walk. -/
structure Traversal (σ : Type) where
  completion : Completion
  /-- The number of nodes that were entered. -/
  visited : Nat
  edits : EditScript
  state : σ

/-- A walk in progress. -/
structure Walker (σ : Type) where
  /-- The nodes whose children are being walked, the innermost first, each with the index of its
  next child. -/
  frames : List (Node × Nat)
  /-- The nodes around the current one, and its path. -/
  place : Place
  /-- What came out of the walk so far. -/
  result : Traversal σ

namespace Traversal

variable {σ : Type}

def start (state : σ) : Traversal σ := ⟨.finished, 0, [], state⟩

/-- Notes a change that was asked for. -/
def note (t : Traversal σ) (place : Place) : Option Edit → Traversal σ
  | some edit => { t with edits := t.edits.record place.path edit }
  | none => t

end Traversal

/-- What to do behind the entry of a node. -/
inductive Onward where
  | descend
  | leave
  | settled
  | halt
  deriving DecidableEq

section

variable {σ : Type} (visitor : Visitor σ) (limit : Nat)

/-- Enters a node. A node with a change is settled: neither its children nor its end are visited. -/
def enterNode (node : Node) (place : Place) (t : Traversal σ) : Traversal σ × Onward :=
  if limit < place.depth then
    ({ t with completion := .depthLimitExceeded limit }, .halt)
  else
    let (state, control) := visitor.enter node place t.state
    let t := { t with visited := t.visited + 1, state := state }
    let t := t.note place control.edit
    if control.stop then ({ t with completion := .stopped }, .halt)
    else if control.edit.isSome then (t, .settled)
    else if control.skip then (t, .leave)
    else (t, .descend)

/-- Leaves a node; the answer tells whether the walk goes on. -/
def leaveNode (node : Node) (place : Place) (t : Traversal σ) : Traversal σ × Bool :=
  let (state, control) := visitor.leave node place t.state
  let t := ({ t with state := state } : Traversal σ).note place control.edit
  if control.stop then ({ t with completion := .stopped }, false) else (t, true)

/-- Enters the node at the end of the path and, if its children are to be visited, opens it. Its
index leaves the path when the node is done. The answer tells whether the walk goes on. -/
def visitNode (node : Node) (w : Walker σ) : Walker σ × Bool :=
  match enterNode visitor limit node w.place w.result with
  | (t, .descend) =>
    ({ frames := (node, 0) :: w.frames, place := w.place.within node, result := t }, true)
  | (t, .leave) =>
    match leaveNode visitor node w.place t with
    | (t, true) => ({ w with place := w.place.unstep, result := t }, true)
    | (t, false) => ({ w with result := t }, false)
  | (t, .settled) => ({ w with place := w.place.unstep, result := t }, true)
  | (t, .halt) => ({ w with result := t }, false)

/-- One step of the walk: the next child of the innermost open node, or its end. -/
def walkStep (w : Walker σ) : Walker σ × Bool :=
  match w.frames with
  | [] => (w, false)
  | (node, index) :: frames =>
    match node.children[index]? with
    | none =>
      let place := w.place.outside
      match leaveNode visitor node place w.result with
      | (t, true) => (⟨frames, place.unstep, t⟩, true)
      | (t, false) => (⟨frames, place, t⟩, false)
    | some child =>
      visitNode visitor limit child
        { w with frames := (node, index + 1) :: frames, place := w.place.step index }

/-- Walks until no node is open. -/
def walk : Nat → Walker σ → Traversal σ
  | 0, w => w.result
  | fuel + 1, w =>
    match walkStep visitor limit w with
    | (w, true) => walk fuel w
    | (w, false) => w.result

end

mutual

/-- The number of nodes of a tree. -/
def Node.count : Node → Nat
  | ⟨_, _, _, _, _, children, _⟩ => Node.countAll children + 1

def Node.countAll : List Node → Nat
  | [] => 0
  | n :: rest => n.count + Node.countAll rest

end

/-- Walks a tree. Every node takes at most two steps. -/
def traverse {σ : Type} (root : Node) (visitor : Visitor σ) (limit : Nat) (state : σ) :
    Traversal σ :=
  match visitNode visitor limit root ⟨[], Place.root, Traversal.start state⟩ with
  | (w, true) => walk visitor limit (2 * root.count) w
  | (w, false) => w.result

/-! ## By recursion -/

section

variable {σ : Type} (visitor : Visitor σ) (limit : Nat)

mutual

/-- Walks a node. A node that is too deep, or at which the visitor asks to stop, ends the whole
walk; one with a change is settled; one to be skipped is left at once; any other is left behind its
children. The answer tells whether the walk goes on. -/
def tour : Node → Place → Traversal σ → Traversal σ × Bool
  | ⟨kind, field, span, leading, text, children, trailing⟩, place, t =>
    let node : Node := ⟨kind, field, span, leading, text, children, trailing⟩
    if limit < place.depth then ({ t with completion := .depthLimitExceeded limit }, false)
    else
      let (state, control) := visitor.enter node place t.state
      let entered : Traversal σ := { t with visited := t.visited + 1, state := state }
      let entered := entered.note place control.edit
      if control.stop then ({ entered with completion := .stopped }, false)
      else if control.edit.isSome then (entered, true)
      else if control.skip then leaveNode visitor node place entered
      else
        match tourAll node place 0 children entered with
        | (t, true) => leaveNode visitor node place t
        | (t, false) => (t, false)

/-- Walks some children of a node, one after the other; the first of them has the given index. -/
def tourAll (parent : Node) (place : Place) : Nat → List Node → Traversal σ → Traversal σ × Bool
  | _, [], t => (t, true)
  | index, child :: rest, t =>
    match tour child (place.child parent index) t with
    | (t, true) => tourAll parent place (index + 1) rest t
    | (t, false) => (t, false)

end

end

/-! ## Walks for a purpose -/

/-- A visitor that acts on entry only. -/
def Visitor.onEnter {σ : Type} (enter : Hook σ) : Visitor σ :=
  ⟨enter, fun _ _ state => (state, Control.none)⟩

/-- A node and where it was found. -/
structure Found where
  node : Node
  place : Place

/-- Every node that satisfies a condition, in document order, as far as the limit lets the walk go.
-/
def collect (root : Node) (limit : Nat) (condition : Node → Bool) : List Found :=
  let hook : Hook (List Found) := fun node place found =>
    (if condition node then ⟨node, place⟩ :: found else found, Control.none)
  (traverse root (.onEnter hook) limit []).state.reverse

/-- The first node that satisfies a condition. -/
def find? (root : Node) (limit : Nat) (condition : Node → Bool) : Option Found :=
  let hook : Hook (Option Found) := fun node place found =>
    if condition node then (some ⟨node, place⟩, ⟨true, false, none⟩) else (found, Control.none)
  (traverse root (.onEnter hook) limit none).state

/-- Walks a tree and makes the changes that were asked for: their number, and the new tree. -/
def walkEditing {σ : Type} (root : Node) (limit : Nat) (hook : Hook σ) (state : σ) :
    Except SyntaxFault (Nat × Node) :=
  let t := traverse root (.onEnter hook) limit state
  match t.completion with
  | .depthLimitExceeded limit =>
    .error (.visit ("tree is deeper than the limit of " ++ toString limit))
  | _ => (t.edits.apply root).map (fun tree => (t.edits.length, tree))

/-- Walks a tree that is held in some place: the number of changes that were made, and the tree that
is held there afterwards. -/
def walkInPlace {σ : Type} (root : Node) (limit : Nat) (hook : Hook σ) (state : σ) :
    Except SyntaxFault Nat × Node :=
  match walkEditing root limit hook state with
  | .ok (count, tree) => (.ok count, tree)
  | .error fault => (.error fault, root)

/-- Hooks by kind. Those for any node come before those for a kind. -/
structure HookTable (σ : Type) where
  any : List (Node → Place → σ × Control → σ × Control)
  enter : List (Kind × (Node → Place → σ × Control → σ × Control))
  leave : List (Kind × (Node → Place → σ × Control → σ × Control))

/-- The visitor that runs the hooks of a table one after the other. -/
def HookTable.visitor {σ : Type} (table : HookTable σ) : Visitor σ where
  enter node place state :=
    (table.any ++ (table.enter.filter (·.1 == node.kind)).map (·.2)).foldl
      (fun acc hook => hook node place acc) (state, Control.none)
  leave node place state :=
    ((table.leave.filter (·.1 == node.kind)).map (·.2)).foldl
      (fun acc hook => hook node place acc) (state, Control.none)

end MarkupEdit.Tree
