import MarkupEdit.Grammar.Subtree

/-!
# Stacks

Readings of a text that differ in some stretch share what they have in common. Their stacks form a
graph: a vertex stands for a state at a place of the text, and its links lead down over subtrees to
the vertices below. A head is the top of one stack, or of several that have met.

* `Stack.push`: puts a subtree onto a head.
* `Stack.merge`: lets two heads meet that are in one state at one place.
* `Stack.walk`: the paths down from a head.
* `Stack.pops`: what stands on a number of subtrees, for each vertex below them.
-/

namespace MarkupEdit.Grammar

/-- A way down: over a subtree, or to where the reader got lost. -/
structure Link where
  vertex : Nat
  subtree : Option Subtree
  deriving Inhabited

/-- A state at a place of the text. -/
structure Vertex where
  state : Nat
  links : List Link
  place : Nat
  /-- What the errors below it cost. -/
  cost : Nat
  favour : Int
  /-- The number of nodes below it. -/
  nodes : Nat
  deriving Inhabited

/-- Whether a head goes on. -/
inductive Status where
  | active
  /-- Nothing fits the next lexeme. -/
  | paused (lookahead : Subtree)
  | halted

/-- A vertex that a lost reader could go back to, `depth` subtrees down. -/
structure Milestone where
  depth : Nat
  state : Nat
  place : Nat

/-- The top of a stack. -/
structure Head where
  vertex : Nat
  status : Status
  /-- The number of nodes when the reader last got lost. -/
  nodesAtError : Nat
  milestones : Option (List Milestone)

/-- The stacks of all readings, the vertices by number. -/
structure Stack where
  vertices : Array Vertex
  heads : Array Head

namespace Stack

/-- The number of links that a vertex has at most. -/
def maxLinks : Nat := 8

/-- The number of paths that are followed at a time. -/
def maxPaths : Nat := 64

/-- A stack with nothing on it. -/
def start (state : Nat) : Stack :=
  { vertices := #[⟨state, [], 0, 0, 0, 0⟩]
    heads := #[⟨0, .active, 0, none⟩] }

def vertex (s : Stack) (number : Nat) : Vertex := s.vertices.getD number default

/-- The vertex on top of a head. -/
def top (s : Stack) (head : Nat) : Vertex :=
  ((s.heads[head]?).map fun h => s.vertex h.vertex).getD default

def isActive (s : Stack) (head : Nat) : Bool :=
  match s.heads[head]? with
  | some ⟨_, .active, _, _⟩ => true
  | _ => false

def isPaused (s : Stack) (head : Nat) : Bool :=
  match s.heads[head]? with
  | some ⟨_, .paused _, _, _⟩ => true
  | _ => false

def isHalted (s : Stack) (head : Nat) : Bool :=
  match s.heads[head]? with
  | some ⟨_, .halted, _, _⟩ => true
  | _ => false

/-! ## Heads -/

def modifyHead (head : Nat) (f : Head → Head) : Stack → Stack
  | ⟨vertices, heads⟩ => ⟨vertices, heads.modify head f⟩

def setStatus (head : Nat) (status : Status) (s : Stack) : Stack :=
  s.modifyHead head fun h => { h with status }

def remove (head : Nat) : Stack → Stack
  | ⟨vertices, heads⟩ => ⟨vertices, heads.eraseIdxIfInBounds head⟩

def swap (a b : Nat) : Stack → Stack
  | ⟨vertices, heads⟩ => ⟨vertices, heads.swapIfInBounds a b⟩

/-- Puts the head `source` into the place of `target`. -/
def moveHead (source target : Nat) (s : Stack) : Stack :=
  if source == target then s
  else match s.heads[source]?, s.heads[target]? with
    | some new, some old =>
      let new := { new with milestones := new.milestones.or old.milestones }
      (s.modifyHead target fun _ => new).remove source
    | _, _ => s

def addHead (h : Head) : Stack → Stack
  | ⟨vertices, heads⟩ => ⟨vertices, heads.push h⟩

/-- Adds a head like another one; it has no milestones. -/
def copyHead (head : Nat) (s : Stack) : Stack :=
  match s.heads[head]? with
  | some h => s.addHead { h with milestones := none }
  | none => s

/-- Whether a reading is lost, and nothing has been passed over since. -/
def isFreshlyLost (v : Vertex) : Bool :=
  v.state == 0 && v.links.head?.any fun l => l.subtree.isNone

/-- What the errors of a head cost. -/
def costOf (s : Stack) (head : Nat) : Nat :=
  let v := s.top head
  if s.isPaused head || isFreshlyLost v then v.cost + errorCost else v.cost

/-- The number of nodes since the reader last got lost. -/
def nodesSinceError (s : Stack) (head : Nat) : Nat :=
  (s.top head).nodes - ((s.heads[head]?).map (·.nodesAtError)).getD 0

/-- Forgets the nodes that a head had when it got lost and has no longer. -/
def settle (head : Nat) (s : Stack) : Stack :=
  let nodes := (s.top head).nodes
  s.modifyHead head fun h => { h with nodesAtError := min h.nodesAtError nodes }

/-- Whether something was read since the reader last got lost, or it never was. -/
def hasAdvanced (s : Stack) (head : Nat) : Bool :=
  (s.top head).cost == 0 || go s.vertices.size (s.top head)
where
  go : Nat → Vertex → Bool
    | 0, _ => false
    | fuel + 1, v =>
      match v.links with
      | ⟨below, some t⟩ :: _ =>
        t.gap < t.stop
          || (((s.heads[head]?).any fun h => h.nodesAtError < v.nodes) && t.cost == 0
            && go fuel (s.vertex below))
      | _ => false

/-! ## Pushing -/

/-- The vertex on top of another one. -/
def above (below : Nat) (v : Vertex) (state : Nat) (subtree : Option Subtree) : Vertex :=
  match subtree with
  | none => { v with state, links := [⟨below, none⟩] }
  | some t =>
    { state, links := [⟨below, some t⟩], place := t.stop, cost := v.cost + t.cost
      favour := v.favour + t.favour, nodes := v.nodes + t.nodes }

def addVertex (v : Vertex) : Stack → Stack
  | ⟨vertices, heads⟩ => ⟨vertices.push v, heads⟩

/-- Puts a subtree onto a head; without one, the reader is lost there. -/
def push (head : Nat) (subtree : Option Subtree) (state : Nat) (s : Stack) : Stack :=
  match s.heads[head]? with
  | none => s
  | some h =>
    let v := above h.vertex (s.vertex h.vertex) state subtree
    let number := s.vertices.size
    (s.addVertex v).modifyHead head fun h =>
      { h with
        vertex := number
        nodesAtError := if subtree.isNone then v.nodes else h.nodesAtError }

/-! ## Meeting -/

/-- Whether two links read the same stretch in the same way, as far as the rest is concerned. -/
def agree (a b : Option Subtree) : Bool :=
  match a, b with
  | none, none => true
  | some a, some b =>
    a.label == b.label
      && ((0 < a.cost && 0 < b.cost)
        || (a.start - a.gap == b.start - b.gap && a.stop - a.start == b.stop - b.start
          && a.children.length == b.children.length && a.isExtra == b.isExtra))
  | _, _ => false

/-- Whether two vertices are one state at one place. -/
def coincide (a b : Vertex) : Bool :=
  a.state == b.state && a.place == b.place && a.cost == b.cost

def linkFavour (l : Link) : Int := (l.subtree.map (·.favour)).getD 0

def modifyVertex (number : Nat) (f : Vertex → Vertex) : Stack → Stack
  | ⟨vertices, heads⟩ => ⟨vertices.modify number f, heads⟩

/-- Adds a link to a vertex. Of two links that agree, the more welcome one is kept; if the vertices
below them coincide, they meet in turn. -/
def addLink : Nat → Nat → Link → Stack → Stack
  | 0, _, _, s => s
  | fuel + 1, number, link, s =>
    if link.vertex == number then s
    else
      let v := s.vertex number
      let below := s.vertex link.vertex
      let found := v.links.findIdx? fun l =>
        agree l.subtree link.subtree
          && (l.vertex == link.vertex || coincide (s.vertex l.vertex) below)
      match found.bind fun n => (v.links[n]?).map (n, ·) with
      | some (n, l) =>
        if l.vertex == link.vertex then
          if linkFavour l < linkFavour link then
            s.modifyVertex number fun v =>
              { v with
                links := v.links.set n { l with subtree := link.subtree }
                favour := below.favour + linkFavour link }
          else s
        else
          let s := below.links.foldl (fun s link => s.addLink fuel l.vertex link) s
          s.modifyVertex number fun v =>
            { v with favour := max v.favour (below.favour + linkFavour link) }
      | none =>
        if v.links.length == maxLinks then s
        else
          let nodes := below.nodes + (link.subtree.map (·.nodes)).getD 0
          s.modifyVertex number fun v =>
            { v with
              links := v.links ++ [link]
              nodes := max v.nodes nodes
              favour := max v.favour (below.favour + linkFavour link) }

/-- Whether two heads may meet. -/
def mayMeet (s : Stack) (a b : Nat) : Bool :=
  s.isActive a && s.isActive b && coincide (s.top a) (s.top b)

/-- Lets the second of two heads that may meet go into the first one. -/
def merge (a b : Nat) (s : Stack) : Stack :=
  match s.heads[a]? with
  | none => s
  | some h =>
    let s := (s.top b).links.foldl (fun s link => s.addLink s.vertices.size h.vertex link) s
    let v := s.vertex h.vertex
    let s := if v.state == 0 then
        s.modifyHead a fun h => { h with nodesAtError := v.nodes }
      else s
    s.remove b

/-! ## Paths -/

/-- A path down from a head: where it ends, the subtrees on it from there on, and how many of them
are no extras. -/
structure Path where
  vertex : Nat
  subtrees : List Subtree
  count : Nat

/-- What to do at the end of a path. -/
structure Visit where
  /-- Whether it is one of those sought. -/
  isGoal : Bool
  /-- Whether to follow it no further. -/
  isEnd : Bool

/-- The path over one more link. -/
def Path.over (p : Path) (l : Link) : Path :=
  { vertex := l.vertex
    subtrees := match l.subtree with
      | some t => t :: p.subtrees
      | none => p.subtrees
    count := match l.subtree with
      | some t => if t.isExtra then p.count else p.count + 1
      | none => p.count + 1 }

/-- Takes each of the paths over one more link: the first link of a vertex goes on with the path,
the others start paths of their own, as long as there are not too many. The goals are last first. -/
def walkRound {α : Type} (s : Stack) (visit : α → Path → α × Visit) :
    List Path → List Path → List Path → List Path → α → List Path × List Path × α
  | [], kept, added, goals, a => (kept.reverse ++ added, goals, a)
  | p :: rest, kept, added, goals, a =>
    let (a, v) := visit a p
    let goals := if v.isGoal then p :: goals else goals
    let links := (s.vertex p.vertex).links
    match links with
    | [] => walkRound s visit rest kept added goals a
    | first :: others =>
      if v.isEnd then walkRound s visit rest kept added goals a
      else
        let room := maxPaths - (kept.length + 1 + rest.length + added.length)
        walkRound s visit rest (p.over first :: kept)
          (added ++ (others.take room).map p.over) goals a

/-- The goals among the paths down, in the order in which they are found. -/
def walk {α : Type} (s : Stack) (visit : α → Path → α × Visit) :
    Nat → List Path → List Path → α → List Path × α
  | 0, _, goals, a => (goals.reverse, a)
  | _, [], goals, a => (goals.reverse, a)
  | fuel + 1, paths, goals, a =>
    let (paths, goals, a) := walkRound s visit paths [] [] goals a
    walk s visit fuel paths goals a

/-- The goals among the paths down from a head. -/
def walkFrom {α : Type} (s : Stack) (head : Nat) (visit : α → Path → α × Visit) (a : α) :
    List Path × α :=
  match s.heads[head]? with
  | none => ([], a)
  | some h => s.walk visit (s.vertices.size + 1) [⟨h.vertex, [], 0⟩] [] a

/-- Paths that end at one vertex, together. -/
def groupPaths (paths : List Path) : List (Nat × List (List Subtree)) :=
  (paths.foldl
    (fun (groups : Array (Nat × List (List Subtree))) p =>
      match groups.findIdx? (·.1 == p.vertex) with
      | some n => groups.modify n fun (v, rows) => (v, rows ++ [p.subtrees])
      | none => groups.push (p.vertex, [p.subtrees]))
    #[]).toList

/-- What stands on a head down to a vertex `count` subtrees below, extras not counted: for each such
vertex the rows of subtrees over it. -/
def pops (s : Stack) (head count : Nat) : List (Nat × List (List Subtree)) :=
  groupPaths (s.walkFrom head (fun _ p => ((), ⟨p.count == count, p.count == count⟩)) ()).1

/-- All rows of subtrees from the bottom to a head. -/
def rows (s : Stack) (head : Nat) : List (List Subtree) :=
  (s.walkFrom head
    (fun _ p =>
      let isBottom := (s.vertex p.vertex).links.isEmpty
      ((), ⟨isBottom, false⟩)) ()).1.map (·.subtrees)

end Stack

end MarkupEdit.Grammar
