import MarkupEdit.Proofs.Tree.Calls

/-!
# Nodes in the order of the document

A walk that only looks at nodes sees them in the order of the document, up to the first one that is
too deep.

* `preorder`: the nodes of a tree with their places, each in front of those inside it.
* `mem_preorder_iff`, `pairwise_preorder`: every node is there, at its path, and paths increase.
* `tour_looking`: **a walk that asks for nothing sees the nodes up to the first that is too deep.**
* `collect_eq`: what is collected.
* `Node.height`: the greatest depth of a node, which tells whether any is too deep.
* `SourceTree.Shallow`: nothing up to a place in the document is too deep.
* `Node.Throughout`: a property of all nodes of a tree.
-/

namespace MarkupEdit.Tree

mutual

/-- The nodes of a tree with their places, each in front of those inside it. -/
def preorder : Node → Place → List Found
  | ⟨kind, field, span, leading, text, children, trailing⟩, place =>
    let node : Node := ⟨kind, field, span, leading, text, children, trailing⟩
    ⟨node, place⟩ :: preorderAll node place 0 children

/-- The nodes of some children of a node; the first of them has the given index. -/
def preorderAll (parent : Node) (place : Place) : Nat → List Node → List Found
  | _, [] => []
  | index, child :: rest =>
    preorder child (place.child parent index) ++ preorderAll parent place (index + 1) rest

end

/-- Whether a node is not deeper than a limit. -/
def Found.isWithin (limit : Nat) (found : Found) : Bool := found.place.depth ≤ limit

variable {n m node child : Node} {p place : Place} {found : Found} {index limit : Nat}
  {children : List Node}

theorem preorder_eq (n : Node) (p : Place) :
    preorder n p = ⟨n, p⟩ :: preorderAll n p 0 n.children := by
  cases n
  rfl

/-! ## Which nodes, and where -/

theorem mem_preorderAll_iff :
    found ∈ preorderAll n p index children ↔
      ∃ i child, children[i]? = some child ∧ found ∈ preorder child (p.child n (index + i)) := by
  induction children generalizing index with
  | nil => simp [preorderAll]
  | cons child rest ih =>
    rw [preorderAll, List.mem_append, ih]
    constructor
    · rintro (h | ⟨i, c, hc, h⟩)
      · exact ⟨0, child, rfl, h⟩
      · exact ⟨i + 1, c, hc, by rwa [show index + (i + 1) = index + 1 + i by omega]⟩
    · rintro ⟨_ | i, c, hc, h⟩
      · cases hc
        exact .inl h
      · exact .inr ⟨i, c, hc, by rwa [show index + 1 + i = index + (i + 1) by omega]⟩

mutual

theorem reaches_of_mem_preorder (n : Node) (p : Place) (h : found ∈ preorder n p) :
    Reaches n p found.node found.place := by
  rw [preorder_eq] at h
  rcases List.mem_cons.mp h with rfl | h
  · exact .here
  · exact reaches_of_mem_preorderAll n p 0 n.children List.drop_zero.symm h
termination_by 2 * n.count
decreasing_by
  have := n.count_eq
  omega

theorem reaches_of_mem_preorderAll (n : Node) (p : Place) (index : Nat) (children : List Node)
    (hdrop : children = n.children.drop index) (h : found ∈ preorderAll n p index children) :
    Reaches n p found.node found.place := by
  match children with
  | [] => cases h
  | child :: rest =>
    rw [preorderAll] at h
    rcases List.mem_append.mp h with h | h
    · have hchild : n.children[index]? = some child := by
        rw [← List.head?_drop, ← hdrop]
        rfl
      exact .child hchild (reaches_of_mem_preorder child (p.child n index) h)
    · have hrest : rest = n.children.drop (index + 1) := by
        rw [← List.drop_drop, ← hdrop]
        rfl
      exact reaches_of_mem_preorderAll n p (index + 1) rest hrest h
termination_by 2 * Node.countAll children + 1
decreasing_by
  all_goals
    have := child.count_eq
    simp only [Node.countAll]
    omega

end

/-- **The nodes are those that a walk can come to.** -/
theorem mem_preorder_iff : found ∈ preorder n p ↔ Reaches n p found.node found.place := by
  refine ⟨reaches_of_mem_preorder n p, ?_⟩
  obtain ⟨m, q⟩ := found
  intro h
  replace h : Reaches n p m q := h
  induction h with
  | @here n p =>
    rw [preorder_eq]
    exact List.mem_cons_self
  | @child n c m p q i hc h ih =>
    rw [preorder_eq]
    refine List.mem_cons_of_mem _ (mem_preorderAll_iff.mpr ⟨i, c, hc, ?_⟩)
    rwa [Nat.zero_add]

/-- A walk comes to every descendant. -/
theorem reaches_of_get {path : Path} (h : n.get path = some m) (p : Place) :
    ∃ q, Reaches n p m q ∧ q.path = p.path ++ path := by
  induction path generalizing n p with
  | nil =>
    rw [Node.get, Option.some.injEq] at h
    subst h
    exact ⟨p, .here, (List.append_nil _).symm⟩
  | cons i path ih =>
    obtain ⟨c, hc, hm⟩ := Node.get_cons_eq_some h
    obtain ⟨q, hq, hpath⟩ := ih hm (p.child n i)
    refine ⟨q, .child hc hq, ?_⟩
    rw [hpath, Place.path_child, List.append_assoc, List.singleton_append]

theorem exists_mem_preorder {path : Path} (h : n.get path = some m) :
    ∃ found ∈ preorder n Place.root, found.node = m ∧ found.place.path = path := by
  obtain ⟨q, hq, hpath⟩ := reaches_of_get h Place.root
  exact ⟨⟨m, q⟩, mem_preorder_iff.mpr hq, rfl, hpath⟩

/-- Each node is at its path, and as deep as its path is long. -/
theorem get_of_mem_preorder (h : found ∈ preorder n Place.root) :
    n.get found.place.path = some found.node ∧
      found.place.depth = found.place.path.length := by
  obtain ⟨path, hget, hpath, hancestors, hlength⟩ := (mem_preorder_iff.mp h).spec
  have hpath : found.place.path = path := hpath
  have hancestors : found.place.ancestors = n.along path := hancestors
  rw [hpath, Place.depth_eq, hancestors, hlength]
  exact ⟨hget, rfl⟩

/-! ## Their order -/

theorem Path.order_swap (p q : Path) : order q p = (order p q).swap := by
  induction p generalizing q with
  | nil => cases q <;> rfl
  | cons i p ih =>
    cases q with
    | nil => rfl
    | cons j q => rw [order, order, Ordering.swap_then, ← ih, Nat.compare_swap]

theorem Path.isLE_order_self (p : Path) : (order p p).isLE := by
  induction p with
  | nil => rfl
  | cons i p ih => rwa [order, Nat.compare_eq_eq.mpr rfl]

/-- How two nodes lie in the order of the document. -/
def Found.Before (f g : Found) : Prop := f.place.path.order g.place.path = .lt

theorem Found.Before.isLE {f g : Found} (h : f.Before g) :
    (f.place.path.order g.place.path).isLE := by
  rw [h]
  rfl

theorem Found.Before.not_isLE {f g : Found} (h : f.Before g) :
    ¬ (g.place.path.order f.place.path).isLE := by
  rw [Path.order_swap, h]
  exact Bool.false_ne_true

theorem path_of_mem_preorder (h : found ∈ preorder n p) :
    ∃ path, found.place.path = p.path ++ path := by
  obtain ⟨path, -, hpath, -⟩ := (mem_preorder_iff.mp h).spec
  exact ⟨path, hpath⟩

theorem path_of_mem_preorderAll (h : found ∈ preorderAll n p index children) :
    ∃ i path, index ≤ i ∧ found.place.path = p.path ++ i :: path := by
  obtain ⟨i, child, -, hfound⟩ := mem_preorderAll_iff.mp h
  obtain ⟨path, hpath⟩ := path_of_mem_preorder hfound
  refine ⟨index + i, path, Nat.le_add_right _ _, ?_⟩
  rw [hpath, Place.path_child, List.append_assoc, List.singleton_append]

mutual

/-- **Paths increase.** -/
theorem pairwise_preorder (n : Node) (p : Place) : (preorder n p).Pairwise Found.Before := by
  rw [preorder_eq]
  refine List.pairwise_cons.mpr ⟨?_, pairwise_preorderAll n p 0 n.children⟩
  intro g hg
  obtain ⟨i, path, -, hpath⟩ := path_of_mem_preorderAll hg
  have horder := Path.order_append p.path [] (i :: path)
  rw [List.append_nil] at horder
  rw [Found.Before, hpath]
  exact horder
termination_by 2 * n.count
decreasing_by
  have := n.count_eq
  omega

theorem pairwise_preorderAll (n : Node) (p : Place) (index : Nat) (children : List Node) :
    (preorderAll n p index children).Pairwise Found.Before := by
  match children with
  | [] => exact .nil
  | child :: rest =>
    rw [preorderAll]
    refine List.pairwise_append.mpr ⟨pairwise_preorder child _,
      pairwise_preorderAll n p (index + 1) rest, ?_⟩
    intro f hf g hg
    -- the two paths part at the node
    obtain ⟨path, hfp⟩ := path_of_mem_preorder hf
    obtain ⟨j, path', hj, hgp⟩ := path_of_mem_preorderAll hg
    rw [Place.path_child, List.append_assoc, List.singleton_append] at hfp
    rw [Found.Before, hfp, hgp, Path.order_append, Path.order, Nat.compare_eq_lt.mpr (by omega)]
    rfl
termination_by 2 * Node.countAll children + 1
decreasing_by
  all_goals
    have := child.count_eq
    simp only [Node.countAll]
    omega

end

/-! ## Walks that only look -/

section

variable {σ : Type} (look : σ → Found → σ)

/-- The visitor that looks at each node on entry and asks for nothing. -/
def Visitor.looking : Visitor σ :=
  .onEnter (fun node place state => (look state ⟨node, place⟩, Control.none))

theorem enterNode_looking {place : Place} (h : ¬ limit < place.depth) (node : Node)
    (t : Traversal σ) :
    enterNode (Visitor.looking look) limit node place t =
      ({ t with visited := t.visited + 1, state := look t.state ⟨node, place⟩ }, .descend) := by
  rw [enterNode_eq h rfl]
  rfl

theorem leaveNode_looking (node : Node) (place : Place) (t : Traversal σ) :
    leaveNode (Visitor.looking look) node place t = (t, true) := by
  rw [leaveNode_eq rfl]
  rfl

/-- What is seen of some nodes and others behind them. -/
theorem takeWhile_append_of_all {α : Type} {c : α → Bool} (l r : List α) :
    (l ++ r).takeWhile c = if l.all c then l ++ r.takeWhile c else l.takeWhile c := by
  induction l with
  | nil => rfl
  | cons a l ih =>
    rw [List.cons_append, List.takeWhile_cons, List.takeWhile_cons, List.all_cons, ih]
    cases c a <;> cases l.all c <;> rfl

mutual

/-- **A walk that asks for nothing sees the nodes up to the first that is too deep**, and goes on
unless there is one. -/
theorem tour_looking (limit : Nat) (node : Node) (place : Place) (t : Traversal σ) :
    (tour (Visitor.looking look) limit node place t).1.state =
        ((preorder node place).takeWhile (Found.isWithin limit)).foldl look t.state ∧
      (tour (Visitor.looking look) limit node place t).2 =
        (preorder node place).all (Found.isWithin limit) := by
  rw [tour_eq, preorder_eq, List.takeWhile_cons, List.all_cons]
  by_cases hdeep : limit < place.depth
  · have hout : Found.isWithin limit ⟨node, place⟩ = false := decide_eq_false (Nat.not_le_of_lt hdeep)
    rw [enterNode_deep hdeep, hout]
    exact ⟨rfl, rfl⟩
  · have hin : Found.isWithin limit ⟨node, place⟩ = true := decide_eq_true (Nat.le_of_not_lt hdeep)
    rw [enterNode_looking look hdeep, hin]
    obtain ⟨hstate, hflag⟩ := tourAll_looking limit node place 0 node.children
      { t with visited := t.visited + 1, state := look t.state ⟨node, place⟩ }
    dsimp only
    rcases htour : tourAll (Visitor.looking look) limit node place 0 node.children
      { t with visited := t.visited + 1, state := look t.state ⟨node, place⟩ } with ⟨t', _ | _⟩ <;>
      rw [htour] at hstate hflag
    · exact ⟨hstate, hflag⟩
    · dsimp only
      rw [leaveNode_looking]
      exact ⟨hstate, hflag⟩
termination_by 2 * node.count
decreasing_by
  have := node.count_eq
  omega

theorem tourAll_looking (limit : Nat) (parent : Node) (place : Place) (index : Nat)
    (children : List Node) (t : Traversal σ) :
    (tourAll (Visitor.looking look) limit parent place index children t).1.state =
        ((preorderAll parent place index children).takeWhile
          (Found.isWithin limit)).foldl look t.state ∧
      (tourAll (Visitor.looking look) limit parent place index children t).2 =
        (preorderAll parent place index children).all (Found.isWithin limit) := by
  match children with
  | [] => exact ⟨rfl, rfl⟩
  | child :: rest =>
    obtain ⟨hstate, hflag⟩ := tour_looking limit child (place.child parent index) t
    rw [tourAll, preorderAll, takeWhile_append_of_all, List.all_append, ← hflag]
    rcases htour : tour (Visitor.looking look) limit child (place.child parent index) t
      with ⟨t', _ | _⟩ <;> rw [htour] at hstate hflag
    · exact ⟨hstate, rfl⟩
    · obtain ⟨hrest, hflag'⟩ := tourAll_looking limit parent place (index + 1) rest t'
      have hall : (preorder child (place.child parent index)).takeWhile (Found.isWithin limit) =
          preorder child (place.child parent index) := by
        simpa [← hflag] using takeWhile_append_of_all (c := Found.isWithin limit)
          (preorder child (place.child parent index)) []
      rw [hall] at hstate
      refine ⟨?_, hflag'⟩
      dsimp only
      rw [hrest, hstate, if_pos rfl, List.foldl_append]
termination_by 2 * Node.countAll children + 1
decreasing_by
  all_goals
    have := child.count_eq
    simp only [Node.countAll]
    omega

end

end

/-- **What is collected:** of the nodes up to the first that is too deep, those that satisfy the
condition. -/
theorem collect_eq (root : Node) (limit : Nat) (condition : Node → Bool) :
    collect root limit condition =
      ((preorder root Place.root).takeWhile (Found.isWithin limit)).filter
        (fun found => condition found.node) := by
  have hfold : ∀ (l seen : List Found),
      l.foldl (fun seen found => if condition found.node then found :: seen else seen) seen =
        (l.filter (fun found => condition found.node)).reverse ++ seen := by
    intro l
    induction l with
    | nil => intro seen; rfl
    | cons found l ih =>
      intro seen
      rw [List.foldl_cons, ih, List.filter_cons]
      cases condition found.node
      · rfl
      · simp
  have hlook := (tour_looking
    (fun (seen : List Found) found => if condition found.node then found :: seen else seen)
    limit root Place.root (Traversal.start [])).1
  rw [← traverse_eq_tour, hfold] at hlook
  have hcollect : collect root limit condition = (traverse root (Visitor.looking
    (fun (seen : List Found) found => if condition found.node then found :: seen else seen))
    limit []).state.reverse := rfl
  rw [hcollect, hlook]
  simp [Traversal.start]

/-- Of nodes in order, those up to the first that fails a test are the ones up to which all pass. -/
theorem mem_takeWhile_iff {c : Found → Bool} {l : List Found} (h : l.Pairwise Found.Before)
    {f : Found} (hf : f ∈ l) :
    f ∈ l.takeWhile c ↔ ∀ g ∈ l, (g.place.path.order f.place.path).isLE → c g = true := by
  induction l with
  | nil => cases hf
  | cons a l ih =>
    obtain ⟨hfirst, hrest⟩ := List.pairwise_cons.mp h
    rw [List.takeWhile_cons]
    cases ha : c a with
    | false =>
      refine ⟨fun hnil => (by cases hnil), fun hall => ?_⟩
      -- the first node comes before all others, so it had to pass
      have hle : (a.place.path.order f.place.path).isLE := by
        rcases List.mem_cons.mp hf with rfl | hf
        · exact Path.isLE_order_self _
        · exact (hfirst f hf).isLE
      rw [hall a List.mem_cons_self hle] at ha
      cases ha
    | true =>
      rw [if_pos rfl, List.mem_cons, List.forall_mem_cons]
      rcases List.mem_cons.mp hf with rfl | hlater
      · refine ⟨fun _ => ⟨fun _ => ha, fun g hg hle => ?_⟩, fun _ => .inl rfl⟩
        exact absurd hle (hfirst g hg).not_isLE
      · rw [ih hrest hlater]
        refine ⟨fun hall => ⟨fun _ => ha, hall.resolve_left ?_⟩, fun hall => .inr hall.2⟩
        rintro rfl
        exact (hfirst f hlater).not_isLE (Path.isLE_order_self _)

/-! ## How deep a tree is -/

mutual

/-- The greatest depth of a node of a tree, the root being at depth zero. -/
def Node.height : Node → Nat
  | ⟨_, _, _, _, _, children, _⟩ => Node.heightAll children

def Node.heightAll : List Node → Nat
  | [] => 0
  | n :: rest => max (n.height + 1) (Node.heightAll rest)

end

theorem Node.height_eq (n : Node) : n.height = heightAll n.children := by
  cases n
  rfl

theorem Node.lt_heightAll {l : List Node} (h : n ∈ l) : n.height < heightAll l := by
  induction l with
  | nil => cases h
  | cons m l ih =>
    rw [heightAll]
    rcases List.mem_cons.mp h with rfl | h
    · exact Nat.lt_of_lt_of_le (Nat.lt_succ_self _) (Nat.le_max_left _ _)
    · exact Nat.lt_of_lt_of_le (ih h) (Nat.le_max_right _ _)

theorem Node.height_of_mem {c : Node} (h : c ∈ n.children) : c.height < n.height := by
  rw [n.height_eq]
  exact Node.lt_heightAll h

/-- No path in a tree is longer than the tree is deep. -/
theorem Node.length_le_height {path : Path} (h : n.get path = some m) :
    path.length + m.height ≤ n.height := by
  induction path generalizing n with
  | nil =>
    rw [get, Option.some.injEq] at h
    subst h
    exact Nat.le_of_eq (Nat.zero_add _)
  | cons i path ih =>
    obtain ⟨c, hc, hm⟩ := get_cons_eq_some h
    have hlt := height_of_mem (List.mem_of_getElem? hc)
    have hle := ih hm
    rw [List.length_cons]
    omega

/-- No node of a tree up to a place, in the order of the document, is deeper than a limit. -/
def SourceTree.Shallow (tree : SourceTree) (limit : Nat) (path : Path) : Prop :=
  ∀ q n, tree.get q = some n → (q.order path).isLE → q.length ≤ limit

/-- Nothing is too deep in a tree that is not deep. -/
theorem SourceTree.shallow_of_height {tree : SourceTree} (h : tree.root.height ≤ limit)
    (path : Path) : tree.Shallow limit path := by
  intro q n hget _
  have := Node.length_le_height hget
  omega

theorem isWithin_of_height (h : n.height ≤ limit) (hfound : found ∈ preorder n Place.root) :
    found.isWithin limit = true := by
  obtain ⟨hget, hdepth⟩ := get_of_mem_preorder hfound
  have hle := Node.length_le_height hget
  exact decide_eq_true (by omega)

end MarkupEdit.Tree

namespace MarkupEdit.Tree

theorem Node.isToken_iff {n : Node} {text : String} :
    n.isToken text = true ↔ n.kind = .token ∧ n.text = some text := by
  rw [isToken, Bool.and_eq_true, beq_iff_eq, beq_iff_eq]

/-! ## What holds of all nodes of a tree -/

/-- A node has a property, and so do all nodes in it. -/
def Node.Throughout (p : Node → Prop) (n : Node) : Prop := ∀ path m, n.get path = some m → p m

namespace Node.Throughout

variable {p : Node → Prop} {n m c : Node}

theorem self (h : n.Throughout p) : p n := h [] n rfl

theorem get {path : Path} (h : n.Throughout p) (hm : n.get path = some m) : m.Throughout p := by
  intro rest k hk
  exact h (path ++ rest) k (by rw [get_append, hm, Option.bind_some, hk])

theorem child (h : n.Throughout p) (hc : c ∈ n.children) : c.Throughout p := by
  obtain ⟨i, hi⟩ := List.getElem?_of_mem hc
  have hget : n.get [i] = some c := get_cons hi
  exact h.get hget

theorem intro (h : p n) (hchildren : ∀ c ∈ n.children, c.Throughout p) : n.Throughout p := by
  intro path m hm
  cases path with
  | nil =>
    cases hm
    exact h
  | cons i path =>
    obtain ⟨c, hc, hm⟩ := get_cons_eq_some hm
    exact hchildren c (List.mem_of_getElem? hc) path m hm

theorem mono {q : Node → Prop} (h : n.Throughout p) (hpq : ∀ m, p m → q m) : n.Throughout q :=
  fun path m hm => hpq m (h path m hm)

/-- It is enough to look at all nodes. -/
theorem of_preorder (h : ∀ found ∈ preorder n Place.root, p found.node) : n.Throughout p := by
  intro path m hm
  obtain ⟨found, hfound, hnode, -⟩ := exists_mem_preorder hm
  exact hnode ▸ h found hfound

end Node.Throughout

end MarkupEdit.Tree
