import MarkupEdit.Tree.SourceTree

/-!
# What stands around a node

The text of a tree is split by every node in it: what is written in front of the node, the node with
its leading trivia, and what is written behind it. A change of the node changes neither of the other
two parts.

* `Node.front`, `Node.back`: the text in front of a descendant and behind it.
* `full_of_get`: **the text of a node is the text of a descendant between the two.**
* `update?_spec`: changing a descendant keeps both, and puts the new node where the old one was.
-/

namespace MarkupEdit.Tree

namespace Node

/-! ## The text of a node -/

theorem body_eq (n : Node) : n.body = n.text.getD "" ++ (bodies n.children ++ n.trailing) := by
  cases n
  rfl

theorem bodies_cons (n : Node) (rest : List Node) : bodies (n :: rest) = n.full ++ bodies rest := by
  cases n
  rw [bodies, full, String.append_assoc]

theorem bodies_append (l r : List Node) : bodies (l ++ r) = bodies l ++ bodies r := by
  induction l with
  | nil => rw [List.nil_append, bodies, String.empty_append]
  | cons n l ih => rw [List.cons_append, bodies_cons, bodies_cons, ih, String.append_assoc]

/-- The text of some nodes, split at one of them. -/
theorem bodies_split {l : List Node} {i : Nat} {n : Node} (h : l[i]? = some n) :
    bodies l = bodies (l.take i) ++ (n.full ++ bodies (l.drop (i + 1))) := by
  obtain ⟨hi, hn⟩ := List.getElem?_eq_some_iff.mp h
  calc bodies l = bodies (l.take i ++ l.drop i) := by rw [List.take_append_drop]
    _ = bodies (l.take i) ++ bodies (l.drop i) := bodies_append _ _
    _ = _ := by rw [List.drop_eq_getElem_cons hi, hn, bodies_cons]

/-! ## In front of a descendant and behind it -/

/-- What a node writes in front of a descendant and its leading trivia. -/
def front (n : Node) : List Nat → String
  | [] => ""
  | i :: path =>
    n.leading ++ (n.text.getD "" ++ (bodies (n.children.take i) ++
      match n.children[i]? with
      | none => ""
      | some child => child.front path))

/-- What a node writes behind a descendant. -/
def back (n : Node) : List Nat → String
  | [] => ""
  | i :: path =>
    (match n.children[i]? with
      | none => ""
      | some child => child.back path) ++ (bodies (n.children.drop (i + 1)) ++ n.trailing)

@[simp] theorem front_nil (n : Node) : n.front [] = "" := rfl

@[simp] theorem back_nil (n : Node) : n.back [] = "" := rfl

variable {n n' m m' child : Node} {path rest : List Nat} {i : Nat}

theorem front_cons (h : n.children[i]? = some child) :
    n.front (i :: path) =
      n.leading ++ (n.text.getD "" ++ (bodies (n.children.take i) ++ child.front path)) := by
  rw [front, h]

theorem back_cons (h : n.children[i]? = some child) :
    n.back (i :: path) = child.back path ++ (bodies (n.children.drop (i + 1)) ++ n.trailing) := by
  rw [back, h]

theorem get_cons (h : n.children[i]? = some child) : n.get (i :: path) = child.get path := by
  rw [get, h]

theorem get_cons_eq_some (h : n.get (i :: path) = some m) :
    ∃ child, n.children[i]? = some child ∧ child.get path = some m := by
  rw [get] at h
  split at h
  · cases h
  · next child hc => exact ⟨child, hc, h⟩

/-- **The text of a node is the text of a descendant between what stands in front of it and what
stands behind it.** -/
theorem full_of_get (h : n.get path = some m) :
    n.full = n.front path ++ (m.full ++ n.back path) := by
  induction path generalizing n with
  | nil =>
    rw [get, Option.some.injEq] at h
    rw [h, front_nil, back_nil, String.empty_append, String.append_empty]
  | cons i path ih =>
    obtain ⟨child, hc, hm⟩ := get_cons_eq_some h
    -- the children are split at the one that the path goes through
    rw [front_cons hc, back_cons hc, full, body_eq, bodies_split hc, ih hm]
    simp only [String.append_assoc]

/-! ## Changes of a descendant -/

theorem update?_cons_eq_some {f : Node → Option Node} (h : n.update? f (i :: path) = some n') :
    ∃ child child', n.children[i]? = some child ∧ child.update? f path = some child' ∧
      n' = { n with children := n.children.set i child' } := by
  rw [update?] at h
  split at h
  · cases h
  · next child hc =>
    obtain ⟨child', hu, hn⟩ := Option.map_eq_some_iff.mp h
    exact ⟨child, child', hc, hu, hn.symm⟩

theorem update?_cons {f : Node → Option Node} {child' : Node} (hc : n.children[i]? = some child)
    (h : child.update? f path = some child') :
    n.update? f (i :: path) = some { n with children := n.children.set i child' } := by
  rw [update?, hc]
  simp only [h, Option.map_some]

/-- **A change of a descendant.** It puts what the change makes of the old node in the place of that
node; what stands in front and behind stays. -/
theorem update?_spec {f : Node → Option Node} (h : n.update? f path = some n') :
    ∃ m m', n.get path = some m ∧ f m = some m' ∧ n'.get path = some m' ∧
      n'.front path = n.front path ∧ n'.back path = n.back path := by
  induction path generalizing n n' with
  | nil => exact ⟨n, n', rfl, h, rfl, rfl, rfl⟩
  | cons i path ih =>
    obtain ⟨child, child', hc, hu, rfl⟩ := update?_cons_eq_some h
    obtain ⟨m, m', hm, hf, hm', hfront, hback⟩ := ih hu
    obtain ⟨hi, -⟩ := List.getElem?_eq_some_iff.mp hc
    have hc' : (n.children.set i child')[i]? = some child' := List.getElem?_set_self hi
    -- the children on both sides of the changed one are those that were there
    refine ⟨m, m', by rw [get_cons hc, hm], hf, ?_, ?_, ?_⟩
    · rw [get_cons (n := { n with children := n.children.set i child' }) hc', hm']
    · rw [front_cons (n := { n with children := n.children.set i child' }) hc', front_cons hc,
        hfront]
      simp only [List.take_set_of_le (Nat.le_refl i)]
    · rw [back_cons (n := { n with children := n.children.set i child' }) hc', back_cons hc, hback]
      simp only [List.drop_set_of_lt (Nat.lt_succ_self i)]

/-- What changes in a row make of a descendant, one change makes at once. -/
theorem update?_update? {f g h : Node → Option Node} (hu : n.update? f path = some n')
    (hgh : ∀ m m', n.get path = some m → f m = some m' → g m' = h m) :
    n'.update? g path = n.update? h path := by
  induction path generalizing n n' with
  | nil => exact hgh n n' rfl hu
  | cons i path ih =>
    obtain ⟨child, child', hc, hu', rfl⟩ := update?_cons_eq_some hu
    obtain ⟨hi, -⟩ := List.getElem?_eq_some_iff.mp hc
    have hc' : (n.children.set i child')[i]? = some child' := List.getElem?_set_self hi
    -- the second change meets the child that the first one left
    have := ih hu' (fun m m' hm hf => hgh m m' (by rw [get_cons hc, hm]) hf)
    rw [update?, update?]
    simp only [hc, hc', this, List.set_set]

/-- Putting a node where it is already changes nothing. -/
theorem update?_self (h : n.get path = some m) : n.update? (fun _ => some m) path = some n := by
  induction path generalizing n with
  | nil => rw [get, Option.some.injEq] at h; rw [update?, h]
  | cons i path ih =>
    obtain ⟨child, hc, hm⟩ := get_cons_eq_some h
    rw [update?_cons hc (ih hm)]
    obtain ⟨hi, rfl⟩ := List.getElem?_eq_some_iff.mp hc
    rw [List.set_getElem_self]
    cases n
    rfl

/-- Any node can be put where there is one. -/
theorem exists_update? (h : n.get path = some m) (node : Node) :
    ∃ n', n.update? (fun _ => some node) path = some n' := by
  induction path generalizing n with
  | nil => exact ⟨node, rfl⟩
  | cons i path ih =>
    obtain ⟨child, hc, hm⟩ := get_cons_eq_some h
    obtain ⟨child', hchild⟩ := ih hm
    exact ⟨_, update?_cons hc hchild⟩

/-! ## Children of a descendant -/

theorem get_append (p q : List Nat) : n.get (p ++ q) = (n.get p).bind (fun m => m.get q) := by
  induction p generalizing n with
  | nil => rfl
  | cons i p ih =>
    rw [List.cons_append, get, get]
    cases n.children[i]? with
    | none => rfl
    | some child => exact ih

/-- In front of a child stands what is in front of its parent, then the start of the parent. -/
theorem front_child (h : n.get path = some m) (hc : m.children[i]? = some child) :
    n.front (path ++ [i]) =
      n.front path ++ (m.leading ++ (m.text.getD "" ++ bodies (m.children.take i))) := by
  induction path generalizing n with
  | nil =>
    rw [get, Option.some.injEq] at h
    subst h
    rw [List.nil_append, front_cons hc, front_nil, front_nil, String.empty_append,
      String.append_empty]
  | cons j path ih =>
    obtain ⟨c, hn, hm⟩ := get_cons_eq_some h
    rw [List.cons_append, front_cons hn, front_cons hn, ih hm]
    simp only [String.append_assoc]

/-- Behind a child stands the rest of its parent, then what is behind that. -/
theorem back_child (h : n.get path = some m) (hc : m.children[i]? = some child) :
    n.back (path ++ [i]) = bodies (m.children.drop (i + 1)) ++ (m.trailing ++ n.back path) := by
  induction path generalizing n with
  | nil =>
    rw [get, Option.some.injEq] at h
    subst h
    rw [List.nil_append, back_cons hc, back_nil, back_nil, String.empty_append, String.append_empty]
  | cons j path ih =>
    obtain ⟨c, hn, hm⟩ := get_cons_eq_some h
    rw [List.cons_append, back_cons hn, back_cons hn, ih hm]
    simp only [String.append_assoc]

end Node

/-! ## Source trees -/

namespace SourceTree

/-- What a tree writes in front of a node and its leading trivia. -/
def front (t : SourceTree) (path : Path) : String := t.before ++ t.root.front path

/-- What a tree writes behind a node. -/
def back (t : SourceTree) (path : Path) : String := t.root.back path ++ t.after

variable {t : SourceTree} {path : Path} {n m : Node} {root : Node}

theorem toSource_of_get (h : t.get path = some n) :
    t.toSource = t.front path ++ (n.full ++ t.back path) := by
  rw [toSource, Node.full_of_get h, front, back]
  simp only [String.append_assoc]

/-- **Edits of one node keep the text around it.** -/
theorem toSource_of_update? {f : Node → Option Node} (h : t.root.update? f path = some root) :
    ∃ m m', t.get path = some m ∧ f m = some m' ∧
      ({ t with root := root } : SourceTree).toSource =
        t.front path ++ (m'.full ++ t.back path) := by
  obtain ⟨m, m', hm, hf, hm', hfront, hback⟩ := Node.update?_spec h
  refine ⟨m, m', hm, hf, ?_⟩
  rw [toSource_of_get (t := { t with root := root }) hm', front, back, front, back, hfront, hback]

end SourceTree

end MarkupEdit.Tree
