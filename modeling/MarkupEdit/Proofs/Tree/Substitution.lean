import Mathlib.Data.List.Induction
import MarkupEdit.Proofs.Tree.Calls

/-!
# What a walk changes

The changes that a walk collects lie apart from each other, so they can be made one after the other:
what comes out is the tree with all of them put in at once.

* `Node.rebuilt`: a tree with changes put in from the root down.
* `Path.Apart`, `Path.LeftOf`: how two paths lie to each other.
* `edits_traverse`: **the changes of a walk are at nodes of the tree, none of them below another.**
* `applyOne_rebuilt`: one more change, to the left of those that were made.
* `EditScript.Scattered.apply_eq`: **changes that lie apart are made as if at once.**
* `traverse_substitutes`: what a walk that makes changes leaves behind.
-/

namespace MarkupEdit.Tree

/-! ## All changes at once -/

namespace Node

mutual

/-- The node with changes put in from the root down: a replacement stands for the node, a removed
node is left out, any other node is kept, with its children rebuilt. -/
def rebuilt (changes : Path → Option Edit) : Node → Option Node
  | ⟨kind, field, span, leading, text, children, trailing⟩ =>
    match changes [] with
    | some (.replace node) => some node
    | some .remove => none
    | none =>
      some ⟨kind, field, span, leading, text, rebuiltAll changes 0 children, trailing⟩

/-- Some children of a node with changes put in; the first of them has the given index. -/
def rebuiltAll (changes : Path → Option Edit) (index : Nat) : List Node → List Node
  | [] => []
  | child :: rest =>
    (rebuilt (fun path => changes (index :: path)) child).toList ++
      rebuiltAll changes (index + 1) rest

end

end Node

/-- The change that a script makes at a path. -/
def EditScript.change? (script : EditScript) (path : Path) : Option Edit := List.lookup path script

namespace Node

variable {f g : Path → Option Edit} {n m m' child : Node} {index i : Nat} {children : List Node}

theorem rebuilt_of_replace {node : Node} (h : f [] = some (.replace node)) :
    n.rebuilt f = some node := by
  cases n
  rw [rebuilt, h]

theorem rebuilt_of_none (h : f [] = none) :
    n.rebuilt f = some (n.withChildren (rebuiltAll f 0 n.children)) := by
  cases n
  rw [rebuilt, h]
  rfl

theorem rebuilt_eq_none_iff : n.rebuilt f = none ↔ f [] = some .remove := by
  cases n
  rw [rebuilt]
  rcases f [] with _ | node | _
  · exact ⟨nofun, nofun⟩
  · exact ⟨nofun, nofun⟩
  · exact ⟨fun _ => rfl, fun _ => rfl⟩

mutual

/-- Without changes a node stays. -/
theorem rebuilt_untouched (n : Node) (f : Path → Option Edit) (h : ∀ path, f path = none) :
    n.rebuilt f = some n := by
  obtain ⟨kind, field, span, leading, text, children, trailing⟩ := n
  rw [rebuilt, h, rebuiltAll_untouched children f 0 (fun i path _ => h (i :: path))]

theorem rebuiltAll_untouched (children : List Node) (f : Path → Option Edit) (index : Nat)
    (h : ∀ i path, i < index + children.length → f (i :: path) = none) :
    rebuiltAll f index children = children := by
  match children with
  | [] => rfl
  | child :: rest =>
    rw [List.length_cons] at h
    rw [rebuiltAll, rebuilt_untouched child _ (fun path => h index path (by omega)),
      rebuiltAll_untouched rest f (index + 1) (fun i path hi => h i path (by omega))]
    rfl

end

theorem rebuiltAll_congr (h : ∀ i path, index ≤ i → g (i :: path) = f (i :: path)) :
    rebuiltAll g index children = rebuiltAll f index children := by
  induction children generalizing index with
  | nil => rfl
  | cons child rest ih =>
    have hchild : (fun path => g (index :: path)) = fun path => f (index :: path) :=
      funext fun path => h index path (Nat.le_refl _)
    rw [rebuiltAll, rebuiltAll, hchild, ih (fun i path hi => h i path (by omega))]

/-- Rebuilt children, split at one of them. -/
theorem rebuiltAll_split (h : children[i]? = some child) :
    rebuiltAll f index children =
      rebuiltAll f index (children.take i) ++
        ((child.rebuilt (fun path => f ((index + i) :: path))).toList ++
          rebuiltAll f (index + i + 1) (children.drop (i + 1))) := by
  induction children generalizing index i with
  | nil => cases h
  | cons first rest ih =>
    cases i with
    | zero =>
      cases h
      rfl
    | succ i =>
      rw [rebuiltAll, ih h, List.take_succ_cons, List.drop_succ_cons, rebuiltAll, List.append_assoc,
        Nat.add_right_comm index 1 i]
      rfl

/-- Where nothing changes in front of a child, the children in front of it stay. -/
theorem rebuiltAll_from (h : children[i]? = some child)
    (hbefore : ∀ j path, j < i → f (j :: path) = none) :
    rebuiltAll f 0 children =
      children.take i ++ ((child.rebuilt (fun path => f (i :: path))).toList ++
        rebuiltAll f (i + 1) (children.drop (i + 1))) := by
  have htake : rebuiltAll f 0 (children.take i) = children.take i :=
    rebuiltAll_untouched _ f 0 fun j path hj => hbefore j path (by
      rw [List.length_take] at hj
      omega)
  rw [rebuiltAll_split h, htake, Nat.zero_add]

/-- Changes in one child and below it leave the other children as they are rebuilt without them;
where nothing changes in front of the child, those in front of it stay. -/
theorem rebuilt_child (h : n.children[i]? = some child) (hroot : f [] = none)
    (hbefore : ∀ j path, j < i → f (j :: path) = none)
    (hother : ∀ path, (∀ rest, path ≠ i :: rest) → g path = f path) :
    ∃ behind,
      n.rebuilt f = some (n.withChildren (n.children.take i ++
        ((child.rebuilt (fun path => f (i :: path))).toList ++ behind))) ∧
      n.rebuilt g = some (n.withChildren (n.children.take i ++
        ((child.rebuilt (fun path => g (i :: path))).toList ++ behind))) := by
  have hchild : ∀ j path, j ≠ i → g (j :: path) = f (j :: path) := fun j path hj =>
    hother (j :: path) fun rest heq => hj (List.cons_eq_cons.mp heq).1
  have hroot' : g [] = none := by rw [hother [] (fun rest => nofun), hroot]
  have hbefore' : ∀ j path, j < i → g (j :: path) = none := fun j path hj => by
    rw [hchild j path (by omega), hbefore j path hj]
  have hbehind : rebuiltAll g (i + 1) (n.children.drop (i + 1)) =
      rebuiltAll f (i + 1) (n.children.drop (i + 1)) :=
    rebuiltAll_congr fun j path hj => hchild j path (by omega)
  refine ⟨rebuiltAll f (i + 1) (n.children.drop (i + 1)), ?_, ?_⟩
  · rw [rebuilt_of_none hroot, rebuiltAll_from h hbefore]
  · rw [rebuilt_of_none hroot', rebuiltAll_from h hbefore', hbehind]

end Node

/-! ## Paths that lie apart -/

namespace Path

/-- Neither of two paths leads past the end of the other. -/
structure Apart (p q : Path) : Prop where
  left : ¬ p <+: q
  right : ¬ q <+: p

/-- A path that comes before another one and does not lead to it. -/
structure LeftOf (p q : Path) : Prop where
  first : (p.order q).isLE
  off : ¬ p <+: q

variable {p q r : Path} {i j : Nat}

theorem Apart.symm (h : Apart p q) : Apart q p := ⟨h.right, h.left⟩

theorem Apart.ne (h : Apart p q) : p ≠ q := by
  rintro rfl
  exact h.left (List.prefix_refl p)

theorem not_apart_nil : ¬ Apart [] q := fun h => h.left List.nil_prefix

theorem isLE_order_cons : (order (i :: p) (j :: q)).isLE ↔ i < j ∨ i = j ∧ (order p q).isLE := by
  rw [order]
  rcases Nat.lt_trichotomy i j with h | h | h
  · rw [Nat.compare_eq_lt.mpr h]
    exact ⟨fun _ => .inl h, fun _ => rfl⟩
  · rw [Nat.compare_eq_eq.mpr h]
    exact ⟨fun hle => .inr ⟨h, hle⟩, fun hle => (hle.resolve_left (by omega)).2⟩
  · rw [Nat.compare_eq_gt.mpr h]
    exact ⟨nofun, fun hle => by omega⟩

theorem isLE_order_total (p q : Path) : (order p q).isLE ∨ (order q p).isLE := by
  induction p generalizing q with
  | nil => cases q <;> exact .inl rfl
  | cons i p ih =>
    cases q with
    | nil => exact .inr rfl
    | cons j q =>
      rw [isLE_order_cons, isLE_order_cons]
      rcases Nat.lt_trichotomy i j with h | rfl | h
      · exact .inl (.inl h)
      · exact (ih q).imp (fun h => .inr ⟨rfl, h⟩) (fun h => .inr ⟨rfl, h⟩)
      · exact .inr (.inl h)

theorem isLE_order_trans (hpq : (order p q).isLE) (hqr : (order q r).isLE) :
    (order p r).isLE := by
  induction p generalizing q r with
  | nil => cases r <;> rfl
  | cons i p ih =>
    cases q with
    | nil => cases hpq
    | cons j q =>
      cases r with
      | nil => cases hqr
      | cons k r =>
        rw [isLE_order_cons] at hpq hqr ⊢
        rcases hpq with hij | ⟨rfl, hpq⟩
        · exact .inl (by omega)
        · rcases hqr with hjk | ⟨rfl, hqr⟩
          · exact .inl hjk
          · exact .inr ⟨rfl, ih hpq hqr⟩

theorem not_leftOf_nil : ¬ LeftOf (i :: p) [] := fun h => nomatch h.first

theorem leftOf_cons : LeftOf (i :: p) (j :: q) ↔ i < j ∨ i = j ∧ LeftOf p q := by
  constructor
  · rintro ⟨hfirst, hoff⟩
    rw [List.cons_prefix_cons] at hoff
    refine (isLE_order_cons.mp hfirst).imp_right ?_
    rintro ⟨hij, hfirst⟩
    exact ⟨hij, hfirst, fun h => hoff ⟨hij, h⟩⟩
  · rintro (hij | ⟨rfl, hfirst, hoff⟩)
    · refine ⟨isLE_order_cons.mpr (.inl hij), fun h => ?_⟩
      have := (List.cons_prefix_cons.mp h).1
      omega
    · refine ⟨isLE_order_cons.mpr (.inr ⟨rfl, hfirst⟩), fun h => ?_⟩
      exact hoff (List.cons_prefix_cons.mp h).2

theorem isLE_order_append (p q : Path) : (order p (p ++ q)).isLE := by
  have h := order_append p [] q
  rw [List.append_nil] at h
  rw [h]
  cases q <;> rfl

/-- What a path lies to the left of, every start of it lies to the left of or leads to. -/
theorem LeftOf.of_append (h : LeftOf (p ++ q) r) : p <+: r ∨ p.LeftOf r := by
  by_cases hprefix : p <+: r
  · exact .inl hprefix
  · exact .inr ⟨isLE_order_trans (isLE_order_append p q) h.first, hprefix⟩

/-- Of two paths that lie apart, the first in order is to the left of the other. -/
theorem Apart.leftOf (h : Apart p q) (hle : (p.order q).isLE) : p.LeftOf q := ⟨hle, h.left⟩

/-- A path to the left of another one is to the left of it from their common start on. -/
theorem leftOf_append : LeftOf (p ++ q) (p ++ r) ↔ LeftOf q r := by
  induction p with
  | nil => rfl
  | cons i p ih =>
    rw [List.cons_append, List.cons_append, leftOf_cons, ih]
    exact ⟨fun h => (h.resolve_left (Nat.lt_irrefl i)).2, fun h => .inr ⟨rfl, h⟩⟩

end Path

/-! ## The changes of a walk -/

namespace EditScript

variable {script : EditScript} {path : Path} {edit : Edit} {e : Path × Edit}

theorem mem_kept :
    e ∈ script.filter (fun entry => !entry.1.startsWith path) ↔ e ∈ script ∧ ¬ path <+: e.1 := by
  rw [List.mem_filter, Bool.not_eq_true', Path.startsWith, ← Bool.not_eq_true,
    List.isPrefixOf_iff_prefix]

theorem mem_record :
    e ∈ script.record path edit ↔ (e ∈ script ∧ ¬ path <+: e.1) ∨ e = (path, edit) := by
  rw [record, List.mem_append, mem_kept, List.mem_singleton]

/-- The changes lie apart from each other. -/
abbrev Scattered (script : EditScript) : Prop := script.Pairwise fun a b => Path.Apart a.1 b.1

/-- A change behind which nothing is changed at or below its own path lies apart from the others. -/
theorem Scattered.record (h : script.Scattered) (hoff : ∀ e ∈ script, ¬ e.1 <+: path) :
    (script.record path edit).Scattered := by
  refine List.pairwise_append.mpr ⟨h.filter _, List.pairwise_singleton _ _, ?_⟩
  intro a ha b hb
  rw [List.mem_singleton.mp hb]
  obtain ⟨hmem, hkept⟩ := mem_kept.mp ha
  exact ⟨hoff a hmem, hkept⟩

end EditScript

/-- The changes that are left of those that calls asked for: each is one of them, and they lie
apart. -/
theorem foldl_note {calls : List HookCall} (h : calls.Pairwise HookCall.Before) :
    (∀ e ∈ calls.foldl HookCall.note [], ∃ c ∈ calls, c.path = e.1 ∧ c.control.edit = some e.2) ∧
      EditScript.Scattered (calls.foldl HookCall.note []) := by
  induction calls using List.reverseRecOn with
  | nil => exact ⟨fun _ h => absurd h List.not_mem_nil, List.Pairwise.nil⟩
  | append_singleton calls d ih =>
    obtain ⟨hcalls, -, hbefore⟩ := List.pairwise_append.mp h
    obtain ⟨hfrom, hapart⟩ := ih hcalls
    have hfrom' : ∀ e ∈ calls.foldl HookCall.note [],
        ∃ c ∈ calls ++ [d], c.path = e.1 ∧ c.control.edit = some e.2 := fun e he =>
      have ⟨c, hc, h⟩ := hfrom e he
      ⟨c, List.mem_append_left _ hc, h⟩
    rw [List.foldl_append, List.foldl_cons, List.foldl_nil, HookCall.note]
    cases hedit : d.control.edit with
    | none => exact ⟨hfrom', hapart⟩
    | some edit =>
      refine ⟨?_, hapart.record ?_⟩
      · intro e he
        rcases EditScript.mem_record.mp he with ⟨he, -⟩ | rfl
        · exact hfrom' e he
        · exact ⟨d, List.mem_append_right _ (List.mem_singleton_self d), rfl, hedit⟩
      · -- nothing is called any more below a node with a change
        intro e he
        obtain ⟨c, hc, hpath, hsome⟩ := hfrom e he
        rw [← hpath]
        exact (hbefore c hc d (List.mem_singleton_self d)).settled
          (.inr (hsome ▸ rfl))

/-- **The changes of a walk** are at nodes of the tree, none of them at or below another. -/
theorem edits_traverse {σ : Type} (root : Node) (visitor : Visitor σ) (limit : Nat) (state : σ) :
    (∀ e ∈ (traverse root visitor limit state).edits, (root.get e.1).isSome) ∧
      (traverse root visitor limit state).edits.Scattered := by
  obtain ⟨hcalls, hedits⟩ := hookCalls_spec root visitor limit state
  obtain ⟨hfrom, hapart⟩ := foldl_note hcalls.ordered
  rw [hedits]
  refine ⟨?_, hapart⟩
  intro e he
  obtain ⟨c, hc, hpath, -⟩ := hfrom e he
  rw [← hpath, (HookCall.placedIn_of_reaches (hcalls.reached c hc)).get]
  rfl

/-! ## One more change -/

namespace Node

variable {f g : Path → Option Edit} {F : Node → Option Node} {n m m₁ m₂ : Node} {path : Path}

/-- Changes that are made from some node on stay away from what is in front of it, and a further
change of that node finds it there. -/
theorem update?_rebuilt (hget : n.get path = some m)
    (hfrom : ∀ p, ¬ path <+: p → ¬ path.LeftOf p → f p = none)
    (hagree : ∀ p, ¬ path <+: p → g p = f p)
    (hf : m.rebuilt (fun p => f (path ++ p)) = some m₁) (hF : F m₁ = some m₂)
    (hg : m.rebuilt (fun p => g (path ++ p)) = some m₂) :
    ∃ n₁ n₂, n.rebuilt f = some n₁ ∧ n₁.get path = some m₁ ∧ n₁.update? F path = some n₂ ∧
      n.rebuilt g = some n₂ := by
  induction path generalizing n f g with
  | nil =>
    cases hget
    exact ⟨m₁, m₂, hf, rfl, hF, hg⟩
  | cons i path ih =>
    obtain ⟨child, hc, hm⟩ := get_cons_eq_some hget
    obtain ⟨hi, -⟩ := List.getElem?_eq_some_iff.mp hc
    obtain ⟨child₁, child₂, hchild₁, hget₁, hupdate, hchild₂⟩ :=
      ih (f := fun p => f (i :: p)) (g := fun p => g (i :: p)) hm
        (fun p hp hl => hfrom (i :: p) (fun h => hp (List.cons_prefix_cons.mp h).2)
          fun h => hl ((Path.leftOf_cons.mp h).resolve_left (Nat.lt_irrefl i)).2)
        (fun p hp => hagree (i :: p) fun h => hp (List.cons_prefix_cons.mp h).2) hf hg
    -- neither the node itself nor a child in front of the one on the path is changed
    have hempty : ¬ i :: path <+: [] := fun h => List.cons_ne_nil _ _ (List.prefix_nil.mp h)
    have hbefore : ∀ j p, j < i → f (j :: p) = none := by
      intro j p hj
      refine hfrom (j :: p) (fun h => ?_) (fun h => ?_)
      · have := (List.cons_prefix_cons.mp h).1
        omega
      · have := Path.leftOf_cons.mp h
        omega
    have hother : ∀ p, (∀ rest, p ≠ i :: rest) → g p = f p := fun p hp =>
      hagree p fun ⟨rest, hrest⟩ => hp (path ++ rest) hrest.symm
    obtain ⟨behind, hf', hg'⟩ :=
      rebuilt_child hc (hfrom [] hempty Path.not_leftOf_nil) hbefore hother
    rw [hchild₁] at hf'
    rw [hchild₂] at hg'
    have hlength : (n.children.take i).length = i := List.length_take_of_le (by omega)
    have hc₁ : (n.children.take i ++ ([child₁] ++ behind))[i]? = some child₁ := by
      rw [List.getElem?_append_right (by omega), hlength, Nat.sub_self]
      rfl
    have hset : (n.children.take i ++ ([child₁] ++ behind)).set i child₂ =
        n.children.take i ++ ([child₂] ++ behind) := by
      rw [List.set_append_right _ _ (by omega), hlength, Nat.sub_self]
      rfl
    refine ⟨_, _, hf', (get_cons hc₁).trans hget₁, update?_cons hc₁ hupdate, hg'.trans ?_⟩
    exact congrArg (fun children => some (n.withChildren children)) hset.symm

end Node

namespace EditScript

section

variable {f g : Path → Option Edit} {root : Node} {path : Path} {edit : Edit}

theorem applyOne_replace {node tree tree' : Node}
    (h : tree.update? (fun _ => some node) path = some tree') :
    applyOne tree (path, .replace node) = .ok tree' := by
  rw [applyOne, h]

theorem applyOne_remove {tree tree' parent : Node} {i : Nat} (hget : tree.get path = some parent)
    (hi : i < parent.children.length)
    (h : tree.update? (fun p => some (p.withChildren (p.children.eraseIdx i))) path = some tree') :
    applyOne tree (path ++ [i], .remove) = .ok tree' := by
  rw [applyOne]
  simp only [List.getLast?_concat, List.dropLast_concat, hget, h]
  rw [if_neg (by omega)]

/-- One more replacement, to the left of the changes that were made already. -/
theorem replace_rebuilt {node : Node} (hget : (root.get path).isSome)
    (hright : ∀ p, ¬ path.LeftOf p → f p = none) (hedit : g path = some (.replace node))
    (hagree : ∀ p, p ≠ path → g p = f p) :
    ∃ tree tree', root.rebuilt f = some tree ∧ applyOne tree (path, .replace node) = .ok tree' ∧
      root.rebuilt g = some tree' := by
  obtain ⟨m, hm⟩ := Option.isSome_iff_exists.mp hget
  have hf : m.rebuilt (fun p => f (path ++ p)) = some m :=
    Node.rebuilt_untouched m _ fun p => hright _ fun h => h.off (List.prefix_append path p)
  have hg : m.rebuilt (fun p => g (path ++ p)) = some node :=
    Node.rebuilt_of_replace (by rw [List.append_nil, hedit])
  obtain ⟨tree, tree', htree, -, hupdate, htree'⟩ :=
    Node.update?_rebuilt (F := fun _ => some node) hm (fun p _ h => hright p h)
      (fun p h => hagree p fun heq => h (heq ▸ List.prefix_refl p)) hf rfl hg
  exact ⟨tree, tree', htree, applyOne_replace hupdate, htree'⟩

/-- One more removal, to the left of the changes that were made already. -/
theorem remove_rebuilt {i : Nat} (hget : (root.get (path ++ [i])).isSome)
    (hright : ∀ p, ¬ (path ++ [i]).LeftOf p → f p = none)
    (hedit : g (path ++ [i]) = some .remove) (hagree : ∀ p, p ≠ path ++ [i] → g p = f p) :
    ∃ tree tree', root.rebuilt f = some tree ∧ applyOne tree (path ++ [i], .remove) = .ok tree' ∧
      root.rebuilt g = some tree' := by
  obtain ⟨m, hm, child, hc⟩ :
      ∃ m, root.get path = some m ∧ ∃ child, m.children[i]? = some child := by
    rw [Node.get_append] at hget
    obtain ⟨child, hget⟩ := Option.isSome_iff_exists.mp hget
    obtain ⟨m, hm, hget⟩ := Option.bind_eq_some_iff.mp hget
    obtain ⟨child, hc, -⟩ := Node.get_cons_eq_some hget
    exact ⟨m, hm, child, hc⟩
  obtain ⟨hi, -⟩ := List.getElem?_eq_some_iff.mp hc
  -- of the parent, only children behind the removed one are changed so far
  have hparent : ∀ p, ¬ Path.LeftOf [i] p → f (path ++ p) = none := fun p h =>
    hright _ fun hleft => h (Path.leftOf_append.mp hleft)
  have hbefore : ∀ j p, j < i → f (path ++ j :: p) = none := fun j p hj =>
    hparent _ fun h => by
      have := Path.leftOf_cons.mp h
      omega
  have hother : ∀ p, (∀ rest, p ≠ i :: rest) → g (path ++ p) = f (path ++ p) := fun p hp =>
    hagree _ fun h => hp [] (List.append_cancel_left h)
  have hchild : child.rebuilt (fun p => f (path ++ i :: p)) = some child :=
    Node.rebuilt_untouched child _ fun p => hparent _ fun h => h.off (List.prefix_append [i] p)
  have hchild' : child.rebuilt (fun p => g (path ++ i :: p)) = none :=
    Node.rebuilt_eq_none_iff.mpr hedit
  obtain ⟨behind, hf, hg⟩ := Node.rebuilt_child (f := fun p => f (path ++ p))
    (g := fun p => g (path ++ p)) hc (hparent [] Path.not_leftOf_nil) hbefore hother
  rw [hchild] at hf
  rw [hchild'] at hg
  have hlength : (m.children.take i).length = i := List.length_take_of_le (by omega)
  have herase : (m.children.take i ++ ([child] ++ behind)).eraseIdx i =
      m.children.take i ++ ([] ++ behind) := by
    rw [List.eraseIdx_append_of_length_le (by omega), hlength, Nat.sub_self]
    rfl
  obtain ⟨tree, tree', htree, hparent', hupdate, htree'⟩ :=
    Node.update?_rebuilt (F := fun p => some (p.withChildren (p.children.eraseIdx i))) hm
      (fun p hp hl => hright p fun h => h.of_append.elim hp hl)
      (fun p h => hagree p fun heq => h (heq ▸ List.prefix_append path [i])) hf
      (congrArg (fun children => some (m.withChildren children)) herase) hg
  refine ⟨tree, tree', htree, applyOne_remove hparent' ?_ hupdate, htree'⟩
  rw [Node.withChildren, List.length_append, hlength, Option.toList_some, List.singleton_append,
    List.length_cons]
  omega

/-- **One more change**, to the left of those that were made already. -/
theorem applyOne_rebuilt {edit : Edit} (hget : (root.get path).isSome)
    (hroot : ¬ (path = [] ∧ edit = .remove)) (hright : ∀ p, ¬ path.LeftOf p → f p = none)
    (hedit : g path = some edit) (hagree : ∀ p, p ≠ path → g p = f p) :
    ∃ tree tree', root.rebuilt f = some tree ∧ applyOne tree (path, edit) = .ok tree' ∧
      root.rebuilt g = some tree' := by
  cases edit with
  | replace node => exact replace_rebuilt hget hright hedit hagree
  | remove =>
    obtain rfl | ⟨parent, i, rfl⟩ := List.eq_nil_or_concat path
    · exact absurd ⟨rfl, rfl⟩ hroot
    · rw [List.concat_eq_append] at *
      exact remove_rebuilt hget hright hedit hagree

end

/-! ## All changes, one after the other -/

variable {script script' : EditScript} {path : Path} {edit : Edit} {root : Node}

theorem change?_cons (e : Path × Edit) (path : Path) :
    change? (e :: script) path = if path = e.1 then some e.2 else change? script path := by
  rw [change?, List.lookup_cons]
  split
  · next h => rw [if_pos (beq_iff_eq.mp h)]
  · next h => rw [if_neg (beq_eq_false_iff_ne.mp h), change?]

theorem mem_of_change? (h : script.change? path = some edit) : (path, edit) ∈ script := by
  obtain ⟨l, r, rfl, -⟩ := List.lookup_eq_some_iff.mp h
  exact List.mem_append_right _ List.mem_cons_self

theorem Scattered.change?_eq_some_iff (h : script.Scattered) :
    script.change? path = some edit ↔ (path, edit) ∈ script := by
  refine ⟨mem_of_change?, fun hmem => ?_⟩
  obtain ⟨l, r, rfl⟩ := List.append_of_mem hmem
  refine List.lookup_eq_some_iff.mpr ⟨l, r, rfl, fun e he => bne_iff_ne.mpr ?_⟩
  exact ((List.pairwise_append.mp h).2.2 e he _ List.mem_cons_self).ne.symm

/-- Changes that lie apart can be listed in any order. -/
theorem Scattered.change?_perm (h : script.Scattered) (hperm : script'.Perm script) :
    script'.change? = script.change? := by
  have h' : script'.Scattered := (hperm.pairwise_iff Path.Apart.symm).mpr h
  funext path
  refine Option.ext fun edit => ?_
  rw [h'.change?_eq_some_iff, h.change?_eq_some_iff, hperm.mem_iff]

/-- **Changes that lie apart are made as if at once**, if they are made from the last one on. -/
theorem foldrM_applyOne (hleft : script.Pairwise fun a b => Path.LeftOf a.1 b.1)
    (hget : ∀ e ∈ script, (root.get e.1).isSome) (hroot : ([], Edit.remove) ∉ script) :
    ∃ tree, script.foldrM (fun e tree => applyOne tree e) root = .ok tree ∧
      root.rebuilt script.change? = some tree := by
  induction script with
  | nil => exact ⟨root, rfl, Node.rebuilt_untouched root _ fun _ => rfl⟩
  | cons e script ih =>
    obtain ⟨hfirst, hleft⟩ := List.pairwise_cons.mp hleft
    obtain ⟨tree, hfold, htree⟩ := ih hleft (fun e he => hget e (List.mem_cons_of_mem _ he))
      (fun h => hroot (List.mem_cons_of_mem _ h))
    have hright : ∀ p, ¬ e.1.LeftOf p → change? script p = none := by
      intro p hp
      rcases h : change? script p with _ | edit
      · rfl
      · exact absurd (hfirst _ (mem_of_change? h)) hp
    obtain ⟨tree₁, tree₂, htree₁, happly, htree₂⟩ :=
      applyOne_rebuilt (g := change? (e :: script)) (hget e List.mem_cons_self)
        (fun h => hroot (by rw [← h.1, ← h.2]; exact List.mem_cons_self)) hright
        (by rw [change?_cons, if_pos rfl]) (fun p hp => by rw [change?_cons, if_neg hp])
    rw [htree, Option.some.injEq] at htree₁
    subst htree₁
    refine ⟨tree₂, ?_, htree₂⟩
    rw [List.foldrM_cons, hfold]
    exact happly

theorem lastFirst_perm (script : EditScript) : script.lastFirst.reverse.Perm script := by
  rw [lastFirst, List.reverse_reverse]
  exact List.mergeSort_perm _ _

theorem Scattered.pairwise_lastFirst (h : script.Scattered) :
    script.lastFirst.reverse.Pairwise fun a b => Path.LeftOf a.1 b.1 := by
  have htrans (a b c : Path × Edit) (hab : (a.1.order b.1).isLE) (hbc : (b.1.order c.1).isLE) :
      (a.1.order c.1).isLE :=
    Path.isLE_order_trans hab hbc
  have htotal (a b : Path × Edit) : (a.1.order b.1).isLE || (b.1.order a.1).isLE :=
    Bool.or_eq_true_iff.mpr (Path.isLE_order_total a.1 b.1)
  have hsorted := List.pairwise_mergeSort htrans htotal script
  have hapart := ((lastFirst_perm script).pairwise_iff Path.Apart.symm).mpr h
  rw [lastFirst, List.reverse_reverse] at hapart ⊢
  exact (hapart.and hsorted).imp fun h => h.1.leftOf h.2

/-- A change of the root that lies apart from the others is the only one. -/
theorem Scattered.eq_singleton (h : script.Scattered) (hroot : ([], edit) ∈ script) :
    script = [([], edit)] := by
  obtain ⟨l, r, rfl⟩ := List.append_of_mem hroot
  obtain ⟨-, hr, hl⟩ := List.pairwise_append.mp h
  have hl : l = [] := List.eq_nil_iff_forall_not_mem.mpr fun e he =>
    Path.not_apart_nil (hl e he _ List.mem_cons_self).symm
  have hr : r = [] := List.eq_nil_iff_forall_not_mem.mpr fun e he =>
    Path.not_apart_nil ((List.pairwise_cons.mp hr).1 e he)
  rw [hl, hr, List.nil_append]

/-- **Making changes that lie apart** puts all of them in at once; only the root cannot be removed.
-/
theorem Scattered.apply_eq (h : script.Scattered) (hget : ∀ e ∈ script, (root.get e.1).isSome) :
    script.apply root =
      match root.rebuilt script.change? with
      | some tree => .ok tree
      | none => .error (.visit "cannot remove the root node") := by
  by_cases hroot : ([], Edit.remove) ∈ script
  · rw [Node.rebuilt_eq_none_iff.mpr (h.change?_eq_some_iff.mpr hroot), h.eq_singleton hroot, apply,
      lastFirst, List.mergeSort_singleton]
    rfl
  · have hperm := lastFirst_perm script
    obtain ⟨tree, hfold, htree⟩ := foldrM_applyOne h.pairwise_lastFirst
      (fun e he => hget e (hperm.mem_iff.mp he)) (fun he => hroot (hperm.mem_iff.mp he))
    rw [h.change?_perm hperm] at htree
    rw [← List.foldlM_reverse, List.reverse_reverse] at hfold
    rw [htree]
    exact hfold

end EditScript

/-! ## What a walk leaves behind -/

/-- **A walk that makes changes substitutes.** The changes of a walk are at nodes of the tree, none
of them at or below another. Making them gives the tree with all of them put in at once, unless they
remove the root. A walk in place answers with their number and leaves that tree; if it was too deep,
or was to remove the root, it answers with an error and leaves the tree that was there. -/
theorem traverse_substitutes {σ : Type} (root : Node) (visitor : Visitor σ) (hook : Hook σ)
    (limit : Nat) (state : σ) :
    let script := (traverse root visitor limit state).edits
    let t := traverse root (.onEnter hook) limit state
    (∀ e ∈ script, (root.get e.1).isSome) ∧
    script.Pairwise (fun a b => Path.Apart a.1 b.1) ∧
    (root.rebuilt script.change? = none ↔ ([], .remove) ∈ script) ∧
    script.apply root =
      (match root.rebuilt script.change? with
      | some tree => .ok tree
      | none => .error (.visit "cannot remove the root node")) ∧
    walkInPlace root limit hook state =
      match t.completion, root.rebuilt t.edits.change? with
      | .depthLimitExceeded limit, _ =>
        (.error (.visit ("tree is deeper than the limit of " ++ toString limit)), root)
      | _, some tree => (.ok t.edits.length, tree)
      | _, none => (.error (.visit "cannot remove the root node"), root) := by
  obtain ⟨hget, hapart⟩ := edits_traverse root visitor limit state
  refine ⟨hget, hapart, ?_, hapart.apply_eq hget, ?_⟩
  · rw [Node.rebuilt_eq_none_iff, hapart.change?_eq_some_iff]
  · obtain ⟨hget, hapart⟩ := edits_traverse root (.onEnter hook) limit state
    have happly := hapart.apply_eq hget
    rw [walkInPlace, walkEditing]
    cases (traverse root (.onEnter hook) limit state).completion with
    | depthLimitExceeded limit => rfl
    | _ =>
      simp only [happly]
      cases root.rebuilt _ <;> rfl

end MarkupEdit.Tree
