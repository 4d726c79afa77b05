import MarkupEdit.Edit.Engine
import MarkupEdit.Proofs.Edit.Locality
import MarkupEdit.Proofs.Edit.TagEdit
import MarkupEdit.Proofs.Tree.Calls

/-!
# Literals that are edited

The walk for literals does not enter attributes, so no text that it finds is part of an id.

* `HoldsLiteral`: a literal in a node, outside of attributes.
* `mem_literalMatches`: **whatever the walk finds is such a literal.**
* `alike_stringLiteral`: a literal with another value is a literal still.
* `alike_editLiteral`: **a tree with another value in a literal has the same elements.**
-/

namespace MarkupEdit.Edit

open MarkupEdit.Text MarkupEdit.Tree

variable {node child parent : Node} {place : Place} {path : Path} {index limit : Nat}
  {query : String} {found : LiteralMatch}

/-! ## The walk for literals -/

/-- A literal in a node, with no attribute around it. -/
structure HoldsLiteral (n : Node) (path : Path) : Prop where
  literal : ∃ c, n.get path = some c ∧ (c.kind = .string ∨ c.kind = .templateString)
  outside : ∀ k ∈ n.along path, k.kind ≠ .jsxAttribute

theorem HoldsLiteral.cons (h : HoldsLiteral child path)
    (hchild : parent.children[index]? = some child)
    (hkind : parent.kind ≠ .jsxAttribute) : HoldsLiteral parent (index :: path) := by
  obtain ⟨c, hc, hliteral⟩ := h.literal
  refine ⟨⟨c, by rw [Node.get_cons hchild, hc], hliteral⟩, fun k hk => ?_⟩
  rw [Node.along, hchild] at hk
  rcases List.mem_cons.mp hk with rfl | hk
  · exact hkind
  · exact h.outside k hk

/-- The visitor that looks for literals. -/
abbrev literalVisitor (query : String) : Visitor (List LiteralMatch) := .onEnter (literalHook query)

theorem path_of_literalMatch? (h : literalMatch? query node place = some found) :
    found.path = place.path := by
  unfold literalMatch? at h
  dsimp only at h
  split at h
  · cases h
  · obtain ⟨value, -, h⟩ := Option.bind_eq_some_iff.mp h
    split at h <;> cases h
    rfl

/-- At a node the walk takes nothing, or the literal that the node is. It does not go into attributes.
-/
theorem literalHook_cases (query : String) (node : Node) (place : Place)
    (state : List LiteralMatch) :
    (∃ skip, literalHook query node place state = (state, { Control.none with skip := skip }) ∧
      (skip = false → node.kind ≠ .jsxAttribute)) ∨
    (node.kind = .string ∨ node.kind = .templateString) ∧
      literalHook query node place state =
        (state ++ (literalMatch? query node place).toList, Control.none) := by
  unfold literalHook
  split
  · exact .inl ⟨true, rfl, fun h => nomatch h⟩
  · exact .inl ⟨true, rfl, fun h => nomatch h⟩
  · next hkind => exact .inr ⟨.inl hkind, rfl⟩
  · next hkind => exact .inr ⟨.inr hkind, rfl⟩
  · next hattribute _ _ => exact .inl ⟨false, rfl, fun _ hkind => hattribute hkind⟩

/-- What the walk finds where it enters a node, and whether it goes on to the children. -/
theorem enterNode_literal (query : String) (limit : Nat) (node : Node) (place : Place)
    (t : Traversal (List LiteralMatch)) :
    (∀ found ∈ (enterNode (literalVisitor query) limit node place t).1.state,
      found ∈ t.state ∨ found.path = place.path ∧ HoldsLiteral node []) ∧
    ((enterNode (literalVisitor query) limit node place t).2 = .descend →
      node.kind ≠ .jsxAttribute) := by
  by_cases hdeep : limit < place.depth
  · rw [enterNode_deep hdeep]
    exact ⟨fun _ h => .inl h, fun h => nomatch h⟩
  rcases literalHook_cases query node place t.state with ⟨skip, hhook, hskip⟩ | ⟨hkind, hhook⟩
  · rw [enterNode_eq hdeep hhook]
    refine ⟨fun found hfound => .inl hfound, fun honward => hskip ?_⟩
    cases skip with
    | false => rfl
    | true => cases honward
  · rw [enterNode_eq hdeep hhook]
    refine ⟨fun found hfound => ?_, fun _ hattribute => ?_⟩
    · rcases List.mem_append.mp hfound with hfound | hfound
      · exact .inl hfound
      · have hpath := path_of_literalMatch? (Option.mem_toList.mp hfound)
        exact .inr ⟨hpath, ⟨node, rfl, hkind⟩, fun _ h => nomatch h⟩
    · rw [hattribute] at hkind
      rcases hkind with hkind | hkind <;> cases hkind

theorem leaveNode_literal (query : String) (node : Node) (place : Place)
    (t : Traversal (List LiteralMatch)) :
    leaveNode (literalVisitor query) node place t = (t, true) := by
  rw [leaveNode_eq rfl]
  rfl

mutual

/-- **What is found in a node are literals in it**, with no attribute around them. -/
theorem tour_literal (query : String) (limit : Nat) (node : Node) (place : Place)
    (t : Traversal (List LiteralMatch)) :
    ∀ found ∈ (tour (literalVisitor query) limit node place t).1.state,
      found ∈ t.state ∨ ∃ path, found.path = place.path ++ path ∧ HoldsLiteral node path := by
  rw [tour_eq]
  obtain ⟨hstate, hkind⟩ := enterNode_literal query limit node place t
  rcases henter : enterNode (literalVisitor query) limit node place t with ⟨t₁, onward⟩
  rw [henter] at hstate hkind
  -- what is there when the walk leaves the node was there before, is the node, or is below it
  have hentered : ∀ found ∈ t₁.state,
      found ∈ t.state ∨ ∃ path, found.path = place.path ++ path ∧ HoldsLiteral node path := by
    intro found hfound
    refine (hstate found hfound).imp_right fun ⟨hpath, hliteral⟩ => ⟨[], ?_, hliteral⟩
    rw [hpath, List.append_nil]
  cases onward with
  | halt => exact hentered
  | settled => exact hentered
  | leave =>
    dsimp only
    rw [leaveNode_literal]
    exact hentered
  | descend =>
    have hchildren : ∀ found ∈ (tourAll (literalVisitor query) limit node place 0 node.children
        t₁).1.state, found ∈ t.state ∨ ∃ path, found.path = place.path ++ path ∧
          HoldsLiteral node path := by
      intro found hfound
      rcases tourAll_literal query limit node place 0 node.children t₁ List.drop_zero.symm
        found hfound with hfound | ⟨i, child, path, hchild, hpath, hliteral⟩
      · exact hentered found hfound
      · exact .inr ⟨i :: path, hpath, hliteral.cons hchild (hkind rfl)⟩
    dsimp only
    rcases htour : tourAll (literalVisitor query) limit node place 0 node.children t₁ with
      ⟨t₂, _ | _⟩ <;> rw [htour] at hchildren
    · exact hchildren
    · dsimp only
      rw [leaveNode_literal]
      exact hchildren
termination_by 2 * node.count
decreasing_by
  have := node.count_eq
  omega

theorem tourAll_literal (query : String) (limit : Nat) (parent : Node) (place : Place) (index : Nat)
    (children : List Node) (t : Traversal (List LiteralMatch))
    (h : children = parent.children.drop index) :
    ∀ found ∈ (tourAll (literalVisitor query) limit parent place index children t).1.state,
      found ∈ t.state ∨ ∃ i child path, parent.children[i]? = some child ∧
        found.path = place.path ++ i :: path ∧ HoldsLiteral child path := by
  match children with
  | [] => exact fun found hfound => .inl hfound
  | child :: rest =>
    have hchild : parent.children[index]? = some child := by
      rw [← List.head?_drop, ← h]
      rfl
    have hdrop : rest = parent.children.drop (index + 1) := by
      rw [← List.drop_drop, ← h]
      rfl
    have hfirst : ∀ found ∈ (tour (literalVisitor query) limit child (place.child parent index)
        t).1.state, found ∈ t.state ∨ ∃ i child path, parent.children[i]? = some child ∧
          found.path = place.path ++ i :: path ∧ HoldsLiteral child path := by
      intro found hfound
      refine (tour_literal query limit child (place.child parent index) t found hfound).imp_right
        fun ⟨path, hpath, hliteral⟩ => ⟨index, child, path, hchild, ?_, hliteral⟩
      rw [hpath, Place.path_child, List.append_assoc, List.singleton_append]
    rw [tourAll]
    rcases htour : tour (literalVisitor query) limit child (place.child parent index) t with
      ⟨t₁, _ | _⟩ <;> rw [htour] at hfirst
    · exact hfirst
    · intro found hfound
      rcases tourAll_literal query limit parent place (index + 1) rest t₁ hdrop found hfound with
        hfound | hfound
      · exact hfirst found hfound
      · exact .inr hfound
termination_by 2 * Node.countAll children + 1
decreasing_by
  all_goals
    have := child.count_eq
    simp only [Node.countAll]
    omega

end

/-- **Whatever the walk finds is a literal outside of attributes.** -/
theorem mem_literalMatches {tree : SourceTree} {config : Config}
    (h : found ∈ literalMatches tree query config) : HoldsLiteral tree.root found.path := by
  rw [literalMatches, traverse_eq_tour] at h
  rcases tour_literal query config.maxDepth tree.root Place.root (Traversal.start []) found h with
    h | ⟨path, hpath, hliteral⟩
  · cases h
  · have hpath : found.path = path := hpath
    rwa [hpath]

theorem mem_of_bestLiteral? {config : LiteralConfig} {l : List LiteralMatch}
    (h : bestLiteral? config l = some found) : found ∈ l := by
  induction l generalizing found with
  | nil => cases h
  | cons first rest ih =>
    rw [bestLiteral?] at h
    split at h
    · cases h
      exact List.mem_cons_self
    · next other hother =>
      split at h <;> cases h
      · exact List.mem_cons_of_mem _ (ih hother)
      · exact List.mem_cons_self

theorem holdsLiteral_of_findLiteral? {tree : SourceTree} {text : String} {config : Config}
    (h : findLiteral? tree text config = some found) : HoldsLiteral tree.root found.path := by
  unfold findLiteral? at h
  dsimp only at h
  split at h
  · cases h
  · exact mem_literalMatches (mem_of_bestLiteral? h)

/-! ## The literal that is edited -/

variable {id : String} {c : Node}

/-- A literal with another value is a literal still. Only its text can be told from that of the old
one. -/
theorem alike_stringLiteral (horderly : c.OrderlyBelow)
    (hkind : c.kind = .string ∨ c.kind = .templateString) (value : String) (quote : Char) :
    Alike id false (inPlaceOf (.stringLiteral value quote) c) c := by
  have hface : ∀ k : Node, k.kind = .string ∨ k.kind = .templateString →
      face id false k = ⟨k.field, true, false, none, none, none, none, none⟩ := by
    intro k hk
    have hplain : k.isPlain = false := by
      rw [Node.isPlain_eq]
      rcases hk with hk | hk <;> rw [hk] <;> rfl
    rw [face, hplain]
    rcases hk with hk | hk <;> simp [Node.isNamed, Node.isToken, hk]
  have hliteral : (inPlaceOf (.stringLiteral value quote) c).kind = .string ∨
      (inPlaceOf (.stringLiteral value quote) c).kind = .templateString := by
    unfold inPlaceOf Node.stringLiteral
    split
    · exact .inr rfl
    · exact .inl rfl
  refine ⟨?_, ?_, fun _ => (orderlyBelow_stringLiteral value quote).congr rfl rfl rfl⟩
  · rw [hface _ hliteral, hface c hkind]
    exact congrArg (Face.mk · true false none none none none none) (Option.or_none)
  · have hverbatim : c.kind.isVerbatim = true := by rcases hkind with hk | hk <;> rw [hk] <;> rfl
    rw [Node.identities_of_children_eq_nil (horderly.self.leaf (.inr (.inl hverbatim)))]
    exact Node.identities_of_children_eq_nil rfl

variable {tree edited : SourceTree} {config : Config} {change : Change}

theorem alike_replaceLiteral {text : String} (horderly : tree.root.OrderlyBelow)
    (hfound : HoldsLiteral tree.root found.path)
    (h : replaceLiteral tree found text config = .ok (edited, change)) :
    Alike id false edited.root tree.root := by
  obtain ⟨literal, hliteral, hkind⟩ := hfound.literal
  unfold replaceLiteral at h
  split at h
  · cases h
  next current hcurrent =>
  obtain rfl : literal = current := Option.some.inj (hliteral.symm.trans hcurrent)
  obtain ⟨t, hplaced, h⟩ := ok_of_map h
  cases h
  obtain ⟨root, hroot, rfl⟩ := placed_eq_ok hplaced
  refine alike_update? horderly (.inr hfound.outside) (fun m m' hm hm' => ?_) hroot
  obtain rfl : literal = m := Option.some.inj (hliteral.symm.trans hm)
  cases hm'
  exact alike_stringLiteral (horderly.get hliteral) hkind _ _

/-- **A tree with another value in a literal has the same elements.** -/
theorem alike_editLiteral {criteria : Criteria} {operation : Operation} {fault : EditFault}
    (horderly : tree.root.OrderlyBelow)
    (h : editLiteral config tree criteria operation fault = .ok (edited, change)) :
    Alike id false edited.root tree.root := by
  unfold editLiteral at h
  split at h
  · split at h
    · cases h
    · split at h
      · next found hfound =>
        exact alike_replaceLiteral horderly (holdsLiteral_of_findLiteral? hfound) h
      · cases h
  · cases h

end MarkupEdit.Edit
