import Mathlib.Data.List.InsertIdx
import MarkupEdit.Proofs.Tree.Frame

/-!
# Edits at a path

A tree is read and written at a path as a record is at a field: what was written is read back, the last
of two writings counts, and what was read may be written again. In the text a writing changes the part
of the node and nothing else. The edits at a path are each one writing, of the node at the path or of its
parent with other children.

* `SourceTree.written`: the tree with another node at a path.
* `get_written`, `written_written`, `written_self`: **reading and writing at a path.**
* `toSource_written`: what is printed after a writing.
* `PathEdit.Made`, `PathEdit.Fails`: what an edit makes of a tree, or why it cannot be made.
* `PathEdit.Made.undone`: **each edit is undone by another one.**
* `PathEdit.run_eq`: edits in place, which keep the tree if they fail.
* `pathEdits_splice`: edits at a path put nodes between the same two texts, and invert each other.
-/

namespace MarkupEdit.Tree

namespace Node

variable {n m : Node} {path : List Nat} {f : Node → Option Node}

/-- What a change makes of a descendant is put in its place. -/
theorem update?_of_get (h : n.get path = some m) :
    n.update? f path = (f m).bind fun m' => n.update? (fun _ => some m') path := by
  induction path generalizing n with
  | nil =>
    rw [get, Option.some.injEq] at h
    subst h
    rw [update?]
    cases f n <;> rfl
  | cons i path ih =>
    obtain ⟨child, hc, hm⟩ := get_cons_eq_some h
    have hrest : ∀ m', n.update? (fun _ => some m') (i :: path) =
        (child.update? (fun _ => some m') path).map
          fun child => { n with children := n.children.set i child } := by
      intro m'
      rw [update?, hc]
    rw [update?, hc]
    dsimp only
    rw [ih hm, Option.map_bind]
    exact congrArg _ (funext fun m' => (hrest m').symm)

end Node

theorem Path.getLast?_child (parent : Path) (index : Nat) :
    (parent.child index).getLast? = some index := List.getLast?_concat

theorem Path.dropLast_child (parent : Path) (index : Nat) :
    (parent.child index).dropLast = parent := List.dropLast_concat

namespace SourceTree

/-! ## Reading and writing -/

/-- The tree with another node at a path, if there is a node. -/
def written (t : SourceTree) (path : Path) (node : Node) : SourceTree :=
  { t with root := (t.root.update? (fun _ => some node) path).getD t.root }

variable {t : SourceTree} {path parent : Path} {n a b owner child : Node} {index : Nat}

theorem written_of_update? {root : Node} (h : t.root.update? (fun _ => some a) path = some root) :
    t.written path a = { t with root := root } := by
  rw [written, h, Option.getD_some]

/-- **What was written is read back.** -/
theorem get_written (h : t.get path = some n) : (t.written path a).get path = some a := by
  obtain ⟨root, hroot⟩ := Node.exists_update? h a
  obtain ⟨-, a', -, ha, hget, -, -⟩ := Node.update?_spec hroot
  rw [written_of_update? hroot, SourceTree.get, hget, ha]

/-- **The last writing counts.** -/
theorem written_written (h : t.get path = some n) :
    (t.written path a).written path b = t.written path b := by
  obtain ⟨root, hroot⟩ := Node.exists_update? h a
  have hagain : root.update? (fun _ => some b) path = t.root.update? (fun _ => some b) path :=
    Node.update?_update? hroot fun _ _ _ _ => rfl
  obtain ⟨root', hroot'⟩ := Node.exists_update? h b
  rw [written_of_update? hroot, written_of_update? hroot', written]
  dsimp only
  rw [hagain, hroot', Option.getD_some]

/-- **What was read may be written again.** -/
theorem written_self (h : t.get path = some n) : t.written path n = t := by
  rw [written_of_update? (Node.update?_self h)]

/-- Other children are taken back by writing those that were there. -/
theorem written_withChildren (h : t.get parent = some owner) (children : List Node) :
    (t.written parent (owner.withChildren children)).written parent
      ((owner.withChildren children).withChildren owner.children) = t := by
  have howner : (owner.withChildren children).withChildren owner.children = owner := by
    cases owner
    rfl
  rw [written_written h, howner, written_self h]

/-- **What is printed after a writing**: the new node between the texts around the old one. -/
theorem toSource_written (h : t.get path = some n) :
    (t.written path a).toSource = t.front path ++ (a.full ++ t.back path) := by
  obtain ⟨root, hroot⟩ := Node.exists_update? h a
  obtain ⟨-, a', -, ha, hprinted⟩ := toSource_of_update? hroot
  cases ha
  rw [written_of_update? hroot, hprinted]

/-- A node at a path other than the root is a child of the node at the path in front. -/
theorem get_child (parent : Path) (index : Nat) :
    t.get (parent.child index) = (t.get parent).bind fun owner => owner.children[index]? := by
  rw [SourceTree.get, Path.child, Node.get_append]
  refine congrArg _ (funext fun owner => ?_)
  rw [Node.get]
  cases owner.children[index]? <;> rfl

/-- **Without a child, what is printed around it meets.** -/
theorem toSource_written_eraseIdx (hparent : t.get parent = some owner)
    (hchild : owner.children[index]? = some child) :
    (t.written parent (owner.withChildren (owner.children.eraseIdx index))).toSource =
      t.front (parent.child index) ++ t.back (parent.child index) := by
  rw [toSource_written hparent, front, back, front, back, Path.child,
    Node.front_child hparent hchild, Node.back_child hparent hchild, Node.full, Node.body_eq,
    Node.withChildren, List.eraseIdx_eq_take_drop_succ, Node.bodies_append]
  simp only [String.append_assoc]

end SourceTree

/-! ## Edits -/

/-- A change of a tree at a path. -/
inductive PathEdit where
  | replace (path : Path) (node : Node)
  | remove (path : Path)
  | insert (parent : Path) (index : Nat) (node : Node)

namespace PathEdit

/-- The tree after a change, and the node that is no longer in it. -/
def apply (t : SourceTree) : PathEdit → Except SyntaxFault (SourceTree × Option Node)
  | replace path node => (t.replace path node).map fun (t', old) => (t', some old)
  | remove path => (t.remove path).map fun (t', old) => (t', some old)
  | insert parent index node => (t.insert parent index node).map fun t' => (t', none)

/-- **What an edit makes of a tree**, and the node that it takes out. -/
inductive Made (t : SourceTree) : PathEdit → Option Node → SourceTree → Prop where
  | replaced {path : Path} {old node : Node} (h : t.get path = some old) :
      Made t (.replace path node) (some old) (t.written path node)
  | removed {parent : Path} {index : Nat} {owner old : Node} (hparent : t.get parent = some owner)
      (hchild : owner.children[index]? = some old) :
      Made t (.remove (parent.child index)) (some old)
        (t.written parent (owner.withChildren (owner.children.eraseIdx index)))
  | inserted {parent : Path} {index : Nat} {owner node : Node} (hparent : t.get parent = some owner)
      (hindex : index ≤ owner.children.length) :
      Made t (.insert parent index node) none
        (t.written parent (owner.withChildren (owner.children.insertIdx index node)))

/-- **Why an edit cannot be made.** -/
inductive Fails (t : SourceTree) : PathEdit → SyntaxFault → Prop where
  /-- No node is at the path. -/
  | replaced {path : Path} {node : Node} (h : t.get path = none) :
      Fails t (.replace path node) (.invalidPath path.text "no node at path")
  /-- The root is not to be removed. -/
  | root : Fails t (.remove []) (.invalidPath "/" "the root has no parent")
  | orphan {parent : Path} {index : Nat} (hparent : t.get parent = none) :
      Fails t (.remove (parent.child index))
        (.invalidPath (parent.child index).text "no parent at path")
  | removed {parent : Path} {index : Nat} {owner : Node} (hparent : t.get parent = some owner)
      (hindex : owner.children.length ≤ index) :
      Fails t (.remove (parent.child index))
        (.invalidPath (parent.child index).text "child index out of range")
  | homeless {parent : Path} {index : Nat} {node : Node} (hparent : t.get parent = none) :
      Fails t (.insert parent index node) (.invalidPath parent.text "no node at path")
  /-- The index is behind the end of the children. -/
  | inserted {parent : Path} {index : Nat} {owner node : Node} (hparent : t.get parent = some owner)
      (hindex : owner.children.length < index) :
      Fails t (.insert parent index node)
        (.invalidPath (parent.child index).text "insertion index out of range")

variable {t t' : SourceTree} {edit : PathEdit} {old : Option Node} {fault : SyntaxFault}

/-- Every edit can be made or fails. -/
theorem made_or_fails (t : SourceTree) (edit : PathEdit) :
    (∃ old t', Made t edit old t') ∨ ∃ fault, Fails t edit fault := by
  cases edit with
  | replace path node =>
    cases h : t.get path with
    | none => exact .inr ⟨_, .replaced h⟩
    | some old => exact .inl ⟨_, _, .replaced h⟩
  | remove path =>
    rcases List.eq_nil_or_concat path with rfl | ⟨parent, index, rfl⟩
    · exact .inr ⟨_, .root⟩
    rw [List.concat_eq_append]
    cases hparent : t.get parent with
    | none => exact .inr ⟨_, @Fails.orphan t parent index hparent⟩
    | some owner =>
      cases hchild : owner.children[index]? with
      | none => exact .inr ⟨_, .removed hparent (List.getElem?_eq_none_iff.mp hchild)⟩
      | some old => exact .inl ⟨_, _, .removed hparent hchild⟩
  | insert parent index node =>
    cases hparent : t.get parent with
    | none => exact .inr ⟨_, .homeless hparent⟩
    | some owner =>
      rcases Nat.lt_or_ge owner.children.length index with hindex | hindex
      · exact .inr ⟨_, .inserted hparent hindex⟩
      · exact .inl ⟨_, _, .inserted hparent hindex⟩

/-! ## Undoing -/

/-- The edit that undoes an edit, told by the node that this one took out. -/
def undo? : PathEdit → Option Node → Option PathEdit
  | replace path _, some old => some (.replace path old)
  | remove path, some old => path.getLast?.map fun index => .insert path.dropLast index old
  | insert parent index _, none => some (.remove (parent.child index))
  | _, _ => none

/-- The node that an edit puts into a tree. -/
def placed? : PathEdit → Option Node
  | replace _ node => some node
  | remove _ => none
  | insert _ _ node => some node

/-- **Each edit is undone by another one**, which takes out again what the edit put in. -/
theorem Made.undone (h : Made t edit old t') :
    ∃ back, edit.undo? old = some back ∧ Made t' back edit.placed? t := by
  cases h with
  | @replaced path old node hget =>
    have hback : (t.written path node).written path old = t := by
      rw [SourceTree.written_written hget, SourceTree.written_self hget]
    have hmade : Made (t.written path node) (.replace path old) (some node)
        ((t.written path node).written path old) := .replaced (SourceTree.get_written hget)
    rw [hback] at hmade
    exact ⟨_, rfl, hmade⟩
  | @removed parent index owner old hparent hchild =>
    obtain ⟨hindex, rfl⟩ := List.getElem?_eq_some_iff.mp hchild
    have hchildren : (owner.withChildren (owner.children.eraseIdx index)).children.insertIdx index
        owner.children[index] = owner.children := List.insertIdx_eraseIdx_getElem hindex
    have hlength : index ≤ (owner.withChildren (owner.children.eraseIdx index)).children.length := by
      rw [Node.withChildren, List.length_eraseIdx_of_lt hindex]
      omega
    have hmade := @Made.inserted _ _ _ _ owner.children[index] (SourceTree.get_written hparent) hlength
    rw [hchildren, SourceTree.written_withChildren hparent] at hmade
    refine ⟨.insert parent index owner.children[index], ?_, hmade⟩
    rw [undo?, Path.getLast?_child, Path.dropLast_child]
    rfl
  | @inserted parent index owner node hparent hindex =>
    have hchildren : (owner.withChildren (owner.children.insertIdx index node)).children.eraseIdx
        index = owner.children := List.eraseIdx_insertIdx_self _
    have hchild : (owner.withChildren (owner.children.insertIdx index node)).children[index]? =
        some node := by
      rw [Node.withChildren, List.getElem?_insertIdx_self, if_pos hindex]
    have hmade := Made.removed (SourceTree.get_written hparent) hchild
    rw [hchildren, SourceTree.written_withChildren hparent] at hmade
    exact ⟨_, rfl, hmade⟩

/-! ## Success and failure -/

theorem apply_of_made (h : Made t edit old t') : edit.apply t = .ok (t', old) := by
  cases h with
  | @replaced path old node hget =>
    obtain ⟨root, hroot⟩ := Node.exists_update? hget node
    rw [apply, SourceTree.replace, hget, hroot, SourceTree.written_of_update? hroot]
    rfl
  | @removed parent index owner old hparent hchild =>
    obtain ⟨root, hroot⟩ := Node.exists_update? hparent
      (owner.withChildren (owner.children.eraseIdx index))
    have hupdate : t.root.update? (fun p => some (p.withChildren (p.children.eraseIdx index)))
        parent = some root := by
      rw [Node.update?_of_get hparent, Option.bind_some, hroot]
    rw [apply, SourceTree.remove, Path.getLast?_child, Path.dropLast_child]
    dsimp only
    rw [hparent]
    dsimp only
    rw [hchild, hupdate, SourceTree.written_of_update? hroot]
    rfl
  | @inserted parent index owner node hparent hindex =>
    obtain ⟨root, hroot⟩ := Node.exists_update? hparent
      (owner.withChildren (owner.children.insertIdx index node))
    have hupdate : t.root.update? (fun p => some (p.withChildren (p.children.insertIdx index node)))
        parent = some root := by
      rw [Node.update?_of_get hparent, Option.bind_some, hroot]
    rw [apply, SourceTree.insert, hparent]
    dsimp only
    rw [if_neg (Nat.not_lt.mpr hindex), hupdate, SourceTree.written_of_update? hroot]
    rfl

theorem apply_of_fails (h : Fails t edit fault) : edit.apply t = .error fault := by
  cases h with
  | @replaced path node hget => rw [apply, SourceTree.replace, hget]; rfl
  | root => rfl
  | @orphan parent index hparent =>
    rw [apply, SourceTree.remove, Path.getLast?_child, Path.dropLast_child]
    dsimp only
    rw [hparent]
    rfl
  | @removed parent index owner hparent hindex =>
    rw [apply, SourceTree.remove, Path.getLast?_child, Path.dropLast_child]
    dsimp only
    rw [hparent]
    dsimp only
    rw [List.getElem?_eq_none hindex]
    rfl
  | @homeless parent index node hparent => rw [apply, SourceTree.insert, hparent]; rfl
  | @inserted parent index owner node hparent hindex =>
    rw [apply, SourceTree.insert, hparent]
    dsimp only
    rw [if_pos hindex]
    rfl

/-- **An edit succeeds exactly as it is told.** -/
theorem apply_eq_ok_iff : edit.apply t = .ok (t', old) ↔ Made t edit old t' := by
  refine ⟨fun h => ?_, apply_of_made⟩
  rcases made_or_fails t edit with ⟨old', t'', hmade⟩ | ⟨fault, hfails⟩
  · rw [apply_of_made hmade] at h
    cases h
    exact hmade
  · rw [apply_of_fails hfails] at h
    cases h

/-- **An edit fails exactly for the reasons that there are.** -/
theorem apply_eq_error_iff : edit.apply t = .error fault ↔ Fails t edit fault := by
  refine ⟨fun h => ?_, apply_of_fails⟩
  rcases made_or_fails t edit with ⟨old', t'', hmade⟩ | ⟨fault', hfails⟩
  · rw [apply_of_made hmade] at h
    cases h
  · rw [apply_of_fails hfails] at h
    cases h
    exact hfails

/-! ## Edits in place -/

/-- What is done to a tree in place. Where it fails, the tree stays as it was left at that point. -/
abbrev InPlace := EStateM SyntaxFault SourceTree

/-- The node at a path. -/
def lookup (path : Path) (fault : SyntaxFault) : InPlace Node := do
  match (← get).get path with
  | some n => return n
  | none => throw fault

/-- Writes a node over the one at a path. -/
def write (path : Path) (node : Node) : InPlace Unit := modify (·.written path node)

/-- An edit in place: the node to write over is looked up, and the index is checked, before anything
is written. -/
def run : PathEdit → InPlace (Option Node)
  | replace path node => do
    let old ← lookup path (.invalidPath path.text "no node at path")
    write path node
    return some old
  | remove path => do
    match path.getLast? with
    | none => throw (.invalidPath path.text "the root has no parent")
    | some index =>
      let owner ← lookup path.dropLast (.invalidPath path.text "no parent at path")
      match owner.children[index]? with
      | none => throw (.invalidPath path.text "child index out of range")
      | some old =>
        write path.dropLast (owner.withChildren (owner.children.eraseIdx index))
        return some old
  | insert parent index node => do
    let owner ← lookup parent (.invalidPath parent.text "no node at path")
    if owner.children.length < index then
      throw (.invalidPath (parent.child index).text "insertion index out of range")
    else
      write parent (owner.withChildren (owner.children.insertIdx index node))
      return none

/-- What comes behind a lookup gets the node that is there, and the tree as it is. -/
theorem lookup_bind_of_some {path : Path} {n : Node} {α : Type} (h : t.get path = some n)
    (next : Node → InPlace α) : (lookup path fault >>= next) t = next n t := by
  have hlookup : lookup path fault t = .ok n t := by
    show (match t.get path with | some n => (pure n : InPlace Node) | none => throw fault) t = _
    rw [h]
    rfl
  show EStateM.bind (lookup path fault) next t = _
  rw [EStateM.bind, hlookup]

/-- Nothing comes behind a lookup that fails. -/
theorem lookup_bind_of_none {path : Path} {α : Type} (h : t.get path = none)
    (next : Node → InPlace α) : (lookup path fault >>= next) t = .error fault t := by
  have hlookup : lookup path fault t = .error fault t := by
    show (match t.get path with | some n => (pure n : InPlace Node) | none => throw fault) t = _
    rw [h]
    rfl
  show EStateM.bind (lookup path fault) next t = _
  rw [EStateM.bind, hlookup]

/-- A removal in place looks up the parent and the child. -/
theorem run_remove_child (parent : Path) (index : Nat) :
    (remove (parent.child index)).run =
      lookup parent (.invalidPath (parent.child index).text "no parent at path") >>= fun owner =>
        match owner.children[index]? with
        | none => throw (.invalidPath (parent.child index).text "child index out of range")
        | some old => do
          write parent (owner.withChildren (owner.children.eraseIdx index))
          return some old := by
  rw [run, Path.getLast?_child, Path.dropLast_child]

theorem run_of_made (h : Made t edit old t') : edit.run t = .ok old t' := by
  cases h with
  | replaced hget => rw [run, lookup_bind_of_some hget]; rfl
  | removed hparent hchild =>
    rw [run_remove_child, lookup_bind_of_some hparent, hchild]
    rfl
  | inserted hparent hindex =>
    rw [run, lookup_bind_of_some hparent, if_neg (Nat.not_lt.mpr hindex)]
    rfl

/-- Whatever fails, nothing has been written. -/
theorem run_of_fails (h : Fails t edit fault) : edit.run t = .error fault t := by
  cases h with
  | replaced hget => rw [run, lookup_bind_of_none hget]
  | root => rfl
  | orphan hparent => rw [run_remove_child, lookup_bind_of_none hparent]
  | removed hparent hindex =>
    rw [run_remove_child, lookup_bind_of_some hparent, List.getElem?_eq_none hindex]
    rfl
  | homeless hparent => rw [run, lookup_bind_of_none hparent]
  | inserted hparent hindex =>
    rw [run, lookup_bind_of_some hparent, if_pos hindex]
    rfl

/-- **An edit in place is the edit**, and where it fails it leaves the tree. -/
theorem run_eq (edit : PathEdit) (t : SourceTree) :
    edit.run t = match edit.apply t with
      | .ok (t', old) => .ok old t'
      | .error fault => .error fault t := by
  rcases made_or_fails t edit with ⟨old, t', hmade⟩ | ⟨fault, hfails⟩
  · rw [run_of_made hmade, apply_of_made hmade]
  · rw [run_of_fails hfails, apply_of_fails hfails]

theorem map_taken_eq_ok_iff {result : Except SyntaxFault (SourceTree × Node)} {old : Node} :
    result.map (fun (t', old) => (t', some old)) = .ok (t', some old) ↔ result = .ok (t', old) := by
  cases result with
  | error fault => exact ⟨(fun h => nomatch h), (fun h => nomatch h)⟩
  | ok result =>
    show Except.ok (result.1, some result.2) = _ ↔ _
    rw [Except.ok.injEq, Except.ok.injEq, Prod.ext_iff, Prod.ext_iff, Option.some.injEq]

theorem replace_eq_ok_iff {path : Path} {node old : Node} :
    t.replace path node = .ok (t', old) ↔ Made t (.replace path node) (some old) t' := by
  rw [← apply_eq_ok_iff, apply, map_taken_eq_ok_iff]

theorem remove_eq_ok_iff {path : Path} {old : Node} :
    t.remove path = .ok (t', old) ↔ Made t (.remove path) (some old) t' := by
  rw [← apply_eq_ok_iff, apply, map_taken_eq_ok_iff]

theorem insert_eq_ok_iff {parent : Path} {index : Nat} {node : Node} :
    t.insert parent index node = .ok t' ↔ Made t (.insert parent index node) none t' := by
  rw [← apply_eq_ok_iff, apply]
  cases t.insert parent index node with
  | error fault => exact ⟨(fun h => nomatch h), (fun h => nomatch h)⟩
  | ok result =>
    show Except.ok result = _ ↔ Except.ok (result, none) = _
    rw [Except.ok.injEq, Except.ok.injEq, Prod.ext_iff]
    exact (and_iff_left rfl).symm

theorem run_eq_ok_iff : edit.run t = .ok old t' ↔ edit.apply t = .ok (t', old) := by
  rw [run_eq]
  cases edit.apply t with
  | error fault => exact ⟨(fun h => nomatch h), (fun h => nomatch h)⟩
  | ok result =>
    show EStateM.Result.ok result.2 result.1 = _ ↔ _
    rw [EStateM.Result.ok.injEq, Except.ok.injEq, Prod.ext_iff, and_comm]

theorem run_eq_error_iff : edit.run t = .error fault t' ↔ edit.apply t = .error fault ∧ t' = t := by
  rw [run_eq]
  cases edit.apply t with
  | error fault' =>
    show EStateM.Result.error fault' t = _ ↔ _
    rw [EStateM.Result.error.injEq, Except.error.injEq, eq_comm (a := t)]
  | ok result => exact ⟨(fun h => nomatch h), (fun h => nomatch h.1)⟩

end PathEdit

/-- **Edits at a path put nodes between the same two texts, and invert each other.** Around a node are
two texts: with another node in its place this one is printed between them, and without it they meet.
A node that was removed is inserted again, and a node that was inserted is removed again, so that the
tree is what it was. An edit in place does the same, and keeps the tree if it fails; it fails only if it
is to remove the root, if no node is at its path or if its index is behind the end. -/
theorem pathEdits_splice (t : SourceTree) :
    (∀ path node, t.get path = some node → ∃ front back : String,
      t.toSource = front ++ (node.full ++ back) ∧
      (∀ new, ∃ t', t.replace path new = .ok (t', node) ∧
        t'.toSource = front ++ (new.full ++ back)) ∧
      ∀ parent index, path = Path.child parent index → ∃ t', t.remove path = .ok (t', node) ∧
        t'.toSource = front ++ back ∧ t'.insert parent index node = .ok t) ∧
    (∀ parent index node t', t.insert parent index node = .ok t' →
      t'.remove (Path.child parent index) = .ok (t, node)) ∧
    ∀ edit : PathEdit,
      (∀ old t', edit.run t = .ok old t' ↔ edit.apply t = .ok (t', old)) ∧
      (∀ fault t', edit.run t = .error fault t' ↔ edit.apply t = .error fault ∧ t' = t) ∧
      ∀ fault, edit.apply t = .error fault ↔ PathEdit.Fails t edit fault := by
  refine ⟨fun path node hget => ?_, fun parent index node t' hinsert => ?_, fun edit => ?_⟩
  · refine ⟨t.front path, t.back path, SourceTree.toSource_of_get hget, fun new => ?_, ?_⟩
    · exact ⟨t.written path new, PathEdit.replace_eq_ok_iff.mpr (.replaced hget),
        SourceTree.toSource_written hget⟩
    · rintro parent index rfl
      rw [SourceTree.get_child] at hget
      obtain ⟨owner, hparent, hchild⟩ := Option.bind_eq_some_iff.mp hget
      have hmade := PathEdit.Made.removed hparent hchild
      obtain ⟨back, hback, hundone⟩ := hmade.undone
      have hinsert : back = .insert parent index node := by
        rw [PathEdit.undo?, Path.getLast?_child, Path.dropLast_child] at hback
        exact (Option.some.inj hback).symm
      subst hinsert
      exact ⟨_, PathEdit.remove_eq_ok_iff.mpr hmade,
        SourceTree.toSource_written_eraseIdx hparent hchild, PathEdit.insert_eq_ok_iff.mpr hundone⟩
  · obtain ⟨back, hback, hundone⟩ := (PathEdit.insert_eq_ok_iff.mp hinsert).undone
    cases hback
    exact PathEdit.remove_eq_ok_iff.mpr hundone
  · exact ⟨fun _ _ => PathEdit.run_eq_ok_iff, fun _ _ => PathEdit.run_eq_error_iff,
      fun _ => PathEdit.apply_eq_error_iff⟩

/-- A tree of two names, the second of which is on a line of its own. -/
def namesTree : SourceTree where
  root := .branch .program
    [.leaf .identifier "a", .token ";", (Node.leaf .identifier "b").withLeading "\n"]
  before := ""
  after := "\n"
  language := .tsx

theorem pathEdits_splice_names :
    namesTree.get [2] = some ((Node.leaf .identifier "b").withLeading "\n") ∧
      (∃ front back : String, namesTree.toSource = front ++ ("\nb" ++ back) ∧
        ∃ t', namesTree.remove [2] = .ok (t', (Node.leaf .identifier "b").withLeading "\n") ∧
          t'.toSource = front ++ back ∧
          t'.insert [] 2 ((Node.leaf .identifier "b").withLeading "\n") = .ok namesTree) ∧
      (PathEdit.insert [] 4 (.token ";")).run namesTree =
        .error (.invalidPath "/4" "insertion index out of range") namesTree := by
  obtain ⟨hnode, -, hedit⟩ := pathEdits_splice namesTree
  obtain ⟨front, back, hsource, -, hremove⟩ := hnode [2] _ rfl
  have hfull : ((Node.leaf .identifier "b").withLeading "\n").full = "\nb" := by decide
  rw [hfull] at hsource
  exact ⟨rfl, ⟨front, back, hsource, hremove [] 2 rfl⟩,
    ((hedit _).2.1 _ _).mpr ⟨rfl, rfl⟩⟩

end MarkupEdit.Tree
