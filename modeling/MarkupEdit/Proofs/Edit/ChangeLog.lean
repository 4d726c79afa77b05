import MarkupEdit.Proofs.Edit.AttributeReading
import MarkupEdit.Proofs.Edit.Unwrapping
import MarkupEdit.Proofs.Tree.PathEdit
import MarkupEdit.Proofs.Tree.Snippets
import Std.Data.String.ToNat

/-!
# What changes say

An edit comes with a list of changes. Changes name nodes by their paths, as they are after the edit, and
say what the nodes print.

* `Path.text_inj`: a path is known by its text.
* `Replaced`, `RemovedBetween`, `InsertedBetween`: what a change says of a node that took the place of
  another and of one that is no longer there, and what changes say of nodes that are new.
* `tree_of_no_changes`: **where no change is told, there is none.**
* `inserted_of_editInsert`: **new nodes are told one by one, unless they are blank text.**
* `changes_truthful`: what changes say is so, for all operations.
-/

namespace MarkupEdit.Tree

/-! ## Texts of paths -/

namespace Path

/-- The text of a path that is not empty, by its characters. -/
def chars (p : Path) : List Char := p.flatMap fun i => '/' :: (toString i).toList

theorem slash_not_mem (i : Nat) : '/' ∉ (toString i).toList := by
  rw [Nat.toString_eq_repr, Nat.toList_repr]
  intro h
  have hdigit := Nat.isDigit_of_mem_toDigits (by decide) (by decide) h
  revert hdigit
  decide

/-- Two texts without a slash, each in front of a path, are the same if the whole is. -/
theorem append_chars_inj {s t : List Char} {p q : Path} (hs : '/' ∉ s) (ht : '/' ∉ t)
    (h : s ++ chars p = t ++ chars q) : s = t ∧ chars p = chars q := by
  have hstart : ∀ (c : Char) (p : Path) (x y : List Char), chars p = (c :: x) ++ y → c = '/' := by
    intro c p x y h
    cases p with
    | nil => cases h
    | cons i p => exact (List.cons.inj h).1.symm
  rcases List.append_eq_append_iff.mp h with ⟨rest, rfl, hrest⟩ | ⟨rest, rfl, hrest⟩
  · cases rest with
    | nil => exact ⟨(List.append_nil s).symm, hrest⟩
    | cons c rest =>
      obtain rfl := hstart c p rest _ hrest
      exact absurd (by simp) ht
  · cases rest with
    | nil => exact ⟨List.append_nil t, hrest.symm⟩
    | cons c rest =>
      obtain rfl := hstart c q rest _ hrest
      exact absurd (by simp) hs

theorem chars_inj {p q : Path} (h : chars p = chars q) : p = q := by
  induction p generalizing q with
  | nil =>
    cases q with
    | nil => rfl
    | cons j q => cases h
  | cons i p ih =>
    cases q with
    | nil => cases h
    | cons j q =>
      have hrest : (toString i).toList ++ chars p = (toString j).toList ++ chars q :=
        (List.cons.inj h).2
      obtain ⟨hindex, htail⟩ := append_chars_inj (slash_not_mem i) (slash_not_mem j) hrest
      rw [String.toList_inj, Nat.toString_eq_repr, Nat.toString_eq_repr] at hindex
      rw [Nat.repr_injective hindex, ih htail]

theorem toList_text (p : Path) : p.text.toList = if p.isEmpty then ['/'] else chars p := by
  rw [text]
  split
  · rfl
  · rw [String.toList_join, List.flatMap_map, chars]
    congr 1
    funext i
    exact String.toList_append

/-- **A path is known by its text.** -/
theorem text_inj {p q : Path} (h : p.text = q.text) : p = q := by
  have hroot : ∀ (i : Nat) (p : Path), chars (i :: p) ≠ ['/'] := by
    intro i p h
    have hnil : (toString i).toList ++ chars p = [] := (List.cons.inj h).2
    obtain ⟨hempty, -⟩ := List.append_eq_nil_iff.mp hnil
    rw [String.toList_eq_nil_iff, Nat.toString_eq_repr] at hempty
    exact Nat.repr_ne_empty hempty
  have hlist := congrArg String.toList h
  rw [toList_text, toList_text] at hlist
  cases p with
  | nil =>
    cases q with
    | nil => rfl
    | cons j q => exact absurd hlist.symm (hroot j q)
  | cons i p =>
    cases q with
    | nil => exact absurd hlist (hroot i p)
    | cons j q => exact chars_inj hlist

end Path

end MarkupEdit.Tree

namespace MarkupEdit.Edit

open MarkupEdit.Text MarkupEdit.Tree

variable {reader : String → Except SyntaxFault SourceTree} {tree t edited : SourceTree}
  {path : Path} {config : Config} {changes : List Change} {element tag : Node} {nodes : List Node}
  {index : Nat}

/-- A node took the place of another, and one change tells what both print. -/
def Replaced (tree edited : SourceTree) (path : Path) (changes : List Change) : Prop :=
  ∃ old new, tree.get path = some old ∧ edited.get path = some new ∧
    changes = [.modified path.text old.body new.body]

/-- A node is no longer between the children of another. -/
structure RemovedBetween (tree edited : SourceTree) (path : Path) (changes : List Change)
    (parent : Path) (front : List Node) (old : Node) (back : List Node) : Prop where
  /-- It is the node at the path that was taken out of the tree. -/
  taken : tree.remove path = .ok (edited, old)
  place : path = parent.child front.length
  /-- The other children stay as they are. -/
  around : ∃ owner, tree.get parent = some owner ∧ owner.children = front ++ old :: back ∧
    edited.get parent = some (owner.withChildren (front ++ back))
  /-- There is one change, and it tells what the node printed. -/
  told : changes = [.removed path.text old.body]

/-- Nodes came between the children of another. -/
structure InsertedBetween (tree edited : SourceTree) (changes : List Change) (parent : Path)
    (front nodes back : List Node) : Prop where
  /-- The other children stay as they are. A parent that closed itself has got tags. -/
  around : ∃ owner, tree.get parent = some owner ∧ (owner.promote []).children = front ++ back ∧
    edited.get parent = some ((owner.promote []).withChildren (front ++ (nodes ++ back)))
  /-- There is one change for each new node that is not blank text, in their order. -/
  told : changes = ((nodes.zipIdx front.length).filter (!·.1.isBlankText)).map
    fun (node, index) => .added (parent.child index).text node.body
  /-- The node at the path of a change prints what the change says. -/
  prints : ∀ change ∈ changes, ∀ p : Path, p.text = change.path →
    ∃ node, edited.get p = some node ∧ change.new = some node.body

/-! ## Where no change is told -/

/-- A change that leaves the tag of an element as it is leaves the element. -/
theorem updateOpening_of_eq {f : Node → Node} (hopening : element.opening? = some tag)
    (h : f tag = tag) : element.updateOpening f = element := by
  rcases tag_cases element with hkind | ⟨front, tag', back, hamong⟩ | hsame
  · obtain rfl := Option.some.inj ((opening?_of_selfClosing hkind).symm.trans hopening)
    rw [updateOpening_of_selfClosing hkind, h]
  · obtain rfl := Option.some.inj (hamong.opening?.symm.trans hopening)
    rw [hamong.updateOpening, h, ← hamong.children, Node.withChildren_self]
  · exact hsame f

theorem tree_of_editAttribute {name : String} {value : Option AttributeValue}
    (h : editAttribute tree path name value config = .ok (edited, [])) : edited = tree := by
  unfold editAttribute at h
  split at h
  · cases h
  split at h
  · cases h
  obtain ⟨element, helement, h⟩ := ok_of_bind h
  split at h
  · cases h
  next tag hopening =>
  obtain ⟨t, hplaced, hresult⟩ := ok_of_bind h
  obtain ⟨rfl, hreport⟩ := Prod.mk.inj (Except.ok.inj hresult)
  -- only a change that does nothing is not reported
  have hnone : AttributeChange.of tag name value = .none := by
    cases hchange : AttributeChange.of tag name value with
    | none => rfl
    | remove => rw [hchange] at hreport; cases hreport
    | replace => rw [hchange] at hreport; cases hreport
    | append => rw [hchange] at hreport; cases hreport
  have hsame : setAttribute element name value = element :=
    updateOpening_of_eq hopening (by rw [hnone]; rfl)
  rw [hsame, placed_self (elementAt_eq_ok helement).1] at hplaced
  exact (Except.ok.inj hplaced).symm

theorem tree_of_editStyle {change : StyleChange}
    (h : editStyle tree path change config = .ok (edited, [])) : edited = tree := by
  obtain ⟨element, helement, h⟩ := ok_of_bind h
  split at h
  · cases h
  obtain ⟨classEdit, -, h⟩ := ok_of_bind h
  obtain ⟨styleEdit, -, h⟩ := ok_of_bind h
  obtain ⟨⟨t, classChanges⟩, hclass, h⟩ := ok_of_bind h
  obtain ⟨⟨t', styleChanges⟩, hstyle, h⟩ := ok_of_bind h
  obtain ⟨rfl, hreport⟩ := Prod.mk.inj (Except.ok.inj h)
  obtain ⟨rfl, rfl⟩ := List.append_eq_nil_iff.mp hreport
  have hclasses : t = tree := by
    cases classEdit with
    | none => exact (Prod.mk.inj (Except.ok.inj hclass)).1.symm
    | some current => exact tree_of_editAttribute hclass
  have hinline : t' = t := by
    cases styleEdit with
    | none => exact (Prod.mk.inj (Except.ok.inj hstyle)).1.symm
    | some edit =>
      obtain ⟨element', -, hstyle⟩ := ok_of_bind hstyle
      obtain ⟨t'', -, hstyle⟩ := ok_of_bind hstyle
      cases hstyle
  rw [hinline, hclasses]

/-! ## One node in the place of another -/

theorem replaced_of_replaceElement {node : Node} (helement : elementAt tree path = .ok element)
    (h : replaceElement tree path element node = .ok (edited, changes)) :
    Replaced tree edited path changes := by
  obtain ⟨t, hplaced, hresult⟩ := ok_of_map h
  cases hresult
  exact ⟨element, _, (elementAt_eq_ok helement).1, get_of_placed hplaced, rfl⟩

theorem replaced_of_editReplace {markup : String}
    (h : editReplace reader tree path markup = .ok (edited, changes)) :
    Replaced tree edited path changes := by
  obtain ⟨element, helement, h⟩ := ok_of_bind h
  split at h
  · cases h
  · exact replaced_of_replaceElement helement h

theorem replaced_of_editWrap {name : String} {attributes : TextMap}
    (h : editWrap tree path name attributes = .ok (edited, changes)) :
    Replaced tree edited path changes := by
  unfold editWrap at h
  split at h
  · cases h
  obtain ⟨built, -, h⟩ := ok_of_bind h
  obtain ⟨element, helement, h⟩ := ok_of_bind h
  exact replaced_of_replaceElement helement h

theorem replaced_of_editUnwrap (hslot : markupSlot? tree path = none)
    (h : editUnwrap tree path = .ok (edited, changes)) : Replaced tree edited path changes := by
  obtain ⟨element, helement, h⟩ := ok_of_bind h
  dsimp only at h
  split at h
  · cases h
  rw [hslot] at h
  dsimp only at h
  split at h
  · split at h
    · exact replaced_of_replaceElement helement h
    · cases h
  · cases h

/-! ## No node in the place of one -/

/-- A node that is taken out of a tree is a child of another, and its siblings close up. -/
theorem siblings_of_remove {old : Node} (h : tree.remove path = .ok (edited, old)) :
    ∃ parent front back, path = Path.child parent front.length ∧ ∃ owner,
      tree.get parent = some owner ∧ owner.children = front ++ old :: back ∧
        edited.get parent = some (owner.withChildren (front ++ back)) := by
  cases PathEdit.remove_eq_ok_iff.mp h with
  | @removed parent index owner _ hparent hchild =>
    obtain ⟨hindex, hold⟩ := List.getElem?_eq_some_iff.mp hchild
    have hlength : (owner.children.take index).length = index :=
      List.length_take_of_le (Nat.le_of_lt hindex)
    refine ⟨parent, owner.children.take index, owner.children.drop (index + 1), by rw [hlength],
      owner, hparent, ?_, ?_⟩
    · rw [← hold, List.getElem_cons_drop, List.take_append_drop]
    · rw [SourceTree.get_written hparent, List.eraseIdx_eq_take_drop_succ]

/-- **Removing takes out the node at the path**, and tells what it printed. -/
theorem removed_of_editRemove (h : editRemove tree path = .ok (edited, changes)) :
    ∃ parent front old back, RemovedBetween tree edited path changes parent front old back := by
  obtain ⟨element, -, h⟩ := ok_of_bind h
  obtain ⟨slot, -, h⟩ := ok_of_bind h
  split at h
  · next removed hremoved =>
    cases h
    obtain ⟨parent, front, back, hpath, haround⟩ := siblings_of_remove hremoved
    exact ⟨parent, front, removed, back, hremoved, hpath, haround, rfl⟩
  · cases h

/-! ## New nodes -/

theorem insertReport_eq (parent : Path) (index : Nat) (nodes : List Node) :
    insertReport parent index nodes = ((nodes.zipIdx index).filter (!·.1.isBlankText)).map
      fun (node, index) => .added (parent.child index).text node.body := by
  induction nodes generalizing index with
  | nil => rfl
  | cons node rest ih =>
    rw [insertReport, List.zipIdx_cons, List.filter_cons, ih]
    cases node.isBlankText <;> rfl

theorem promote_of_ne (h : element.kind ≠ .jsxSelfClosingElement) (children : List Node) :
    element.promote children = element := by
  rw [Node.promote, if_pos (bne_iff_ne.mpr h)]

/-- Where the new nodes come in: between the children of a node, which has got tags if it had none. -/
theorem insertionPoint_spec {position : InsertPosition} {point : InsertionPoint}
    (helement : elementAt tree path = .ok element)
    (h : insertionPoint tree path element position = .ok (t, point)) :
    ∃ owner, tree.get point.parent = some owner ∧ t.get point.parent = some (owner.promote []) ∧
      point.index ≤ (owner.promote []).children.length := by
  have hsibling : ∀ {isAfter : Bool}, siblingPoint tree path element isAfter = .ok point →
      ∃ owner, tree.get point.parent = some owner ∧ tree.get point.parent = some (owner.promote []) ∧
        point.index ≤ (owner.promote []).children.length := by
    intro isAfter hpoint
    obtain ⟨⟨parent, index⟩, hslot, hpoint⟩ := ok_of_bind hpoint
    cases hpoint
    unfold requireSlot at hslot
    split at hslot
    · next slot hs =>
      cases hslot
      obtain ⟨owner, howner, hkind, hchild⟩ := exists_parent_of_slot helement hs
      obtain ⟨hlt, -⟩ := List.getElem?_eq_some_iff.mp hchild
      refine ⟨owner, howner, ?_⟩
      rw [promote_of_ne (by rw [hkind]; decide)]
      refine ⟨howner, ?_⟩
      dsimp only
      split <;> omega
    · cases hslot
  have hchild : ∀ {isLast : Bool}, placed tree path (element.promote []) = .ok t →
      childPoint path (element.promote []) isLast = .ok point →
      ∃ owner, tree.get point.parent = some owner ∧ t.get point.parent = some (owner.promote []) ∧
        point.index ≤ (owner.promote []).children.length := by
    intro isLast hplaced hpoint
    unfold childPoint at hpoint
    split at hpoint
    · cases hpoint
    next start stop hrange =>
    cases hpoint
    obtain ⟨front, tag, content, closing, back, hcontent, rfl, rfl⟩ := exists_hasContent hrange
    refine ⟨element, (elementAt_eq_ok helement).1, get_of_placed hplaced, ?_⟩
    rw [hcontent.children]
    simp only [List.length_append, List.length_cons]
    split <;> omega
  cases position with
  | before | after =>
    obtain ⟨p, hp, h⟩ := ok_of_bind h
    cases h
    exact hsibling hp
  | firstChild | lastChild =>
    obtain ⟨u, hu, h⟩ := ok_of_bind h
    obtain ⟨p, hp, h⟩ := ok_of_bind h
    cases h
    exact hchild hu hp

/-- **New nodes are told one by one, unless they are blank text.** They are those of the snippet, less
blank text at its ends. -/
theorem inserted_of_editInsert {snippet : String} {position : InsertPosition}
    (h : editInsert reader tree path snippet position = .ok (edited, changes)) :
    ∃ read leading parent front back, readSnippet reader snippet = .ok read ∧
      InsertedBetween tree edited changes parent front
        (withFirstLeading leading (trimBlank read)) back := by
  obtain ⟨element, helement, h⟩ := ok_of_bind h
  obtain ⟨nodes, hnodes, h⟩ := ok_of_bind h
  obtain ⟨⟨t, point⟩, hpoint, h⟩ := ok_of_bind h
  obtain ⟨t', hspliced, h⟩ := ok_of_bind h
  cases h
  unfold snippetNodes at hnodes
  split at hnodes
  · next read hread =>
    cases hnodes
    obtain ⟨owner, howner, hopened, hle⟩ := insertionPoint_spec helement hpoint
    obtain ⟨root, hroot, rfl⟩ := spliced_eq_ok hspliced
    obtain ⟨opened, new, hget, hnew, hget', -⟩ := Node.update?_spec hroot
    cases hopened.symm.trans hget
    cases hnew
    have hlength : ((owner.promote []).children.take point.index).length = point.index := by
      rw [List.length_take, Nat.min_eq_left hle]
    refine ⟨read, point.leading, point.parent, (owner.promote []).children.take point.index,
      (owner.promote []).children.drop point.index, hread,
      ⟨owner, howner, (List.take_append_drop _ _).symm, hget'⟩, ?_, ?_⟩
    · rw [hlength, insertReport_eq]
    · intro change hchange p hp
      rw [insertReport_eq] at hchange
      obtain ⟨⟨node, i⟩, hmem, rfl⟩ := List.mem_map.mp hchange
      obtain ⟨hindex, hnode⟩ :=
        List.mk_mem_zipIdx_iff_le_and_getElem?_sub.mp (List.mem_filter.mp hmem).1
      obtain rfl := Path.text_inj hp
      refine ⟨node, ?_, rfl⟩
      -- the new nodes are behind the children in front of them
      show root.get (point.parent ++ [i]) = some node
      rw [Node.get_append, hget', Option.bind_some]
      refine Node.get_cons ?_
      show (_ ++ (_ ++ _))[i]? = some node
      rw [List.getElem?_append_right (by omega), hlength, List.getElem?_append_left]
      · exact hnode
      · exact (List.getElem?_eq_some_iff.mp hnode).1
  · cases hnodes

/-! ## A snippet is told of -/

theorem filter_dropWhile_not {α : Type} (p : α → Bool) (l : List α) :
    (l.dropWhile p).filter (!p ·) = l.filter (!p ·) := by
  induction l with
  | nil => rfl
  | cons a l ih =>
    cases ha : p a with
    | true => rw [List.dropWhile_cons_of_pos ha, ih, List.filter_cons_of_neg (by simp [ha])]
    | false => rw [List.dropWhile_cons_of_neg (by simp [ha])]

/-- Only blank text is cut from the ends of a snippet. -/
theorem filter_trimBlank (nodes : List Node) :
    (trimBlank nodes).filter (!·.isBlankText) = nodes.filter (!·.isBlankText) := by
  rw [trimBlank, List.filter_reverse, filter_dropWhile_not, List.filter_reverse, List.reverse_reverse,
    filter_dropWhile_not]

theorem all_isBlankText_withFirstLeading (leading : String) (nodes : List Node) :
    (withFirstLeading leading nodes).all Node.isBlankText = nodes.all Node.isBlankText := by
  cases nodes <;> rfl

/-- **Inserting a snippet is told.** -/
theorem changes_ne_nil_of_editInsert {snippet : String} {position : InsertPosition}
    (hreader : Reliable reader)
    (h : editInsert reader tree path snippet position = .ok (edited, changes)) : changes ≠ [] := by
  obtain ⟨read, leading, parent, front, back, hread, hinserted⟩ := inserted_of_editInsert h
  obtain ⟨node, hnode, hinked⟩ := exists_not_isBlankText hreader hread
  rintro rfl
  -- no change is told only if all new nodes are blank text
  have hfilter := List.map_eq_nil_iff.mp hinserted.told.symm
  have hall : (withFirstLeading leading (trimBlank read)).all Node.isBlankText = true := by
    refine List.all_eq_true.mpr fun n hn => ?_
    obtain ⟨i, hi⟩ := List.getElem?_of_mem hn
    have hmem : (n, front.length + i) ∈
        (withFirstLeading leading (trimBlank read)).zipIdx front.length :=
      List.mk_mem_zipIdx_iff_le_and_getElem?_sub.mpr
        ⟨Nat.le_add_right _ _, by rw [Nat.add_sub_cancel_left]; exact hi⟩
    simpa using List.filter_eq_nil_iff.mp hfilter _ hmem
  rw [all_isBlankText_withFirstLeading, List.all_eq_true] at hall
  have hnil : read.filter (!·.isBlankText) = [] := by
    rw [← filter_trimBlank]
    exact List.filter_eq_nil_iff.mpr fun n hn => by rw [hall n hn]; exact Bool.false_ne_true
  have hneg := List.filter_eq_nil_iff.mp hnil node hnode
  rw [hinked] at hneg
  exact hneg rfl

/-! ## All operations -/

/-- **Where no change is told, there is none.** -/
theorem tree_of_no_changes {operation : Operation} (hreader : Reliable reader)
    (h : operation.applyWith reader tree path config = .ok (edited, [])) : edited = tree := by
  cases operation with
  | text value =>
    obtain ⟨element, -, h⟩ := ok_of_bind h
    obtain ⟨new, -, h⟩ := ok_of_bind h
    obtain ⟨t, -, h⟩ := ok_of_bind h
    cases h
  | style change => exact tree_of_editStyle h
  | setAttribute name value => exact tree_of_editAttribute h
  | remove =>
    obtain ⟨parent, front, old, back, hremoved⟩ := removed_of_editRemove h
    cases hremoved.told
  | insert snippet position => exact absurd rfl (changes_ne_nil_of_editInsert hreader h)
  | replace markup =>
    obtain ⟨old, new, -, -, hchanges⟩ := replaced_of_editReplace h
    cases hchanges
  | wrap name attributes =>
    obtain ⟨old, new, -, -, hchanges⟩ := replaced_of_editWrap h
    cases hchanges
  | unwrap =>
    obtain ⟨element, helement, h⟩ := ok_of_bind h
    dsimp only at h
    split at h
    · cases h
    split at h
    · obtain ⟨t, -, h⟩ := ok_of_bind h
      cases h
    · split at h
      · split at h
        · obtain ⟨old, new, -, -, hchanges⟩ := replaced_of_replaceElement helement h
          cases hchanges
        · cases h
      · cases h

/-- What the changes of an operation say of the tree before and after it. -/
def Told (reader : String → Except SyntaxFault SourceTree) (operation : Operation)
    (tree edited : SourceTree) (path : Path) (changes : List Change) : Prop :=
  match operation with
  | .insert snippet _ =>
    ∃ read leading parent front back, readSnippet reader snippet = .ok read ∧
      InsertedBetween tree edited changes parent front
        (withFirstLeading leading (trimBlank read)) back
  | .replace _ | .wrap _ _ => Replaced tree edited path changes
  | .unwrap => markupSlot? tree path = none → Replaced tree edited path changes
  | .remove => ∃ parent front old back,
      RemovedBetween tree edited path changes parent front old back
  | .text _ | .style _ | .setAttribute _ _ => True

/-- **What changes say is so.** Where an operation tells of no change, the tree is as it was. Inserting
tells of each new node that is not blank text, in order, and the node at the path of a change prints what
the change says; the other children of the parent stay. Replacing, wrapping, and unwrapping where there
is no markup around the element, tell what the node at the path printed before and what it prints after.
Removing tells what the node printed that was taken out at the path; its siblings stay. -/
theorem changes_truthful (reader : String → Except SyntaxFault SourceTree) (hreader : Reliable reader)
    (operation : Operation) (tree edited : SourceTree) (path : Path) (config : Config)
    (changes : List Change)
    (h : operation.applyWith reader tree path config = .ok (edited, changes)) :
    (changes = [] → edited = tree) ∧ Told reader operation tree edited path changes := by
  constructor
  · rintro rfl
    exact tree_of_no_changes hreader h
  cases operation with
  | text value => exact trivial
  | style change => exact trivial
  | setAttribute name value => exact trivial
  | remove => exact removed_of_editRemove h
  | insert snippet position => exact inserted_of_editInsert h
  | replace markup => exact replaced_of_editReplace h
  | wrap name attributes => exact replaced_of_editWrap h
  | unwrap => exact fun hslot => replaced_of_editUnwrap hslot h

theorem changes_truthful_note :
    Reliable noteReader ∧ listTree.ReadFrom listText ∧
      (∃ edited changes, (Operation.insert noteSnippet .firstChild).applyWith noteReader listTree
          [0, 3, 1] {} = .ok (edited, changes) ∧
        changes = [.added "/0/3/1/1" "a ", .added "/0/3/1/2" "<b/>"] ∧
        (changes = [] → edited = listTree) ∧
        Told noteReader (.insert noteSnippet .firstChild) listTree edited [0, 3, 1] changes) ∧
      ∃ edited changes, Operation.remove.applyWith noteReader listTree [0, 3, 1] {} =
          .ok (edited, changes) ∧
        changes = [.removed "/0/3/1" "<i/>"] ∧ edited.toSource = "[\"é\", <b></b>]" ∧
        Told noteReader .remove listTree edited [0, 3, 1] changes := by
  have htruthful := changes_truthful noteReader reliable_noteReader
  refine ⟨reliable_noteReader, readFrom_list, ⟨_, _, rfl, by decide +kernel, ?_⟩,
    ⟨_, _, rfl, by decide +kernel, by decide +kernel, ?_⟩⟩
  · exact htruthful _ listTree _ [0, 3, 1] {} _ rfl
  · exact (htruthful .remove listTree _ [0, 3, 1] {} _ rfl).2

end MarkupEdit.Edit
