import MarkupEdit.Proofs.Edit.Content
import MarkupEdit.Proofs.Edit.StyleEffect

/-!
# Unwrapping undoes wrapping

A wrapper takes the trivia and the field of the element that it is put around, and the element is all
of its content. Unwrapping puts the element back, among its siblings or in place, and gives it the trivia
of the wrapper. So the tree is the same again, with every span in it.

* `promoted`: the content of an element as unwrapping puts it in its place.
* `editUnwrap_of_kind`: what unwrapping does, with markup around the element and without.
* `hasContent_wrapperAround`: what is in a wrapper.
* `editWrap_cases`: what wrapping does.
* `editUnwrap_editWrap`: **unwrapping undoes wrapping.**
-/

namespace MarkupEdit.Tree

/-- A node put among the children of its parent is a node put at its path. -/
theorem Node.update?_splice {n m new : Node} {path : List Nat} {index : Nat}
    (h : n.get (path ++ [index]) = some m) :
    n.update? (fun parent => some (parent.splice index (index + 1) [new])) path =
      n.update? (fun _ => some new) (path ++ [index]) := by
  induction path generalizing n with
  | nil =>
    obtain ⟨child, hchild, -⟩ := get_cons_eq_some h
    obtain ⟨hlt, -⟩ := List.getElem?_eq_some_iff.mp hchild
    have hnew : child.update? (fun _ => some new) [] = some new := rfl
    rw [List.nil_append, update?_cons hchild hnew, List.set_eq_take_append_cons_drop, if_pos hlt]
    rfl
  | cons i path ih =>
    obtain ⟨child, hchild, hget⟩ := get_cons_eq_some h
    rw [List.cons_append, update?, update?, hchild]
    dsimp only
    rw [ih hget]

end MarkupEdit.Tree

namespace MarkupEdit.Edit

open MarkupEdit.Text MarkupEdit.Tree

variable {tree edited wrapped : SourceTree} {path parent : Path} {index : Nat}
  {element node : Node} {changes : List Change} {name : String} {attributes : TextMap}

/-! ## What unwrapping does -/

/-- A node put at a path is a node put among its siblings. -/
theorem spliced_of_placed (h : tree.get (parent ++ [index]) = some element)
    (hplaced : placed tree (parent ++ [index]) node = .ok edited) :
    spliced tree parent index (index + 1) [node] = .ok edited := by
  obtain ⟨root, hroot, rfl⟩ := placed_eq_ok hplaced
  rw [spliced, Node.update?_splice h, hroot]

/-- The content of an element as unwrapping takes it: without comments, and without blank text at its
ends. -/
def promoted (element : Node) : List Node :=
  trimBlank (element.content.filter (·.kind != .comment))

/-- The nodes that unwrapping puts in the place of an element, with the trivia of the element. -/
def unwrapped (element : Node) : List Node :=
  withFirstLeading element.leading (trimEdges (promoted element))

/-- **What unwrapping does to an element with tags of its own.** With markup around it, the element makes way
for its content. Without, an element that is all of the content takes its place. -/
theorem editUnwrap_of_kind (helement : elementAt tree path = .ok element)
    (hkind : element.kind = .jsxElement) :
    editUnwrap tree path =
      match markupSlot? tree path with
      | some (parent, index) =>
        (spliced tree parent index (index + 1) (unwrapped element)).map (fun edited =>
          (edited, [.modified path.text element.body
            (String.ofList (dropBlank (String.join ((unwrapped element).map Node.full)).toList))]))
      | none =>
        match promoted element with
        | [only] =>
          if only.kind.isElement then replaceElement tree path element only
          else .error (.severalToUnwrap (element.elementName?.getD ""))
        | _ => .error (.severalToUnwrap (element.elementName?.getD "")) := by
  have hself : (element.kind == .jsxSelfClosingElement) = false := by
    rw [hkind]
    decide
  rw [editUnwrap, helement]
  show (if element.kind == .jsxSelfClosingElement then _ else _) = _
  rw [hself, if_neg Bool.false_ne_true]
  cases markupSlot? tree path with
  | none => rfl
  | some slot =>
    obtain ⟨parent, index⟩ := slot
    show (spliced tree parent index (index + 1) (unwrapped element)).bind _ =
      (spliced tree parent index (index + 1) (unwrapped element)).map _
    cases spliced tree parent index (index + 1) (unwrapped element) with
    | error fault => rfl
    | ok edited => rfl

/-! ## What is in a wrapper -/

/-- A wrapper around an element, in its place. -/
def wrapperAround (element : Node) (name : String) (attributes : List Node) : Node :=
  inPlaceOf (.wrapper name attributes [element.withLeading ""]) element

theorem hasContent_wrapperAround (element : Node) (name : String) (attributes : List Node) :
    ∃ tag closing, HasContent (wrapperAround element name attributes) [] tag
      [element.withLeading ""] closing [] :=
  ⟨_, _, rfl, rfl, rfl, rfl, fun _ hc => absurd hc List.not_mem_nil,
    fun _ hc => absurd hc List.not_mem_nil⟩

/-- **An element is all that is promoted of its wrapper.** -/
theorem promoted_wrapperAround (hkind : element.kind.isElement = true) (name : String)
    (attributes : List Node) :
    promoted (wrapperAround element name attributes) = [element.withLeading ""] := by
  obtain ⟨tag, closing, hcontent⟩ := hasContent_wrapperAround element name attributes
  have hnode : ((element.withLeading "").kind != .comment) = true ∧
      (element.withLeading "").isBlankText = false := by
    show (element.kind != .comment) = true ∧ (element.kind == .jsxText && _) = false
    revert hkind
    cases element.kind <;> simp [Kind.isElement]
  rw [promoted, hcontent.content_eq]
  simp [hnode.1, hnode.2, trimBlank]

theorem trimEdges_singleton (h : (node.kind == .jsxText) = false) : trimEdges [node] = [node] := by
  have hretext : ∀ change, retext change node = node := by
    intro change
    rw [retext, if_neg (by rw [h]; exact Bool.false_ne_true)]
  simp [trimEdges, hretext]

theorem withLeading_withLeading (n : Node) (leading : String) :
    (n.withLeading leading).withLeading n.leading = n := by
  cases n
  rfl

/-- The element in the place of its wrapper is the element. -/
theorem inPlaceOf_wrapperAround (element : Node) (name : String) (attributes : List Node) :
    inPlaceOf (element.withLeading "") (wrapperAround element name attributes) = element := by
  have hfield : (element.field.or none).or element.field = element.field := by
    cases element.field <;> rfl
  show { element.withLeading "" with
    leading := element.leading, field := (element.field.or none).or element.field } = element
  rw [hfield]
  cases element
  rfl

/-! ## Wrapping and unwrapping -/

/-- **What wrapping does**: it puts a wrapper around the element at the path. -/
theorem editWrap_cases (h : editWrap tree path name attributes = .ok (wrapped, changes)) :
    ∃ element built, elementAt tree path = .ok element ∧
      placed tree path (wrapperAround element name built) = .ok wrapped := by
  unfold editWrap at h
  split at h
  · cases h
  obtain ⟨built, -, h⟩ := ok_of_bind h
  obtain ⟨element, helement, h⟩ := ok_of_bind h
  obtain ⟨t, hplaced, h⟩ := ok_of_map h
  cases h
  exact ⟨element, built, helement, hplaced⟩

/-- **Unwrapping undoes wrapping.** It succeeds wherever an element was wrapped, with markup around it
or without, and the tree is the same again. -/
theorem editUnwrap_editWrap
    (h : editWrap tree path name attributes = .ok (wrapped, changes)) :
    ∃ back, editUnwrap wrapped path = .ok (tree, back) := by
  obtain ⟨element, built, helement, hplaced⟩ := editWrap_cases h
  obtain ⟨hget, hkind⟩ := elementAt_eq_ok helement
  have hwrapper : elementAt wrapped path = .ok (wrapperAround element name built) :=
    elementAt_of_placed hplaced rfl
  have hpromoted := promoted_wrapperAround hkind name built
  -- the element in the place of its wrapper makes the tree that was there
  have hback : placed wrapped path element = .ok tree := by
    obtain ⟨t, ht⟩ := exists_placed hwrapper element
    have hsame := placed_placed hplaced ht
    rw [placed_self hget] at hsame
    rw [ht, hsame]
  cases hslot : markupSlot? wrapped path with
  | none =>
    rw [editUnwrap_of_kind hwrapper rfl, hslot, hpromoted]
    dsimp only
    rw [if_pos (show (element.withLeading "").kind.isElement = true from hkind), replaceElement,
      inPlaceOf_wrapperAround, hback]
    exact ⟨_, rfl⟩
  | some slot =>
    obtain ⟨parent, index⟩ := slot
    obtain rfl := markupSlot?_eq_some hslot
    have htext : ((element.withLeading "").kind == .jsxText) = false := by
      show (element.kind == .jsxText) = false
      revert hkind
      cases element.kind <;> simp [Kind.isElement]
    have hnodes : unwrapped (wrapperAround element name built) = [element] := by
      rw [unwrapped, hpromoted, trimEdges_singleton htext]
      show [(element.withLeading "").withLeading element.leading] = [element]
      rw [withLeading_withLeading]
    rw [editUnwrap_of_kind hwrapper rfl, hslot, hnodes]
    dsimp only
    rw [spliced_of_placed (elementAt_eq_ok hwrapper).1 hback]
    exact ⟨_, rfl⟩

/-- An element in a list and an element in that element. -/
theorem editUnwrap_editWrap_list :
    (∃ wrapped changes back,
      editWrap listTree [0, 3] "p" (TextMap.ofList [("title", "a")]) = .ok (wrapped, changes) ∧
        wrapped.toSource = "[\"é\", <p title=\"a\"><b><i/></b></p>]" ∧
        editUnwrap wrapped [0, 3] = .ok (listTree, back)) ∧
      ∃ wrapped changes back,
        editWrap listTree [0, 3, 1] "p" TextMap.empty = .ok (wrapped, changes) ∧
          wrapped.toSource = "[\"é\", <b><p><i/></p></b>]" ∧
          editUnwrap wrapped [0, 3, 1] = .ok (listTree, back) := by
  have hlist : ∃ result,
      editWrap listTree [0, 3] "p" (TextMap.ofList [("title", "a")]) = .ok result := ⟨_, rfl⟩
  have hinside : ∃ result, editWrap listTree [0, 3, 1] "p" TextMap.empty = .ok result := ⟨_, rfl⟩
  obtain ⟨⟨wrapped, changes⟩, hlist⟩ := hlist
  obtain ⟨⟨wrapped', changes'⟩, hinside⟩ := hinside
  obtain ⟨back, hback⟩ := editUnwrap_editWrap hlist
  obtain ⟨back', hback'⟩ := editUnwrap_editWrap hinside
  have hsource : (editWrap listTree [0, 3] "p" (TextMap.ofList [("title", "a")])).map
      (fun result => result.1.toSource) = .ok "[\"é\", <p title=\"a\"><b><i/></b></p>]" := by
    decide +kernel
  have hsource' : (editWrap listTree [0, 3, 1] "p" TextMap.empty).map
      (fun result => result.1.toSource) = .ok "[\"é\", <b><p><i/></p></b>]" := by
    decide +kernel
  rw [hlist] at hsource
  rw [hinside] at hsource'
  exact ⟨⟨wrapped, changes, back, hlist, Except.ok.inj hsource, hback⟩,
    wrapped', changes', back', hinside, Except.ok.inj hsource', hback'⟩

end MarkupEdit.Edit
