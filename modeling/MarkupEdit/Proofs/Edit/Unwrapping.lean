import MarkupEdit.Proofs.Edit.TextReading
import MarkupEdit.Proofs.Edit.Wrapping
import MarkupEdit.Proofs.Text.Joints
import MarkupEdit.Proofs.Tree.VisibleText

/-!
# What unwrapping leaves to be read

A node shows the text between tags in it, references, and literals in braces, in the order of the document.
Tags and comments show nothing. An element that is unwrapped makes way for its content, less the blanks
that the content shows at its two ends: the text around the element is trusted to lay out what comes into
it. So nothing is lost but blanks. Where they stood alone between two words, the words become one, and
nowhere else.

* `Node.shown`: the characters that a node shows.
* `trimsTo_trimBlank`, `trimsTo_trimEdges`: what the steps of unwrapping cut is shown as blanks.
* `trimsTo_unwrapped`: **an unwrapped element shows its content, less blanks at its ends.**
* `makesWay_of_editUnwrap`: what the parent shows before and after.
* `normalized_shown_editUnwrap`: **when the words stay the same.**
* `editUnwrap_joins_words`: words that become one.
-/

namespace MarkupEdit.Tree

open MarkupEdit.Text MarkupEdit.Edit

/-! ## What nodes show -/

/-- Nodes that show nothing: comments, and tags with everything in them. -/
def Kind.isSilent : Kind → Bool
  | .comment => true
  | .jsxOpeningElement => true
  | .jsxClosingElement => true
  | .jsxSelfClosingElement => true
  | _ => false

namespace Node

mutual

/-- The characters that a node shows. -/
def shown : Node → List Char
  | ⟨kind, field, span, leading, text, children, trailing⟩ =>
    if kind.isSilent then []
    else
      match kind with
      | .jsxText => visibleChars (text.getD "").toList
      | .htmlCharacterReference => decodeReferences (text.getD "").toList
      | .jsxExpression =>
        match bracedText? ⟨kind, field, span, leading, text, children, trailing⟩ with
        | some literal => literal.toList
        | none => shownAll children
      | _ => shownAll children

/-- The characters that some nodes show, one behind the other. -/
def shownAll : List Node → List Char
  | [] => []
  | n :: rest => shown n ++ shownAll rest

end

variable {n : Node} {nodes : List Node} {q : Node → Bool}

theorem shown_of_isSilent (h : n.kind.isSilent = true) : n.shown = [] := by
  cases n
  exact if_pos h

theorem shown_of_jsxText (h : n.kind = .jsxText) :
    n.shown = visibleChars (n.text.getD "").toList := by
  cases n
  cases h
  rfl

theorem shown_of_jsxElement (h : n.kind = .jsxElement) : n.shown = shownAll n.children := by
  cases n
  cases h
  rfl

theorem shown_withLeading (n : Node) (leading : String) : (n.withLeading leading).shown = n.shown := by
  cases n
  rfl

theorem shownAll_append (nodes rest : List Node) :
    shownAll (nodes ++ rest) = shownAll nodes ++ shownAll rest := by
  induction nodes with
  | nil => rfl
  | cons n nodes ih => rw [List.cons_append, shownAll, ih, shownAll, List.append_assoc]

theorem shownAll_singleton (n : Node) : shownAll [n] = n.shown := List.append_nil _

theorem shownAll_split {i : Nat} (h : nodes[i]? = some n) :
    shownAll nodes = shownAll (nodes.take i) ++ (n.shown ++ shownAll (nodes.drop (i + 1))) := by
  obtain ⟨hi, hn⟩ := List.getElem?_eq_some_iff.mp h
  calc shownAll nodes = shownAll (nodes.take i ++ nodes.drop i) := by rw [List.take_append_drop]
    _ = shownAll (nodes.take i) ++ shownAll (nodes.drop i) := shownAll_append _ _
    _ = _ := by rw [List.drop_eq_getElem_cons hi, hn, shownAll]

/-- Nodes that show nothing can be left out. -/
theorem shownAll_filter (h : ∀ n, q n = false → n.shown = []) (nodes : List Node) :
    shownAll (nodes.filter q) = shownAll nodes := by
  induction nodes with
  | nil => rfl
  | cons n nodes ih =>
    cases hn : q n with
    | true => rw [List.filter_cons_of_pos hn, shownAll, shownAll, ih]
    | false =>
      rw [List.filter_cons_of_neg (Bool.eq_false_iff.mp hn), shownAll, h n hn, ih]
      rfl

theorem allBlank_shownAll (h : ∀ n ∈ nodes, AllBlank n.shown) : AllBlank (shownAll nodes) := by
  induction nodes with
  | nil => exact allBlank_nil
  | cons n nodes ih =>
    exact (h n List.mem_cons_self).append (ih fun m hm => h m (List.mem_cons_of_mem _ hm))

theorem allBlank_shown_of_isBlankText (h : n.isBlankText = true) : AllBlank n.shown := by
  obtain ⟨hkind, hblank⟩ := Bool.and_eq_true_iff.mp h
  rw [shown_of_jsxText (beq_iff_eq.mp hkind)]
  refine allBlank_visibleChars ?_
  cases htext : n.text with
  | none => exact allBlank_nil
  | some text =>
    rw [htext] at hblank
    exact allBlank_iff.mp hblank

/-- Nodes that show blanks can be left out at the start, for blanks. -/
theorem exists_blank_shownAll_dropWhile (h : ∀ n, q n = true → AllBlank n.shown)
    (nodes : List Node) :
    ∃ x, AllBlank x ∧ shownAll nodes = x ++ shownAll (nodes.dropWhile q) := by
  refine ⟨shownAll (nodes.takeWhile q), ?_, ?_⟩
  · exact allBlank_shownAll fun n hn => h n (List.mem_takeWhile_imp hn)
  · rw [← shownAll_append, List.takeWhile_append_dropWhile]

/-- And at the end. -/
theorem exists_shownAll_blank_reverse_dropWhile (h : ∀ n, q n = true → AllBlank n.shown)
    (nodes : List Node) :
    ∃ y, AllBlank y ∧ shownAll nodes = shownAll (nodes.reverse.dropWhile q).reverse ++ y := by
  refine ⟨shownAll (nodes.reverse.takeWhile q).reverse, ?_, ?_⟩
  · exact allBlank_shownAll fun n hn =>
      h n (List.mem_takeWhile_imp (List.mem_reverse.mp hn))
  · rw [← shownAll_append, ← List.reverse_append, List.takeWhile_append_dropWhile,
      List.reverse_reverse]

end Node

end MarkupEdit.Tree

namespace MarkupEdit.Edit

open MarkupEdit.Text MarkupEdit.Tree

variable {tree edited : SourceTree} {path parent : Path} {index : Nat} {element node : Node}
  {nodes : List Node} {changes : List Change}

/-! ## What unwrapping cuts -/

theorem trimsTo_trimBlank (nodes : List Node) :
    TrimsTo (Node.shownAll nodes) (Node.shownAll (trimBlank nodes)) := by
  obtain ⟨x, hx, hfront⟩ := Node.exists_blank_shownAll_dropWhile
    (fun _ => Node.allBlank_shown_of_isBlankText) nodes
  obtain ⟨y, hy, hback⟩ := Node.exists_shownAll_blank_reverse_dropWhile
    (fun _ => Node.allBlank_shown_of_isBlankText) (nodes.dropWhile Node.isBlankText)
  exact ⟨x, y, hx, hy, by rw [hfront, hback, trimBlank]⟩

theorem shown_retext (hkind : node.kind = .jsxText) (change : List Char → List Char) :
    (retext change node).shown = visibleChars (change (node.text.getD "").toList) := by
  rw [retext, if_pos (beq_iff_eq.mpr hkind), Node.shown_withLeading, Node.shown_of_jsxText rfl]
  show visibleChars (String.ofList _).toList = _
  rw [String.toList_ofList]

/-- Of text in front, unwrapping cuts blanks. -/
theorem exists_blank_shown_retext (node : Node) :
    ∃ x, AllBlank x ∧ node.shown = x ++ (retext dropBlank node).shown := by
  by_cases hkind : node.kind = .jsxText
  · rw [shown_retext hkind, Node.shown_of_jsxText hkind]
    exact exists_blank_visibleChars _
  · rw [retext, if_neg (by simpa using hkind)]
    exact ⟨[], allBlank_nil, rfl⟩

/-- And of text behind. -/
theorem exists_shown_retext_blank (node : Node) :
    ∃ y, AllBlank y ∧ node.shown = (retext dropBlankEnd node).shown ++ y := by
  by_cases hkind : node.kind = .jsxText
  · rw [shown_retext hkind, Node.shown_of_jsxText hkind]
    exact exists_visibleChars_blank _
  · rw [retext, if_neg (by simpa using hkind)]
    exact ⟨[], allBlank_nil, (List.append_nil _).symm⟩

theorem modify_concat {α : Type} (front : List α) (last : α) (change : α → α) :
    (front ++ [last]).modify front.length change = front ++ [change last] := by
  induction front with
  | nil => rfl
  | cons a front ih =>
    rw [List.cons_append, List.length_cons, List.modify_succ_cons, ih, List.cons_append]

theorem trimsTo_trimEdges (nodes : List Node) :
    TrimsTo (Node.shownAll nodes) (Node.shownAll (trimEdges nodes)) := by
  have hfront : ∃ x, AllBlank x ∧
      Node.shownAll nodes = x ++ Node.shownAll (nodes.modifyHead (retext dropBlank)) := by
    cases nodes with
    | nil => exact ⟨[], allBlank_nil, rfl⟩
    | cons first rest =>
      obtain ⟨x, hx, hfirst⟩ := exists_blank_shown_retext first
      refine ⟨x, hx, ?_⟩
      rw [List.modifyHead_cons, Node.shownAll, Node.shownAll, hfirst, List.append_assoc]
  have hback : ∀ nodes : List Node, ∃ y, AllBlank y ∧ Node.shownAll nodes =
      Node.shownAll (nodes.modify (nodes.length - 1) (retext dropBlankEnd)) ++ y := by
    intro nodes
    rcases nodes.eq_nil_or_concat' with rfl | ⟨front, last, rfl⟩
    · exact ⟨[], allBlank_nil, rfl⟩
    · obtain ⟨y, hy, hlast⟩ := exists_shown_retext_blank last
      have hlength : (front ++ [last]).length - 1 = front.length := by simp
      refine ⟨y, hy, ?_⟩
      rw [hlength, modify_concat, Node.shownAll_append, Node.shownAll_append,
        Node.shownAll_singleton, Node.shownAll_singleton, hlast, List.append_assoc]
  obtain ⟨x, hx, hfront⟩ := hfront
  obtain ⟨y, hy, hback⟩ := hback (nodes.modifyHead (retext dropBlank))
  exact ⟨x, y, hx, hy, by rw [hfront, hback, trimEdges]⟩

theorem shownAll_withFirstLeading (leading : String) (nodes : List Node) :
    Node.shownAll (withFirstLeading leading nodes) = Node.shownAll nodes := by
  cases nodes with
  | nil => rfl
  | cons first rest =>
    rw [withFirstLeading, Node.shownAll, Node.shownAll, Node.shown_withLeading]

/-- The tags of an element show nothing. -/
theorem shown_eq_content (hkind : element.kind = .jsxElement) (h : Framed element) :
    element.shown = Node.shownAll element.content := by
  obtain ⟨tag, closing, hcontent⟩ := h.exists_hasContent hkind
  have htag : tag.shown = [] := Node.shown_of_isSilent (by rw [hcontent.tag]; rfl)
  have hclosing : closing.shown = [] := Node.shown_of_isSilent (by rw [hcontent.closing]; rfl)
  rw [Node.shown_of_jsxElement hkind, hcontent.children, List.nil_append, Node.shownAll, htag, Node.shownAll_append,
    Node.shownAll_singleton, hclosing, List.append_nil]
  rfl

/-- **An unwrapped element shows its content, less blanks at its ends.** -/
theorem trimsTo_unwrapped (hkind : element.kind = .jsxElement) (h : Framed element) :
    TrimsTo element.shown (Node.shownAll (unwrapped element)) := by
  have hcomments : Node.shownAll (element.content.filter (·.kind != .comment)) =
      Node.shownAll element.content := by
    refine Node.shownAll_filter (fun n hn => Node.shown_of_isSilent ?_) _
    have hcomment : n.kind = .comment := by simpa using hn
    rw [hcomment]
    rfl
  rw [shown_eq_content hkind h, ← hcomments, unwrapped, shownAll_withFirstLeading]
  exact (trimsTo_trimBlank _).trans (trimsTo_trimEdges _)

/-! ## What the parent shows -/

/-- A parent before and after an element in it made way for its content, by what they show: `a` in front of
the element, `b` behind it, and `m` without the blanks `x` and `y` at its ends. -/
structure MakesWay (before element after : Node) (a x m y b : List Char) : Prop where
  before : before.shown = a ++ (element.shown ++ b)
  element : element.shown = x ++ (m ++ y)
  after : after.shown = a ++ (m ++ b)
  front : AllBlank x
  back : AllBlank y

/-- **The words stay the same if no blanks that are cut stood alone between two of them.** -/
theorem MakesWay.normalized_eq_iff {before after : Node} {a x m y b : List Char}
    (h : MakesWay before element after a x m y b) :
    normalized (String.ofList after.shown) = normalized (String.ofList before.shown) ↔
      (x = [] ∨ joins a (m ++ (y ++ b)) = false) ∧ (y = [] ∨ joins (a ++ m) b = false) := by
  have hbefore : before.shown = a ++ (x ++ (m ++ (y ++ b))) := by
    rw [h.before, h.element, List.append_assoc, List.append_assoc]
  rw [Edit.normalized_eq_iff, String.toList_ofList, String.toList_ofList, h.after, hbefore,
    eq_comm]
  exact blankWords_cuts_iff h.front h.back a m b

/-- The parent of an element with markup around it. -/
theorem exists_parent_of_slot (helement : elementAt tree path = .ok element)
    (hslot : markupSlot? tree path = some (parent, index)) :
    ∃ before, tree.get parent = some before ∧ before.kind = .jsxElement ∧
      before.children[index]? = some element := by
  obtain ⟨before, hbefore, hkind⟩ :
      ∃ before, tree.get parent = some before ∧ before.kind = .jsxElement := by
    unfold markupSlot? at hslot
    split at hslot
    · split at hslot
      · next node hnode =>
        split at hslot
        · next hkind =>
          cases hslot
          exact ⟨node, hnode, beq_iff_eq.mp hkind⟩
        · cases hslot
      · cases hslot
    · cases hslot
  obtain rfl := markupSlot?_eq_some hslot
  have hget : tree.root.get (parent ++ [index]) = some element := (elementAt_eq_ok helement).1
  have hbefore' : tree.root.get parent = some before := hbefore
  rw [Node.get_append, hbefore', Option.bind_some] at hget
  obtain ⟨child, hchild, hself⟩ := Node.get_cons_eq_some hget
  cases hself
  exact ⟨before, hbefore, hkind, hchild⟩

/-- An element that closes itself has nothing to unwrap. -/
theorem kind_of_editUnwrap (helement : elementAt tree path = .ok element)
    (h : editUnwrap tree path = .ok (edited, changes)) : element.kind = .jsxElement := by
  have hkind := (elementAt_eq_ok helement).2
  have hself : element.kind ≠ .jsxSelfClosingElement := by
    intro hself
    rw [editUnwrap, helement] at h
    change (if element.kind == .jsxSelfClosingElement then _ else _) = _ at h
    rw [if_pos (beq_iff_eq.mpr hself)] at h
    cases h
  revert hkind hself
  cases element.kind <;> simp [Kind.isElement]

/-- **What the parent is after unwrapping**, and what it shows before and after. -/
theorem makesWay_of_editUnwrap (helement : elementAt tree path = .ok element)
    (hframed : Framed element) (hslot : markupSlot? tree path = some (parent, index))
    (h : editUnwrap tree path = .ok (edited, changes)) :
    ∃ before a x y b, tree.get parent = some before ∧
      edited.get parent = some (before.splice index (index + 1) (unwrapped element)) ∧
      MakesWay before element (before.splice index (index + 1) (unwrapped element)) a x
        (Node.shownAll (unwrapped element)) y b := by
  obtain ⟨before, hbefore, hparent, hchild⟩ := exists_parent_of_slot helement hslot
  have hkind := kind_of_editUnwrap helement h
  rw [editUnwrap_of_kind helement hkind, hslot] at h
  obtain ⟨t, hspliced, hedited⟩ := ok_of_map h
  cases hedited
  obtain ⟨root, hroot, rfl⟩ := spliced_eq_ok hspliced
  obtain ⟨m, after, hm, hafter, hget, -, -⟩ := Node.update?_spec hroot
  cases hbefore.symm.trans hm
  cases hafter
  obtain ⟨x, y, hx, hy, hshown⟩ := trimsTo_unwrapped hkind hframed
  refine ⟨before, Node.shownAll (before.children.take index), x, y,
    Node.shownAll (before.children.drop (index + 1)), hbefore, hget, ?_, hshown, ?_, hx, hy⟩
  · rw [Node.shown_of_jsxElement hparent]
    exact Node.shownAll_split hchild
  · have hafter : (before.splice index (index + 1) (unwrapped element)).kind = .jsxElement := hparent
    rw [Node.shown_of_jsxElement hafter]
    show Node.shownAll (_ ++ (_ ++ _)) = _
    rw [Node.shownAll_append, Node.shownAll_append]

/-- **Unwrapping keeps the words that the parent shows, if no blanks that it cuts stood alone between two of
them.** The parent has the content of the element in its place, and shows what it showed, less blanks at the
two ends of the content. -/
theorem normalized_shown_editUnwrap (helement : elementAt tree path = .ok element)
    (hframed : Framed element) (hslot : markupSlot? tree path = some (parent, index))
    (h : editUnwrap tree path = .ok (edited, changes)) :
    ∃ before after a x m y b, tree.get parent = some before ∧ edited.get parent = some after ∧
      after = before.splice index (index + 1) (unwrapped element) ∧
      m = Node.shownAll (unwrapped element) ∧ MakesWay before element after a x m y b ∧
      (normalized (String.ofList after.shown) = normalized (String.ofList before.shown) ↔
        (x = [] ∨ joins a (m ++ (y ++ b)) = false) ∧ (y = [] ∨ joins (a ++ m) b = false)) := by
  obtain ⟨before, a, x, y, b, hbefore, hafter, hway⟩ :=
    makesWay_of_editUnwrap helement hframed hslot h
  exact ⟨before, _, a, x, _, y, b, hbefore, hafter, rfl, rfl, hway, hway.normalized_eq_iff⟩

/-! ## Letters with blanks between them -/

/-- Letters with the blanks between them inside of elements. -/
def lettersText : String := "<p>a<b> c </b>d <i> e</i></p>;"

/-- The nodes of `lettersText`. -/
def lettersNode : Node :=
  Sketch.program [Sketch.statement (Sketch.markup "p" []
    [.markupText "a", Sketch.markup "b" [] [.markupText " c "], .markupText "d ",
      Sketch.markup "i" [] [.markupText " e"]])]

/-- The tree of `lettersText`. -/
def lettersTree : SourceTree := .sketch lettersText lettersNode

theorem readFrom_letters : lettersTree.ReadFrom lettersText :=
  readFrom_sketch (by decide) (by decide)

/-- The words that a node of a tree shows. -/
def wordsAt (tree : SourceTree) (path : Path) : Option String :=
  (tree.get path).map (fun n => normalized (String.ofList n.shown))

/-- The second element has a blank at its start, and there is one in front of it. -/
theorem normalized_shown_editUnwrap_letters :
    lettersTree.ReadFrom lettersText ∧
      ∃ element edited changes, elementAt lettersTree [0, 0, 4] = .ok element ∧
        Framed element ∧ markupSlot? lettersTree [0, 0, 4] = some ([0, 0], 4) ∧
        editUnwrap lettersTree [0, 0, 4] = .ok (edited, changes) ∧
        edited.toSource = "<p>a<b> c </b>d e</p>;" ∧
        ∃ before after a x m y b, lettersTree.get [0, 0] = some before ∧
          edited.get [0, 0] = some after ∧ after = before.splice 4 5 (unwrapped element) ∧
          m = Node.shownAll (unwrapped element) ∧ MakesWay before element after a x m y b ∧
          normalized (String.ofList before.shown) = "a c d e" ∧
          normalized (String.ofList after.shown) = "a c d e" ∧
          (x = [] ∨ joins a (m ++ (y ++ b)) = false) ∧ (y = [] ∨ joins (a ++ m) b = false) := by
  have helement : elementAt lettersTree [0, 0, 4] =
      .ok ((lettersTree.get [0, 0, 4]).getD default) := rfl
  have hframed : Framed ((lettersTree.get [0, 0, 4]).getD default) := by decide +kernel
  have hslot : markupSlot? lettersTree [0, 0, 4] = some ([0, 0], 4) := rfl
  have hresult : ∃ result, editUnwrap lettersTree [0, 0, 4] = .ok result := ⟨_, rfl⟩
  obtain ⟨⟨edited, changes⟩, hedit⟩ := hresult
  have hsource : (editUnwrap lettersTree [0, 0, 4]).map
      (fun result => (result.1.toSource, wordsAt result.1 [0, 0])) =
        .ok ("<p>a<b> c </b>d e</p>;", some "a c d e") := by decide +kernel
  have hwords : wordsAt lettersTree [0, 0] = some "a c d e" := by decide +kernel
  rw [hedit] at hsource
  obtain ⟨hsource, hwords'⟩ := Prod.mk.inj (Except.ok.inj hsource)
  obtain ⟨before, after, a, x, m, y, b, hbefore, hafter, hsplice, hm, hway, hiff⟩ :=
    normalized_shown_editUnwrap helement hframed hslot hedit
  rw [wordsAt, hbefore, Option.map_some, Option.some.injEq] at hwords
  change (edited.get [0, 0]).map _ = _ at hwords'
  rw [hafter, Option.map_some, Option.some.injEq] at hwords'
  exact ⟨readFrom_letters, _, edited, changes, helement, hframed, hslot, hedit, hsource, before,
    after, a, x, m, y, b, hbefore, hafter, hsplice, hm, hway, hwords, hwords',
    hiff.mp (hwords'.trans hwords.symm)⟩

/-- **Words that become one.** The blanks inside the first element are all there is between three
letters. -/
theorem editUnwrap_joins_words :
    lettersTree.ReadFrom lettersText ∧
      markupSlot? lettersTree [0, 0, 2] = some ([0, 0], 2) ∧
      ∃ edited changes, editUnwrap lettersTree [0, 0, 2] = .ok (edited, changes) ∧
        edited.toSource = "<p>acd <i> e</i></p>;" ∧
        wordsAt lettersTree [0, 0] = some "a c d e" ∧ wordsAt edited [0, 0] = some "acd e" := by
  have hresult : ∃ result, editUnwrap lettersTree [0, 0, 2] = .ok result := ⟨_, rfl⟩
  obtain ⟨⟨edited, changes⟩, hedit⟩ := hresult
  have hsource : (editUnwrap lettersTree [0, 0, 2]).map
      (fun result => (result.1.toSource, wordsAt result.1 [0, 0])) =
        .ok ("<p>acd <i> e</i></p>;", some "acd e") := by decide +kernel
  rw [hedit] at hsource
  obtain ⟨hsource, hwords⟩ := Prod.mk.inj (Except.ok.inj hsource)
  exact ⟨readFrom_letters, rfl, edited, changes, hedit, hsource, by decide +kernel, hwords⟩

end MarkupEdit.Edit
