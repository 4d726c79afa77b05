import MarkupEdit.Proofs.Tree.Preorder
import MarkupEdit.Proofs.Tree.Sketch
import MarkupEdit.Tree.Parse

/-!
# Trees hold their text

A tree that is converted from an outline of a text prints as the text, and each of its nodes stands
where its span says.

* `convertFrom_children`: the walk over the remaining children of an open branch, by recursion.
* `convertRoot_eq`, `convertRoot_tooDeep`: it builds the node of the outline, unless branches are
  nested too deep.
* `bodies_convertedAll`: nodes print as the slice of the text that they cover.
* `exact_converted`: **each node of a tree stands where its span says.**
* `convert_lossless`: both for the tree of a whole text.
* `readFrom_sketch`, `detached_sketch`: **what is written down is read back from what it prints.**
-/

namespace MarkupEdit.Tree

open MarkupEdit.Text Outline

variable {language : Language} {s : List Char} {o : Outline} {os : List Outline} {a b gap : Nat}

theorem converted_of_isLeaf (h : o.isLeaf = true) : converted s gap o = startNode s gap o := by
  cases o
  exact if_pos h

theorem converted_of_branch (h : o.isLeaf = false) :
    converted s gap o =
      { startNode s gap o with
        children := convertedAll s o.start.byte o.children
        trailing := slice s (behind o.start.byte o.children) o.stop } := by
  cases o
  exact if_neg (by simpa [Outline.isLeaf] using h)

theorem leading_converted : (converted s gap o).leading = slice s gap o.start.byte := by
  cases hleaf : o.isLeaf with
  | true => rw [converted_of_isLeaf hleaf]; rfl
  | false => rw [converted_of_branch hleaf]; rfl

theorem span_converted : (converted s gap o).span = some o.span := by
  cases hleaf : o.isLeaf with
  | true => rw [converted_of_isLeaf hleaf]; rfl
  | false => rw [converted_of_branch hleaf]; rfl

/-- An open branch none of whose children remain becomes the node of its outline. -/
theorem close_start (h : o.isLeaf = false) :
    OpenBranch.close s
        ⟨{ startNode s gap o with
            children := (startNode s gap o).children ++ convertedAll s o.start.byte o.children },
          behind o.start.byte o.children, o.stop, []⟩ =
      converted s gap o := by
  rw [converted_of_branch h]
  rfl

/-! ## The walk -/

/-- **The walk over some of the remaining children of an open branch.** If what they nest fits under
the open branches, they are converted; if it does not, the walk fails. -/
theorem convertFrom_children (language : Language) (s : List Char) (os rest : List Outline)
    (node : Node) (offset stop : Nat) (below : List OpenBranch) :
    (below.length + 1 + nestingAll os ≤ maxDepth →
      convertFrom language s ⟨node, offset, stop, os ++ rest⟩ below =
        convertFrom language s
          ⟨{ node with children := node.children ++ convertedAll s offset os }, behind offset os,
            stop, rest⟩ below) ∧
    (below.length + 1 ≤ maxDepth → maxDepth < below.length + 1 + nestingAll os →
      ∃ place, convertFrom language s ⟨node, offset, stop, os ++ rest⟩ below =
        .error (tooDeepAt language place)) := by
  match os with
  | [] =>
    refine ⟨fun _ => ?_, fun h₁ h₂ => ?_⟩
    · cases node
      rw [convertedAll, List.append_nil]
      rfl
    · rw [nestingAll] at h₂
      omega
  | o :: os =>
    have hcount := o.count_eq
    have hnest : nestingAll (o :: os) = max o.nesting (nestingAll os) := rfl
    have hbehind : behind offset (o :: os) = behind (max offset o.stop) os := rfl
    -- what is left to do behind the first of the children
    have ihRest := convertFrom_children language s os rest
      { node with children := node.children ++ [converted s offset o] } (max offset o.stop) stop
      below
    cases hleaf : o.isLeaf with
    | true =>
      -- a leaf takes no place on the stack
      have hstep : convertFrom language s ⟨node, offset, stop, o :: os ++ rest⟩ below =
          convertFrom language s
            ⟨{ node with children := node.children ++ [converted s offset o] }, max offset o.stop,
              stop, os ++ rest⟩ below := by
        rw [List.cons_append, convertFrom, if_pos hleaf, converted_of_isLeaf hleaf]
        rfl
      rw [hstep, hnest, nesting_of_isLeaf hleaf, Nat.zero_max]
      simpa only [convertedAll, hbehind, List.append_assoc, List.singleton_append] using ihRest
    | false =>
      have ihChildren := convertFrom_children language s o.children [] (startNode s offset o) o.start.byte
        o.stop (⟨node, offset, stop, os ++ rest⟩ :: below)
      rw [List.append_nil] at ihChildren
      rw [nesting_of_branch hleaf] at hnest
      by_cases hroom : maxDepth ≤ below.length + 1
      · -- no branch fits any more
        refine ⟨fun h => by omega, fun _ _ => ⟨o.start, ?_⟩⟩
        rw [List.cons_append, convertFrom, if_neg (by simp [hleaf]), if_pos hroom]
      -- the branch opens, and its children have one branch more below them
      have hopen : convertFrom language s ⟨node, offset, stop, o :: os ++ rest⟩ below =
          convertFrom language s (.start s offset o) (⟨node, offset, stop, os ++ rest⟩ :: below) := by
        rw [List.cons_append, convertFrom, if_neg (by simp [hleaf]), if_neg hroom]
      rw [hopen]
      simp only [List.length_cons] at ihChildren
      by_cases hfits : o.nesting + (below.length + 1) ≤ maxDepth
      · -- it closes again in front of its siblings
        have hclosed := ihChildren.1 (by rw [nesting_of_branch hleaf] at hfits; omega)
        rw [OpenBranch.start, hclosed, convertFrom, close_start hleaf, hnest]
        rw [nesting_of_branch hleaf] at hfits
        refine ⟨fun h => ?_, fun h₁ h₂ => ihRest.2 h₁ (by omega)⟩
        simpa only [OpenBranch.push, convertedAll, hbehind, List.append_assoc,
          List.singleton_append] using ihRest.1 (by omega)
      · rw [nesting_of_branch hleaf] at hfits
        refine ⟨fun h => by omega, fun _ _ => ?_⟩
        exact ihChildren.2 (by omega) (by omega)
termination_by countAll os
decreasing_by
  · simp only [countAll]; omega
  · simp only [countAll]; omega

/-- **The walk builds the node of an outline** whose branches are not nested too deep. -/
theorem convertRoot_eq (h : o.nesting ≤ maxDepth) :
    convertRoot language s gap o = .ok (converted s gap o) := by
  unfold convertRoot
  split
  · next hleaf => rw [converted_of_isLeaf hleaf]
  · next hleaf =>
    rw [Bool.not_eq_true] at hleaf
    rw [nesting_of_branch hleaf] at h
    have hwalk := (convertFrom_children language s o.children []
      (startNode s gap o) o.start.byte o.stop []).1 (by simp only [List.length_nil]; omega)
    rw [List.append_nil] at hwalk
    rw [OpenBranch.start, hwalk, convertFrom, close_start hleaf]

/-- Branches that are nested too deep are refused. -/
theorem convertRoot_tooDeep (language : Language) (s : List Char) (gap : Nat)
    (h : maxDepth < o.nesting) :
    ∃ place, convertRoot language s gap o = .error (tooDeepAt language place) := by
  have hleaf : o.isLeaf = false := by
    cases hl : o.isLeaf with
    | false => rfl
    | true =>
      rw [nesting_of_isLeaf hl] at h
      omega
  rw [nesting_of_branch hleaf] at h
  have hwalk := (convertFrom_children language s o.children []
    (startNode s gap o) o.start.byte o.stop []).2 (by decide) (by simp only [List.length_nil]; omega)
  rw [List.append_nil] at hwalk
  rwa [convertRoot, if_neg (by simp [hleaf]), OpenBranch.start]

/-! ## The text of the nodes -/

theorem behind_cons (h : PlacedAll s a b (o :: os)) : behind a (o :: os) = behind o.stop os := by
  have h₁ := h.1
  have h₂ := h.2.1.start_le_stop
  rw [behind, List.foldl_cons, Nat.max_eq_right (by omega)]
  rfl

theorem convertedAll_cons (h : PlacedAll s a b (o :: os)) :
    convertedAll s a (o :: os) = converted s a o :: convertedAll s o.stop os := by
  have h₁ := h.1
  have h₂ := h.2.1.start_le_stop
  rw [convertedAll, Nat.max_eq_right (by omega)]

/-- Nodes that follow one another between two bytes end between them, between characters. -/
theorem behind_spec (h : PlacedAll s a b os) (ha : IsBoundary s a) :
    a ≤ behind a os ∧ behind a os ≤ b ∧ IsBoundary s (behind a os) := by
  induction os generalizing a with
  | nil => exact ⟨Nat.le_refl a, h, ha⟩
  | cons o os ih =>
    obtain ⟨h₁, h₂, h₃⟩ := ih h.2.2 h.2.1.stop
    rw [behind_cons h]
    have := h.1
    have := h.2.1.start_le_stop
    exact ⟨by omega, h₂, h₃⟩

mutual

/-- The node of an outline prints as the slice that the outline covers. -/
theorem body_converted : (o : Outline) → (gap : Nat) → o.Placed s →
    (converted s gap o).body = slice s o.start.byte o.stop
  | ⟨kind, field, start, stop, children⟩, gap, h => by
    rw [Node.body_eq]
    cases hleaf : Outline.isLeaf ⟨kind, field, start, stop, children⟩ with
    | true =>
      rw [converted_of_isLeaf hleaf]
      simp only [startNode, hleaf, if_true, Option.getD_some, Node.bodies, String.append_empty]
    | false =>
      have hchildren := bodies_convertedAll children start.byte stop h.children h.start
      obtain ⟨h₁, h₂, h₃⟩ := behind_spec h.children h.start
      rw [converted_of_branch hleaf]
      simp only [startNode, hleaf, Bool.false_eq_true, if_false, Option.getD_none,
        String.empty_append, hchildren]
      exact slice_append h.start h₃ h.stop h₁ h₂

/-- Nodes that follow one another print as the slice from the start of the gap in front of the
first to the end of the last. -/
theorem bodies_convertedAll : (os : List Outline) → (a b : Nat) → PlacedAll s a b os →
    IsBoundary s a → Node.bodies (convertedAll s a os) = slice s a (behind a os)
  | [], a, _, _, _ => (slice_self s a).symm
  | o :: os, a, b, h, ha => by
    obtain ⟨h₁, -, h₃⟩ := behind_spec h.2.2 h.2.1.stop
    have hle := h.2.1.start_le_stop
    have hfirst := body_converted o a h.2.1
    have hrest := bodies_convertedAll os o.stop b h.2.2 h.2.1.stop
    rw [convertedAll_cons h, behind_cons h, Node.bodies_cons, Node.full, leading_converted, hfirst,
      hrest,
      slice_append ha h.2.1.start h.2.1.stop h.1 hle,
      slice_append ha h.2.1.stop h₃ (Nat.le_trans h.1 hle) h₁]

end

/-! ## Where the nodes stand -/

/-- In a node that prints from the byte `first` to the byte `last` of a text, the descendant at a
path stands where its span says. -/
structure Exact (s : List Char) (first last : Nat) (root : Node) (path : Path) (n : Node)
    (span : Span) : Prop where
  span_eq : n.span = some span
  start : IsBoundary s span.startByte
  stop : IsBoundary s span.endByte
  start_le_stop : span.startByte ≤ span.endByte
  first_le : first ≤ span.startByte
  le_last : span.endByte ≤ last
  body : n.body = slice s span.startByte span.endByte
  front : root.front path ++ n.leading = slice s first span.startByte
  back : root.back path = slice s span.endByte last

/-- One of some nodes that follow one another is the node of an outline, and the others print as the
slices on both sides of it. -/
theorem convertedAll_split {i : Nat} {child : Node} (h : PlacedAll s a b os) (ha : IsBoundary s a)
    (hc : (convertedAll s a os)[i]? = some child) :
    ∃ o gap, child = converted s gap o ∧ o.Placed s ∧ IsBoundary s gap ∧ a ≤ gap ∧
      gap ≤ o.start.byte ∧ o.stop ≤ behind a os ∧
      Node.bodies ((convertedAll s a os).take i) = slice s a gap ∧
      Node.bodies ((convertedAll s a os).drop (i + 1)) = slice s o.stop (behind a os) := by
  induction os generalizing a i with
  | nil => simp [convertedAll] at hc
  | cons o os ih =>
    rw [convertedAll_cons h] at hc ⊢
    rw [behind_cons h]
    cases i with
    | zero =>
      rw [List.getElem?_cons_zero, Option.some.injEq] at hc
      exact ⟨o, a, hc.symm, h.2.1, ha, Nat.le_refl a, h.1, (behind_spec h.2.2 h.2.1.stop).1,
        (slice_self s a).symm, bodies_convertedAll os o.stop b h.2.2 h.2.1.stop⟩
    | succ i =>
      rw [List.getElem?_cons_succ] at hc
      obtain ⟨o', gap, hchild, hplaced, hgap, hle, hle', hstop, htake, hdrop⟩ :=
        ih h.2.2 h.2.1.stop hc
      have hfirst := h.2.1.start_le_stop
      -- in front of the node stand its predecessor and what is in front of it behind that
      refine ⟨o', gap, hchild, hplaced, hgap, Nat.le_trans h.1 (Nat.le_trans hfirst hle), hle',
        hstop, ?_, hdrop⟩
      rw [List.take_succ_cons, Node.bodies_cons, Node.full, leading_converted,
        body_converted o a h.2.1, htake, slice_append ha h.2.1.start h.2.1.stop h.1 hfirst,
        slice_append ha h.2.1.stop hgap (Nat.le_trans h.1 hfirst) hle]

/-- **Each node of a tree stands where its span says.** -/
theorem exact_converted {path : Path} {n : Node} (h : o.Placed s) (hgap : IsBoundary s gap)
    (hle : gap ≤ o.start.byte) (hn : (converted s gap o).get path = some n) :
    ∃ span, Exact s gap o.stop (converted s gap o) path n span := by
  induction path generalizing o gap with
  | nil =>
    rw [Node.get, Option.some.injEq] at hn
    subst hn
    exact ⟨o.span,
      { span_eq := span_converted
        start := h.start
        stop := h.stop
        start_le_stop := h.start_le_stop
        first_le := hle
        le_last := Nat.le_refl _
        body := body_converted o gap h
        front := by rw [Node.front_nil, String.empty_append, leading_converted]; rfl
        back := (slice_self s o.stop).symm }⟩
  | cons i path ih =>
    obtain ⟨child, hc, hn⟩ := Node.get_cons_eq_some hn
    have hleaf : o.isLeaf = false := by
      cases hl : o.isLeaf with
      | false => rfl
      | true =>
        rw [converted_of_isLeaf hl] at hc
        simp [startNode] at hc
    rw [converted_of_branch hleaf] at hc ⊢
    obtain ⟨o', g, rfl, hplaced, hg, hag, hgo, hstop, htake, hdrop⟩ :=
      convertedAll_split h.children h.start hc
    obtain ⟨span, e⟩ := ih hplaced hg hgo hn
    -- the span is the same in the branch, which prints more on both sides
    obtain ⟨-, hbehind, hb⟩ := behind_spec h.children h.start
    refine ⟨span,
      { e with
        first_le := Nat.le_trans hle (Nat.le_trans hag e.first_le)
        le_last := Nat.le_trans e.le_last (Nat.le_trans hstop hbehind)
        front := ?_
        back := ?_ }⟩
    · -- the trivia of the branch, its children in front of the path, and the way down
      rw [Node.front_cons hc]
      simp only [startNode, hleaf, Bool.false_eq_true, if_false, Option.getD_none,
        String.empty_append, String.append_assoc, htake, e.front]
      rw [slice_append h.start hg e.start hag e.first_le,
        slice_append hgap h.start e.start hle (Nat.le_trans hag e.first_le)]
    · rw [Node.back_cons hc]
      simp only [hdrop, e.back]
      rw [slice_append hplaced.stop hb h.stop hstop hbehind,
        slice_append e.stop hplaced.stop h.stop e.le_last (Nat.le_trans hstop hbehind)]

theorem exists_converted_of_mem {c : Node} (h : c ∈ convertedAll s a os) :
    ∃ (gap : Nat) (o : Outline), c = converted s gap o := by
  induction os generalizing a with
  | nil => cases h
  | cons o os ih =>
    rcases List.mem_cons.mp h with rfl | h
    · exact ⟨a, o, rfl⟩
    · exact ih h

/-- Every node in the node of an outline is the node of some outline. -/
theorem exists_converted_of_get {path : Path} {n : Node}
    (h : (converted s gap o).get path = some n) :
    ∃ (gap : Nat) (o : Outline), n = converted s gap o := by
  induction path generalizing gap o with
  | nil =>
    cases h
    exact ⟨gap, o, rfl⟩
  | cons i path ih =>
    obtain ⟨c, hc, hn⟩ := Node.get_cons_eq_some h
    have hmem := List.mem_of_getElem? hc
    cases hleaf : o.isLeaf with
    | true =>
      rw [converted_of_isLeaf hleaf] at hmem
      cases hmem
    | false =>
      rw [converted_of_branch hleaf] at hmem
      obtain ⟨gap', o', rfl⟩ := exists_converted_of_mem hmem
      exact ih hn

/-! ## Trees of texts -/

variable {tree : SourceTree} {path : Path} {n : Node}

theorem convert_eq (language : Language) (s : List Char) (h : o.nesting ≤ maxDepth) :
    convert language s o = .ok
      { root := converted s o.start.byte o
        before := slice s 0 o.start.byte
        after := slice s o.stop (byteSize s)
        language } := by
  rw [convert, convertRoot_eq h]
  rfl

theorem convert_tooDeep (language : Language) (s : List Char) (h : maxDepth < o.nesting) :
    ∃ place, convert language s o = .error (tooDeepAt language place) := by
  obtain ⟨place, hp⟩ := convertRoot_tooDeep language s o.start.byte h
  exact ⟨place, by rw [convert, hp]; rfl⟩

/-- The root of a tree of a text is the node of its outline. -/
theorem convert_eq_ok (h : convert language s o = .ok tree) :
    o.nesting ≤ maxDepth ∧ tree =
      { root := converted s o.start.byte o
        before := slice s 0 o.start.byte
        after := slice s o.stop (byteSize s)
        language } := by
  by_cases hd : o.nesting ≤ maxDepth
  · rw [convert_eq language s hd, Except.ok.injEq] at h
    exact ⟨hd, h.symm⟩
  · obtain ⟨place, hp⟩ := convert_tooDeep (o := o) language s (by omega)
    rw [hp] at h
    cases h

/-- **A tree prints as the text it was read from.** -/
theorem toSource_of_convert (ho : o.Placed s) (h : convert language s o = .ok tree) :
    tree.toSource = String.ofList s := by
  obtain ⟨-, rfl⟩ := convert_eq_ok h
  have hle := ho.start_le_stop
  have hsize := ho.stop.le_size
  rw [SourceTree.toSource, Node.full, leading_converted, body_converted o _ ho, slice_self,
    String.empty_append, slice_append ho.start ho.stop (isBoundary_size s) hle hsize,
    slice_append (isBoundary_zero s) ho.start (isBoundary_size s) (Nat.zero_le _)
      (Nat.le_trans hle hsize), slice_all]

/-- A tree that a text was read as: any outline that lies in the text may have shown it. -/
def SourceTree.ReadFrom (tree : SourceTree) (source : String) : Prop :=
  ∃ (language : Language) (o : Outline),
    o.Placed source.toList ∧ convert language source.toList o = .ok tree

/-- Parsing reads a text. -/
theorem SourceTree.readFrom_of_parse {source : String} (h : parse source language = .ok tree) :
    tree.ReadFrom source := by
  unfold parse at h
  dsimp only at h
  split at h
  · exact ⟨language, _, placed_outline _ _ _, h⟩
  · cases h

/-- A node that can be read back from what it prints: with a text it has nothing in it, and without one
it has something in it. -/
structure Drawn (n : Node) : Prop where
  leaf : n.text ≠ none → n.children = [] ∧ n.trailing = ""
  branch : n.text = none → n.children ≠ [] ∧ n.kind.isVerbatim = false

theorem drawn_converted (s : List Char) (gap : Nat) (o : Outline) : Drawn (converted s gap o) := by
  cases hleaf : o.isLeaf with
  | true =>
    rw [converted_of_isLeaf hleaf]
    refine ⟨fun _ => ⟨rfl, rfl⟩, fun htext => ?_⟩
    simp [startNode, hleaf] at htext
  | false =>
    obtain ⟨hempty, hverbatim⟩ := Bool.or_eq_false_iff.mp hleaf
    rw [converted_of_branch hleaf]
    refine ⟨fun htext => ?_, fun _ => ⟨?_, hverbatim⟩⟩
    · simp [startNode, hleaf] at htext
    · rcases hchildren : o.children with _ | ⟨c, rest⟩
      · rw [hchildren] at hempty
        cases hempty
      · exact List.cons_ne_nil _ _

/-- **Reading gives each node either a text or something in it.** -/
theorem SourceTree.ReadFrom.drawn {source : String} (h : tree.ReadFrom source) :
    tree.root.Throughout Drawn := by
  obtain ⟨language, o, -, hconvert⟩ := h
  obtain ⟨-, rfl⟩ := convert_eq_ok hconvert
  intro path n hn
  obtain ⟨gap, o', rfl⟩ := exists_converted_of_get hn
  exact drawn_converted _ gap o'

/-- What a tree prints in front of a node, the node, and what it prints behind are the slices of the
text in front of the span of the node, of the span, and behind it. -/
theorem slices_of_get (ho : o.Placed s) (h : convert language s o = .ok tree)
    (hn : tree.get path = some n) :
    ∃ span, n.span = some span ∧ IsBoundary s span.startByte ∧ IsBoundary s span.endByte ∧
      span.startByte ≤ span.endByte ∧ n.body = slice s span.startByte span.endByte ∧
      tree.front path ++ n.leading = slice s 0 span.startByte ∧
      tree.back path = slice s span.endByte (byteSize s) := by
  obtain ⟨-, rfl⟩ := convert_eq_ok h
  obtain ⟨span, e⟩ := exact_converted ho ho.start (Nat.le_refl _) hn
  refine ⟨span, e.span_eq, e.start, e.stop, e.start_le_stop, e.body, ?_, ?_⟩
  · rw [SourceTree.front, String.append_assoc, e.front,
      slice_append (isBoundary_zero s) ho.start e.start (Nat.zero_le _) e.first_le]
  · rw [SourceTree.back, e.back, slice_append e.stop ho.stop (isBoundary_size s) e.le_last
      ho.stop.le_size]

/-- **Conversion loses nothing.** It fails exactly if branches are nested too deep. Otherwise the tree
prints as the text, and each of its nodes prints as the part of the text that its span covers, behind
as many bytes as its span starts at. -/
theorem convert_lossless (language : Language) (source : String) (o : Outline)
    (h : o.Placed source.toList) :
    if maxDepth < o.nesting then
      ∃ line column, convert language source.toList o = .error (.tooDeep language line column)
    else
      ∃ tree, convert language source.toList o = .ok tree ∧ tree.toSource = source ∧
        ∀ path n, tree.get path = some n → ∃ span, n.span = some span ∧
          IsBoundary source.toList span.startByte ∧ IsBoundary source.toList span.endByte ∧
          span.startByte ≤ span.endByte ∧
          n.body = slice source.toList span.startByte span.endByte ∧
          byteSize (tree.front path ++ n.leading).toList = span.startByte := by
  split
  · next hd =>
    obtain ⟨place, hp⟩ := convert_tooDeep language source.toList hd
    exact ⟨_, _, hp⟩
  · next hd =>
    have htree := convert_eq language source.toList (Nat.le_of_not_lt hd)
    refine ⟨_, htree, by rw [toSource_of_convert h htree, String.ofList_toList], ?_⟩
    intro path n hn
    obtain ⟨span, hspan, hstart, hstop, hle, hbody, hfront, -⟩ := slices_of_get h htree hn
    refine ⟨span, hspan, hstart, hstop, hle, hbody, ?_⟩
    rw [hfront, byteSize_slice (isBoundary_zero _) hstart (Nat.zero_le _), Nat.sub_zero]

/-! ## Trees that are written down -/

mutual

/-- **A node is read back from what it prints**, but for where it stood. -/
theorem detached_converted_outline (n : Node) (l r : List Char) (h : n.Throughout Drawn) :
    (converted (l ++ (n.full.toList ++ r)) (byteSize l) (n.outline (Point.start.after l))).detached =
      n.detached := by
  have hleading := n.slice_leading l r
  have hbody := n.slice_body l r
  cases htext : n.text with
  | some text =>
    obtain ⟨hchildren, htrailing⟩ := h.self.leaf (by simp [htext])
    have hleaf : (n.outline (Point.start.after l)).isLeaf = true := by
      rw [Node.isLeaf_outline, hchildren]
      rfl
    have hheld : n.body = text := by
      rw [Node.body_eq, htext, hchildren, htrailing]
      simp [Node.bodies]
    rw [converted_of_isLeaf hleaf, startNode, hleading, hbody, hheld, hleaf]
    obtain ⟨kind, field, span, leading, _, children, trailing⟩ := n
    cases htext
    cases hchildren
    cases htrailing
    rfl
  | none =>
    obtain ⟨hchildren, hverbatim⟩ := h.self.branch htext
    have hleaf : (n.outline (Point.start.after l)).isLeaf = false := by
      rw [Node.isLeaf_outline, hverbatim, Bool.or_false, List.isEmpty_eq_false_iff]
      exact hchildren
    -- the children start behind the trivia of the node, for it has no text
    obtain ⟨hlist, hbehind⟩ := detachedAll_convertedAll_outlines n.children (l ++ n.leading.toList)
      (n.trailing.toList ++ r) fun c hc => h.child hc
    have hwhole : n.full.toList = n.leading.toList ++ ((Node.bodies n.children).toList ++
        n.trailing.toList) := by
      rw [Node.toList_full, htext]
      simp
    have hrest : l ++ (n.full.toList ++ r) = l ++ n.leading.toList ++
        ((Node.bodies n.children).toList ++ (n.trailing.toList ++ r)) := by
      rw [hwhole]
      simp only [List.append_assoc]
    have houtlines : (n.outline (Point.start.after l)).children =
        Node.outlines (Point.start.after (l ++ n.leading.toList)) n.children := by
      rw [Node.children_outline, htext, Point.after_append]
      rfl
    have hstart : (n.outline (Point.start.after l)).start.byte = byteSize (l ++ n.leading.toList) := by
      rw [Node.start_outline, ← Point.after_append, Node.byte_behind]
    have hstop : (n.outline (Point.start.after l)).stop = byteSize
        (l ++ n.leading.toList ++ (Node.bodies n.children).toList ++ n.trailing.toList) := by
      rw [Node.stop_outline, Node.byte_behind, hwhole]
      simp only [byteSize_append, Nat.add_assoc]
    have htrailing : slice (l ++ (n.full.toList ++ r))
        (byteSize (l ++ n.leading.toList ++ (Node.bodies n.children).toList))
        (n.outline (Point.start.after l)).stop = n.trailing := by
      rw [hstop, hrest, ← List.append_assoc _ (Node.bodies n.children).toList, slice_of_append,
        String.ofList_toList]
    rw [converted_of_branch hleaf, startNode, hleading, hleaf, houtlines, hstart, hbehind, htrailing,
      hrest]
    obtain ⟨kind, field, span, leading, _, children, trailing⟩ := n
    cases htext
    exact congrArg (Node.mk kind field none leading none · trailing) hlist
termination_by sizeOf n
decreasing_by
  cases n
  simp only [Node.mk.sizeOf_spec]
  omega

/-- Nodes that follow one another are read back from what they print, which ends behind the last of
them. -/
theorem detachedAll_convertedAll_outlines (ns : List Node) (l r : List Char)
    (h : ∀ n ∈ ns, n.Throughout Drawn) :
    Node.detachedAll (convertedAll (l ++ ((Node.bodies ns).toList ++ r)) (byteSize l)
        (Node.outlines (Point.start.after l) ns)) = Node.detachedAll ns ∧
      behind (byteSize l) (Node.outlines (Point.start.after l) ns) =
        byteSize (l ++ (Node.bodies ns).toList) := by
  match ns with
  | [] =>
    refine ⟨rfl, ?_⟩
    simp [Node.bodies, Node.outlines, behind]
  | n :: rest =>
    have hfirst := detached_converted_outline n l ((Node.bodies rest).toList ++ r)
      (h n List.mem_cons_self)
    obtain ⟨hrest, hbehind⟩ := detachedAll_convertedAll_outlines rest (l ++ n.full.toList) r
      fun m hm => h m (List.mem_cons_of_mem _ hm)
    have hmax : max (byteSize l) (n.outline (Point.start.after l)).stop =
        byteSize (l ++ n.full.toList) := by
      rw [Node.stop_outline, Node.byte_behind, byteSize_append]
      omega
    rw [Point.after_append] at hrest hbehind
    rw [Node.bodies_cons, String.toList_append, Node.outlines, Node.detachedAll, behind,
      List.foldl_cons, convertedAll, Node.detachedAll, hmax]
    rw [List.append_assoc] at hrest hbehind ⊢
    exact ⟨by rw [hfirst, hrest], hbehind⟩
termination_by sizeOf ns

end

/-- The tree of a text that a node is written down for. -/
def SourceTree.sketch (text : String) (n : Node) : SourceTree :=
  let o := n.outline .start
  { root := converted text.toList o.start.byte o
    before := slice text.toList 0 o.start.byte
    after := slice text.toList o.stop (byteSize text.toList)
    language := .tsx }

/-- **What is written down is read from what it prints.** -/
theorem readFrom_sketch {text : String} (htext : n.full = text)
    (hdepth : (n.outline .start).nesting ≤ maxDepth) :
    (SourceTree.sketch text n).ReadFrom text := by
  refine ⟨.tsx, n.outline .start, ?_, convert_eq .tsx text.toList hdepth⟩
  have hplaced := n.placed_outline_node [] []
  rwa [List.nil_append, List.append_nil, htext] at hplaced

/-- The nodes of the tree are those that were written down. -/
theorem detached_sketch {text : String} (htext : n.full = text) (hdrawn : n.Throughout Drawn)
    (hleading : n.leading = "") : (SourceTree.sketch text n).root.detached = n.detached := by
  have hread := detached_converted_outline n [] [] hdrawn
  have hstart : (n.outline .start).start.byte = byteSize [] := by
    rw [Node.start_outline, hleading]
    rfl
  rw [List.nil_append, List.append_nil, htext, ← hstart] at hread
  exact hread

/-! ## A list with markup in it -/

/-- A list of a text and an element. -/
def listText : String := "[\"é\", <b><i/></b>]"

/-- The nodes of `listText`. The letter in the text has two bytes. -/
def listNode : Node :=
  Sketch.program [.branch .array
    [.token "[", Sketch.string "\"é\"", .token ",",
      (Sketch.markup "b" [] [Sketch.bareTag "i" []]).withLeading " ", .token "]"]]

/-- The outline of `listText`. -/
def listOutline : Outline := listNode.outline .start

theorem convert_lossless_list :
    listOutline.Placed listText.toList ∧
      ∃ tree, convert .tsx listText.toList listOutline = .ok tree ∧ tree.toSource = listText ∧
        ∀ path n, tree.get path = some n → ∃ span, n.span = some span ∧
          IsBoundary listText.toList span.startByte ∧ IsBoundary listText.toList span.endByte ∧
          span.startByte ≤ span.endByte ∧
          n.body = slice listText.toList span.startByte span.endByte ∧
          byteSize (tree.front path ++ n.leading).toList = span.startByte := by
  have hplaced : listOutline.Placed listText.toList := by decide
  have hconvert := convert_lossless .tsx listText listOutline hplaced
  rw [if_neg (by decide)] at hconvert
  exact ⟨hplaced, hconvert⟩

end MarkupEdit.Tree
