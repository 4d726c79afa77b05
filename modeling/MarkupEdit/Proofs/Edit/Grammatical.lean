import MarkupEdit.Proofs.Edit.Addressing
import MarkupEdit.Proofs.Edit.TextReading
import MarkupEdit.Proofs.Edit.TextSurvival
import MarkupEdit.Proofs.Print.Lexemes
import MarkupEdit.Proofs.Tree.Snippets

/-!
# Trees that are read

What is proved of edits, of snippets and of printing takes from the grammar what it needs of the nodes of a
tree. Reading a text gives the rest: which nodes have a text, and where they stand. So one condition on the
nodes of a tree that was read is enough for all of it.

* `Grammatical`: what is taken from the grammar.
* `Grammatical.shaped`, `Grammatical.orderly`, `wellTagged`, `framed`: **what printing, editing and snippets
  take from it**, where each node has either a text or something in it.
* `byteSize_front_lt`: an element starts behind those in front of it in the order of the document.
* `elementsApart`: **no two elements start at the same byte.**
* `parse_grammatical`: so it is for the tree of a text that was parsed.
-/

namespace MarkupEdit.Edit

open MarkupEdit.Text MarkupEdit.Tree MarkupEdit.Print

variable {n m o : Node} {tree : SourceTree} {source : String}

/-- What the results about edits, snippets and printing take from the grammar. -/
structure Grammatical (n : Node) : Prop extends n.Parted, n.Tagged, Composed n where
  /-- Between nodes there are blanks. -/
  leading : allBlank n.leading = true
  trailing : allBlank n.trailing = true
  /-- A tag starts with its mark. -/
  mark : n.kind.isOpening = true → n.children.head?.any (·.isToken "<") = true
  /-- Nothing is inside marks and numbers. -/
  lexeme : n.kind = .token ∨ n.kind = .other "number" → n.children = []
  /-- What is made of parts prints nothing without them, as an empty program. -/
  parts : isComposed n.kind = true → n.children = [] → n.body = ""

instance (n : Node) : Decidable (Grammatical n) :=
  decidable_of_iff
    (n.Parted ∧ n.Tagged ∧ Composed n ∧ allBlank n.leading = true ∧ allBlank n.trailing = true ∧
      (n.kind.isOpening = true → n.children.head?.any (·.isToken "<") = true) ∧
      (n.kind = .token ∨ n.kind = .other "number" → n.children.length = 0) ∧
      (isComposed n.kind = true → n.children.length = 0 → n.body = ""))
    ⟨fun ⟨h₁, h₂, h₃, h₄, h₅, h₆, h₇, h₈⟩ =>
        ⟨h₁, h₂, h₃, h₄, h₅, h₆, fun h => List.length_eq_zero_iff.mp (h₇ h),
          fun h h' => h₈ h (List.length_eq_zero_iff.mpr h')⟩,
      fun h => ⟨h.toParted, h.toTagged, h.toComposed, h.leading, h.trailing, h.mark,
        fun h' => List.length_eq_zero_iff.mpr (h.lexeme h'),
        fun h' h'' => h.parts h' (List.length_eq_zero_iff.mp h'')⟩⟩

/-! ## What is taken from it -/

theorem text_of_children_ne_nil (h : Drawn n) (hne : n.children ≠ []) : n.text = none := by
  by_contra htext
  exact hne (h.leaf htext).1

theorem isSome_text_of_isVerbatim (h : Drawn n) (hverbatim : n.kind.isVerbatim = true) :
    n.text.isSome = true := by
  cases htext : n.text with
  | some text => rfl
  | none =>
    rw [(h.branch htext).2] at hverbatim
    cases hverbatim

theorem children_of_isSome_text (h : Drawn n) (htext : n.text.isSome = true) : n.children = [] :=
  (h.leaf (Option.isSome_iff_ne_none.mp htext)).1

theorem Grammatical.children_ne_nil (h : Grammatical n) (hkind : n.kind.isOpening = true) :
    n.children ≠ [] := by
  intro hnil
  have hmark := h.mark hkind
  rw [hnil] at hmark
  cases hmark

/-- What printing takes from the grammar. -/
theorem Grammatical.shaped (h : Grammatical n) (hdrawn : Drawn n) : Shaped n where
  toComposed := h.toComposed
  leading := ink_of_blank (allBlank_iff.mp h.leading)
  trailing := ink_of_blank (allBlank_iff.mp h.trailing)
  leaf := children_of_isSome_text hdrawn
  text := by
    rintro (hkind | hkind) <;> exact isSome_text_of_isVerbatim hdrawn (by rw [hkind]; rfl)
  composed := by
    intro hcomposed
    cases htext : n.text with
    | none => rfl
    | some text =>
      obtain ⟨hchildren, htrailing⟩ := hdrawn.leaf (by simp [htext])
      have hbody := h.parts hcomposed hchildren
      rw [Node.body_eq, htext, hchildren, htrailing] at hbody
      simp only [Option.getD_some, Node.bodies, String.append_empty] at hbody
      rw [hbody]
      rfl

/-- What editing takes from it. -/
theorem Grammatical.orderly (h : Grammatical n) (hdrawn : Drawn n) : n.Orderly where
  toParted := h.toParted
  leaf := by
    rintro (hkind | hverbatim | hkind | htext)
    · exact h.lexeme (.inl hkind)
    · exact children_of_isSome_text hdrawn (isSome_text_of_isVerbatim hdrawn hverbatim)
    · exact h.lexeme (.inr hkind)
    · exact children_of_isSome_text hdrawn htext
  tag := fun hkind => text_of_children_ne_nil hdrawn (h.children_ne_nil hkind)

/-- What snippets take from it. -/
theorem wellTagged (h : n.Throughout Grammatical) (hdrawn : Drawn n) : n.WellTagged where
  toTagged := h.self.toTagged
  element := by
    intro hkind
    have htags := h.self.element hkind
    have hne : n.children ≠ [] := by
      intro hnil
      have hfirst := htags.first
      rw [hnil] at hfirst
      cases hfirst
    exact ⟨text_of_children_ne_nil hdrawn hne, htags, fun c hc => (h.child hc).self.leading,
      h.self.trailing⟩

theorem content_subset (n : Node) : n.content ⊆ n.children := by
  unfold Node.content
  split
  · exact ((List.drop_sublist _ _).trans (List.take_sublist _ _)).subset
  · exact List.nil_subset _

/-- What edits of content take from it. -/
theorem framed (h : n.Throughout Grammatical) : Framed n where
  tags := h.self.element
  blank := fun c hc => (h.child (content_subset n hc)).self.leading
  name := by
    intro hkind c hc hfield
    have hname := (h.self.name (by rw [hkind]; rfl) c hc hfield).2
    refine Bool.eq_false_iff.mpr fun hends => ?_
    rw [kind_of_endsTag hends] at hname
    exact absurd hname (by decide)

/-! ## Where elements start -/

theorem size_front_cons {i : Nat} {c : Node} {path : Path} (hc : n.children[i]? = some c) :
    byteSize (n.front (i :: path)).toList = byteSize n.leading.toList +
      byteSize (n.text.getD "").toList + byteSize (Node.bodies (n.children.take i)).toList +
        byteSize (c.front path).toList := by
  rw [Node.front_cons hc]
  simp only [String.toList_append, byteSize_append, Nat.add_assoc]

theorem size_full (n : Node) : byteSize n.full.toList =
    byteSize n.leading.toList + byteSize n.body.toList := by
  rw [Node.full, String.toList_append, byteSize_append]

/-- Behind the first child of a node stands more than the child prints. -/
theorem size_take_pos {i : Nat} {c : Node} (hc : n.children.head? = some c)
    (hbody : 0 < byteSize c.body.toList) :
    0 < byteSize (Node.bodies (n.children.take (i + 1))).toList := by
  obtain ⟨rest, hchildren⟩ := List.head?_eq_some_iff.mp hc
  rw [hchildren, List.take_succ_cons, Node.bodies_cons, String.toList_append, byteSize_append,
    size_full]
  omega

/-- In front of a later child stands all that an earlier one prints. -/
theorem size_take_le {l : List Node} {i j : Nat} {c : Node} (hc : l[i]? = some c) (hij : i < j) :
    byteSize (Node.bodies (l.take i)).toList + byteSize c.full.toList ≤
      byteSize (Node.bodies (l.take j)).toList := by
  have hsplit := Node.bodies_split (l := l.take j) (i := i) (n := c) (by
    rwa [List.getElem?_take_of_lt hij])
  rw [List.take_take, Nat.min_eq_left (Nat.le_of_lt hij)] at hsplit
  rw [hsplit]
  simp only [String.toList_append, byteSize_append]
  omega

/-- What a node prints is at least what its first child prints. -/
theorem size_body_of_head {c : Node} (hc : n.children.head? = some c) :
    byteSize c.body.toList ≤ byteSize n.body.toList := by
  obtain ⟨rest, hchildren⟩ := List.head?_eq_some_iff.mp hc
  rw [Node.body_eq n, hchildren, Node.bodies_cons]
  simp only [String.toList_append, byteSize_append, size_full]
  omega

/-- The mark at the start of a tag. -/
theorem exists_mark (h : o.Throughout Grammatical) (hkind : o.kind.isOpening = true) :
    ∃ mark, o.children.head? = some mark ∧ mark.kind = .token ∧ mark.children = [] ∧
      0 < byteSize mark.body.toList := by
  obtain ⟨mark, hmark, htoken⟩ := (Option.any_eq_true _ _).mp (h.self.mark hkind)
  obtain ⟨htokenKind, htext⟩ := Node.isToken_iff.mp htoken
  have hleaf := (h.child (List.mem_of_head? hmark)).self.lexeme (.inl htokenKind)
  refine ⟨mark, hmark, htokenKind, hleaf, ?_⟩
  rw [Node.body_eq, htext, Option.getD_some, String.toList_append, byteSize_append]
  exact Nat.lt_of_lt_of_le (by decide : 0 < byteSize "<".toList) (Nat.le_add_right _ _)

/-- An element in a tag starts behind the mark of the tag. -/
theorem size_front_of_opening {i : Nat} {path : Path} (h : o.Throughout Grammatical)
    (hkind : o.kind.isOpening = true) (hn : o.get (i :: path) = some n)
    (helement : n.kind.isElement = true) :
    byteSize o.leading.toList < byteSize (o.front (i :: path)).toList := by
  obtain ⟨mark, hmark, htoken, hleaf, hsize⟩ := exists_mark h hkind
  obtain ⟨c, hc, hn⟩ := Node.get_cons_eq_some hn
  rw [size_front_cons hc]
  cases i with
  | zero =>
    -- nothing is in the mark, and it is no element
    rw [← List.head?_eq_getElem?, hmark, Option.some.injEq] at hc
    subst hc
    cases path with
    | nil =>
      cases hn
      rw [htoken] at helement
      cases helement
    | cons j path =>
      obtain ⟨d, hd, -⟩ := Node.get_cons_eq_some hn
      rw [hleaf] at hd
      cases hd
  | succ i =>
    have hpos := size_take_pos (i := i) hmark hsize
    omega

/-- The node at the start of an element: its tag, or the mark of its tag. -/
theorem exists_opening (h : m.Throughout Grammatical) (helement : m.kind = .jsxElement) :
    ∃ tag, m.children.head? = some tag ∧ tag.kind = .jsxOpeningElement ∧
      tag.Throughout Grammatical ∧ 0 < byteSize tag.body.toList := by
  obtain ⟨tag, htag, hkind⟩ := (Option.any_eq_true _ _).mp (h.self.element helement).first
  have hkind := beq_iff_eq.mp hkind
  have hbelow := h.child (List.mem_of_head? htag)
  obtain ⟨mark, hmark, -, -, hsize⟩ := exists_mark hbelow (by rw [hkind]; rfl)
  exact ⟨tag, htag, hkind, hbelow, Nat.lt_of_lt_of_le hsize (size_body_of_head hmark)⟩

theorem kind_of_isElement (h : m.kind.isElement = true) :
    m.kind = .jsxElement ∨ m.kind = .jsxSelfClosingElement := by
  cases hkind : m.kind <;> rw [hkind] at h <;> first | exact .inl rfl | exact .inr rfl | cases h

/-- **An element in an element starts behind it.** -/
theorem size_front_of_element {i : Nat} {path : Path} (h : m.Throughout Grammatical)
    (hkind : m.kind.isElement = true) (hn : m.get (i :: path) = some n)
    (helement : n.kind.isElement = true) :
    byteSize m.leading.toList < byteSize (m.front (i :: path)).toList := by
  rcases kind_of_isElement hkind with hkind | hkind
  · obtain ⟨tag, htag, htagKind, hbelow, hsize⟩ := exists_opening h hkind
    obtain ⟨c, hc, hn⟩ := Node.get_cons_eq_some hn
    rw [size_front_cons hc]
    cases i with
    | zero =>
      rw [← List.head?_eq_getElem?, htag, Option.some.injEq] at hc
      subst hc
      cases path with
      | nil =>
        cases hn
        rw [htagKind] at helement
        cases helement
      | cons j path =>
        have hinside := size_front_of_opening hbelow (by rw [htagKind]; rfl) hn helement
        omega
    | succ i =>
      have hpos := size_take_pos (i := i) htag hsize
      omega
  · exact size_front_of_opening h (by rw [hkind]; rfl) hn helement

/-- An element prints something. -/
theorem size_body_pos (h : m.Throughout Grammatical) (hkind : m.kind.isElement = true) :
    0 < byteSize m.body.toList := by
  rcases kind_of_isElement hkind with hkind | hkind
  · obtain ⟨tag, htag, -, -, hsize⟩ := exists_opening h hkind
    exact Nat.lt_of_lt_of_le hsize (size_body_of_head htag)
  · obtain ⟨mark, hmark, -, -, hsize⟩ := exists_mark h (by rw [hkind]; rfl)
    exact Nat.lt_of_lt_of_le hsize (size_body_of_head hmark)

/-- **An element starts behind those in front of it** in the order of the document. -/
theorem byteSize_front_lt {root : Node} {p q : Path} (h : root.Throughout Grammatical)
    (hm : root.get p = some m) (hn : root.get q = some n) (hkind : m.kind.isElement = true)
    (helement : n.kind.isElement = true) (hlt : p.order q = .lt) :
    byteSize (root.front p ++ m.leading).toList < byteSize (root.front q ++ n.leading).toList := by
  rw [String.toList_append, String.toList_append, byteSize_append, byteSize_append]
  induction p generalizing root q with
  | nil =>
    cases q with
    | nil => cases hlt
    | cons j q =>
      -- the first element is all of the tree, so the second is in it
      cases hm
      have hinside := size_front_of_element h hkind hn helement
      rw [Node.front_nil, String.toList_empty, byteSize_nil]
      omega
  | cons i p ih =>
    cases q with
    | nil => cases hlt
    | cons j q =>
      obtain ⟨c, hc, hm⟩ := Node.get_cons_eq_some hm
      obtain ⟨d, hd, hn⟩ := Node.get_cons_eq_some hn
      rw [size_front_cons hc, size_front_cons hd]
      rw [Path.order] at hlt
      rcases Nat.lt_trichotomy i j with hij | rfl | hij
      · -- all of the first element is in front of the child that holds the second
        have hbody := size_body_pos ((h.child (List.mem_of_getElem? hc)).get hm) hkind
        have htake := size_take_le hc hij
        rw [Node.full_of_get hm] at htake
        simp only [String.toList_append, byteSize_append, size_full] at htake
        omega
      · obtain rfl : c = d := Option.some.inj (hc.symm.trans hd)
        rw [Nat.compare_eq_eq.mpr rfl] at hlt
        have hrest := ih (h.child (List.mem_of_getElem? hc)) hm hn hlt
        omega
      · rw [Nat.compare_eq_gt.mpr hij] at hlt
        cases hlt

/-- **Each element covers some text, and no two start at the same byte.** -/
theorem elementsApart (hread : tree.ReadFrom source) (h : tree.root.Throughout Grammatical) :
    ElementsApart tree := by
  obtain ⟨language, outline, hplaced, hconvert⟩ := hread
  -- where a node starts, and how much it prints
  have hstart : ∀ path n, tree.get path = some n → ∃ span, n.span = some span ∧
      byteSize tree.before.toList + byteSize (tree.root.front path ++ n.leading).toList =
        span.startByte ∧ byteSize n.body.toList = span.endByte - span.startByte := by
    intro path n hn
    obtain ⟨span, hspan, hfirst, hlast, hle, hbody, hfront, -⟩ := slices_of_get hplaced hconvert hn
    refine ⟨span, hspan, ?_, ?_⟩
    · rw [SourceTree.front, String.append_assoc] at hfront
      rw [← byteSize_append, ← String.toList_append, hfront,
        byteSize_slice (isBoundary_zero _) hfirst (Nat.zero_le _), Nat.sub_zero]
    · rw [hbody, byteSize_slice hfirst hlast hle]
  constructor
  · intro found hfound hkind span hspan
    have hget := (get_of_mem_preorder hfound).1
    obtain ⟨_, hspan', -, hsize⟩ := hstart _ _ hget
    cases hspan'.symm.trans hspan
    have hpos := size_body_pos (h.get hget) hkind
    omega
  · refine (pairwise_preorder tree.root Place.root).imp_of_mem
      fun {f g} hf hg hbefore hkind hkind' => ?_
    have hgetF := (get_of_mem_preorder hf).1
    have hgetG := (get_of_mem_preorder hg).1
    obtain ⟨spanF, hspanF, hstartF, -⟩ := hstart _ _ hgetF
    obtain ⟨spanG, hspanG, hstartG, -⟩ := hstart _ _ hgetG
    have hlt := byteSize_front_lt h hgetF hgetG hkind hkind' hbefore
    rw [hspanF, hspanG, Option.map_some, Option.map_some, ne_eq, Option.some.injEq]
    omega

/-! ## Trees of texts -/

/-- **One condition on the nodes of a tree that was read is enough**: for printing, for editing, for
snippets and for telling elements by their places. -/
theorem read_grammatical (hread : tree.ReadFrom source) (h : tree.root.Throughout Grammatical) :
    tree.root.Throughout Shaped ∧ tree.root.OrderlyBelow ∧ tree.root.Throughout Node.WellTagged ∧
      tree.root.Throughout Framed ∧ ElementsApart tree := by
  have hdrawn := hread.drawn
  exact ⟨fun path n hn => (h path n hn).shaped (hdrawn path n hn),
    fun path n hn => (h path n hn).orderly (hdrawn path n hn),
    fun path n hn => wellTagged (h.get hn) (hdrawn path n hn), fun path n hn => framed (h.get hn),
    elementsApart hread h⟩

example : sharedTree.root.Throughout Grammatical := .of_preorder (by decide +kernel)

/-- So it is for the tree of a text that was parsed. -/
theorem parse_grammatical {language : Language} (hparse : Tree.parse source language = .ok tree)
    (h : tree.root.Throughout Grammatical) :
    tree.root.Throughout Shaped ∧ tree.root.OrderlyBelow ∧ tree.root.Throughout Node.WellTagged ∧
      tree.root.Throughout Framed ∧ ElementsApart tree :=
  read_grammatical (SourceTree.readFrom_of_parse hparse) h

end MarkupEdit.Edit
