import MarkupEdit.Proofs.Print.Ink
import MarkupEdit.Proofs.Tree.Conversion
import MarkupEdit.Proofs.Text.Trimming
import MarkupEdit.Text.Ascii
import MarkupEdit.Tree.Snippet

/-!
# Snippets stay in their fragment

A snippet is put between the tags of a fragment, and it may try to close that fragment, start a comment
or go on with a statement. It is only accepted if one fragment is all of the text, and then its nodes
are all of the snippet, but for blanks at its end.

* `Node.WellTagged`, `ReadsTags`: what the grammar says of tags, as far as reading snippets relies on it.
* `eq_of_between_tags`: a fragment is opened and closed by the tags that were put there.
* `bodies_of_readSnippet`: **nothing of a snippet is lost.**
* `readSnippet_whole`: and its nodes have no spans.
* `exists_not_isBlankText`: a snippet holds more than blank text.
-/

namespace MarkupEdit.Tree

open MarkupEdit.Text MarkupEdit.Print

variable {n fragment : Node} {s front back inside : List Char}
  {reader : String → Except SyntaxFault SourceTree} {snippet : String} {nodes : List Node}

/-! ## Nodes without spans -/

mutual

theorem body_detached (n : Node) : n.detached.body = n.body := by
  match n with
  | ⟨kind, field, span, leading, text, children, trailing⟩ =>
    rw [Node.detached, Node.body, Node.body, bodies_detachedAll children]

theorem bodies_detachedAll (l : List Node) : Node.bodies (Node.detachedAll l) = Node.bodies l := by
  match l with
  | [] => rfl
  | n :: rest =>
    have hleading : n.detached.leading = n.leading := by
      cases n
      rfl
    rw [Node.detachedAll, Node.bodies_cons, Node.bodies_cons, Node.full, Node.full, hleading,
      body_detached n, bodies_detachedAll rest]

end

theorem detachedAll_eq_map (l : List Node) : Node.detachedAll l = l.map Node.detached := by
  induction l with
  | nil => rfl
  | cons n rest ih => rw [Node.detachedAll, List.map_cons, ih]

theorem children_detached (n : Node) : n.detached.children = n.children.map Node.detached := by
  cases n
  exact detachedAll_eq_map _

theorem span_detached (n : Node) : n.detached.span = none := by
  cases n
  rfl

/-- Nothing in such a node has a span. -/
theorem throughout_detached (n : Node) : n.detached.Throughout (·.span = none) := by
  refine .intro (span_detached n) fun c hc => ?_
  rw [children_detached] at hc
  obtain ⟨child, hchild, rfl⟩ := List.mem_map.mp hc
  have := List.sizeOf_lt_of_mem hchild
  have := sizeOf_children_lt n
  exact throughout_detached child
termination_by sizeOf n
decreasing_by omega

/-! ## Tags -/

/-- What stands between two texts at the ends of another. -/
def between? (front back s : List Char) : Option (List Char) :=
  (dropStart? front s).bind (dropEnd? back)

theorem between?_eq_some (h : between? front back s = some inside) :
    s = front ++ (inside ++ back) := by
  obtain ⟨rest, hrest, hinside⟩ := Option.bind_eq_some_iff.mp h
  rw [dropStart?_eq_some_iff.mp hrest, dropEnd?_eq_some_iff.mp hinside]

/-- What the grammar says of what stands between the marks of a tag. -/
structure Node.Tagged (n : Node) : Prop where
  /-- A tag without a name holds at most comments. -/
  opening : n.kind = .jsxOpeningElement → (n.childByField? "name").isNone = true →
    (between? ['<'] ['>'] n.body.toList).any (·.head? != some '>') = true
  /-- A tag that closes an element ends with its name or with a comment. -/
  closing : n.kind = .jsxClosingElement →
    (between? ['<', '/'] ['>'] n.body.toList).any (fun inside => !List.isSuffixOf ['<', '/'] inside) = true

/-- What the grammar says of tags, as far as reading snippets relies on it. -/
structure Node.WellTagged (n : Node) : Prop extends Tagged n where
  /-- Elements are between two tags, with blanks in front of what is in them. -/
  element : n.kind = .jsxElement → n.text = none ∧
    Enclosed (·.kind == .jsxOpeningElement) (·.kind == .jsxClosingElement) n.children ∧
    (∀ c ∈ n.children, allBlank c.leading = true) ∧ allBlank n.trailing = true

/-- A reader gives a snippet in its fragment as a tree with tags as the grammar says, if it reads it at
all. -/
def ReadsTags (reader : String → Except SyntaxFault SourceTree) (snippet : String) : Prop :=
  ∀ tree, reader ("<>" ++ snippet ++ "</>;") = .ok tree → tree.root.Throughout Node.WellTagged

instance (n : Node) : Decidable n.Tagged :=
  decidable_of_iff
    ((n.kind = .jsxOpeningElement → (n.childByField? "name").isNone = true →
        (between? ['<'] ['>'] n.body.toList).any (·.head? != some '>') = true) ∧
      (n.kind = .jsxClosingElement →
        (between? ['<', '/'] ['>'] n.body.toList).any
          (fun inside => !List.isSuffixOf ['<', '/'] inside) = true))
    ⟨fun ⟨h₁, h₂⟩ => ⟨h₁, h₂⟩, fun h => ⟨h.opening, h.closing⟩⟩

instance (n : Node) : Decidable n.WellTagged :=
  decidable_of_iff
    (n.Tagged ∧ (n.kind = .jsxElement → n.text = none ∧
      Enclosed (·.kind == .jsxOpeningElement) (·.kind == .jsxClosingElement) n.children ∧
      (∀ c ∈ n.children, allBlank c.leading = true) ∧ allBlank n.trailing = true))
    ⟨fun ⟨h₁, h₂⟩ => ⟨h₁, h₂⟩, fun h => ⟨h.toTagged, h.element⟩⟩

/-- What stands in a tag without a name does not end the tag. -/
theorem Node.WellTagged.exists_opening (h : n.WellTagged) (hkind : n.kind = .jsxOpeningElement)
    (hname : (n.childByField? "name").isNone = true) :
    ∃ inside, n.body.toList = ['<'] ++ (inside ++ ['>']) ∧ inside.head? ≠ some '>' := by
  obtain ⟨inside, hinside, hhead⟩ := (Option.any_eq_true _ _).mp (h.opening hkind hname)
  exact ⟨inside, between?_eq_some hinside, bne_iff_ne.mp hhead⟩

/-- What stands in a closing tag does not begin another. -/
theorem Node.WellTagged.exists_closing (h : n.WellTagged) (hkind : n.kind = .jsxClosingElement) :
    ∃ inside, n.body.toList = ['<', '/'] ++ (inside ++ ['>']) ∧ ¬ ['<', '/'] <:+ inside := by
  obtain ⟨inside, hinside, hend⟩ := (Option.any_eq_true _ _).mp (h.closing hkind)
  refine ⟨inside, between?_eq_some hinside, fun hsuffix => ?_⟩
  rw [List.isSuffixOf_iff_suffix.mpr hsuffix] at hend
  cases hend

/-- **A fragment is opened and closed by the tags that were put there.** Whatever stands between its
tags is what was put between `<>` and `</>`. -/
theorem eq_of_between_tags {blank blank' inside inside' content snippet : List Char}
    (hblank : AllBlank blank) (hbehind : AllBlank blank') (hinside : inside.head? ≠ some '>')
    (hinside' : ¬ ['<', '/'] <:+ inside')
    (h : blank ++ (['<'] ++ (inside ++ ['>']) ++
        (content ++ (['<', '/'] ++ (inside' ++ ['>']) ++ blank'))) =
      ['<', '>'] ++ (snippet ++ ['<', '/', '>'])) : content = snippet := by
  -- nothing is in front of the opening tag, in it or behind the closing tag
  have hfront : blank = [] := by
    cases blank with
    | nil => rfl
    | cons c rest =>
      obtain ⟨rfl, -⟩ := List.cons.inj h
      exact absurd (hblank '<' List.mem_cons_self) (by decide)
  subst hfront
  have hopening : inside = [] := by
    cases inside with
    | nil => rfl
    | cons c rest =>
      obtain ⟨rfl, -⟩ := List.cons.inj (List.cons.inj h).2
      exact absurd rfl hinside
  subst hopening
  have hback : blank' = [] := by
    rcases List.eq_nil_or_concat blank' with hnil | ⟨rest, c, rfl⟩
    · exact hnil
    · have hmarks : ('<' :: '>' :: (content ++ '<' :: '/' :: (inside' ++ '>' :: rest))) ++ [c] =
          ('<' :: '>' :: (snippet ++ ['<', '/'])) ++ ['>'] := by simpa using h
      obtain ⟨rfl, -⟩ := List.cons.inj (List.append_inj' hmarks rfl).2
      exact absurd (hbehind '>' (by simp)) (by decide)
  subst hback
  have hends : (content ++ ['<', '/']) ++ inside' = snippet ++ ['<', '/'] := by
    have hmarks : ((content ++ ['<', '/']) ++ inside') ++ ['>'] =
        (snippet ++ ['<', '/']) ++ ['>'] := by simpa using h
    exact List.append_cancel_right hmarks
  -- the closing tag does not begin in front of the one that was put there
  rcases List.append_eq_append_iff.mp hends with ⟨rest, -, hrest⟩ | ⟨rest, hcontent, hrest⟩
  · exact absurd ⟨rest, hrest.symm⟩ hinside'
  match rest, hrest with
  | [], hrest => exact absurd (hrest ▸ List.suffix_refl _) hinside'
  | [c], hrest =>
    obtain ⟨rfl, -⟩ := List.cons.inj hrest
    have hlast := congrArg List.getLast? hcontent
    simp at hlast
  | [c, d], hrest =>
    obtain ⟨rfl, hrest⟩ := List.cons.inj (List.cons.inj hrest).2
    obtain ⟨rfl, -⟩ := List.cons.inj hrest
    exact List.append_cancel_right hcontent
  | c :: d :: e :: rest, hrest => simp at hrest

/-! ## What is read -/

theorem exists_of_singleFragment? {root : Node} {expected : String}
    (h : singleFragment? root expected = some fragment) :
    ∃ path opening, root.get path = some fragment ∧ fragment.kind = .jsxElement ∧
      fragment.childOfKind? .jsxOpeningElement = some opening ∧
      (opening.childByField? "name").isNone = true ∧ fragment.body = expected := by
  unfold singleFragment? at h
  split at h
  · next statement hstatement =>
    split at h
    · cases h
    · next hexpression =>
      split at h
      · cases h
      · next opening hopening =>
        obtain ⟨hwhole, hsome⟩ := Option.ite_none_right_eq_some.mp h
        cases hsome
        simp only [Bool.and_eq_true, beq_iff_eq] at hwhole
        have hstatement : statement ∈ root.children :=
          (List.mem_filter.mp (hstatement ▸ List.mem_singleton_self statement)).1
        have hexpression : fragment ∈ statement.children :=
          (List.mem_filter.mp (List.mem_of_mem_head? hexpression)).1
        obtain ⟨i, hi⟩ := List.getElem?_of_mem hstatement
        obtain ⟨j, hj⟩ := List.getElem?_of_mem hexpression
        refine ⟨[i, j], opening, ?_, hwhole.1.1, hopening, hwhole.1.2, hwhole.2⟩
        rw [Node.get, hi]
        exact Node.get_cons hj
  · cases h

/-- The nodes that are read are those between the tags of a fragment. -/
theorem readSnippet_eq_ok (h : readSnippet reader snippet = .ok nodes) :
    allBlank snippet = false ∧ ∃ tree fragment, reader ("<>" ++ snippet ++ "</>;") = .ok tree ∧
      singleFragment? tree.root ("<>" ++ snippet ++ "</>") = some fragment ∧
      nodes = (fragment.children.filter (fun child =>
        child.kind != .jsxOpeningElement && child.kind != .jsxClosingElement)).map Node.detached := by
  unfold readSnippet at h
  split at h
  · cases h
  next hblank =>
  refine ⟨Bool.eq_false_iff.mpr hblank, ?_⟩
  split at h
  · cases h
  next tree htree =>
  split at h
  · cases h
  next fragment hfragment =>
  dsimp only at h
  split at h
  · cases h
  · cases h
    exact ⟨tree, fragment, htree, hfragment, rfl⟩

/-- **Nothing of a snippet is lost**, but for blanks at its end. -/
theorem bodies_of_readSnippet (hreader : ReadsTags reader snippet)
    (h : readSnippet reader snippet = .ok nodes) :
    ∃ blank, allBlank blank = true ∧ Node.bodies nodes ++ blank = snippet := by
  obtain ⟨-, tree, fragment, htree, hfragment, rfl⟩ := readSnippet_eq_ok h
  obtain ⟨path, opening, hget, hkind, hopening, hname, hbody⟩ := exists_of_singleFragment? hfragment
  have hregular := (hreader tree htree).get hget
  obtain ⟨htext, henclosed, hleading, htrailing⟩ := hregular.self.element hkind
  obtain ⟨front, body, back, hchildren, hfront, hback, hinner⟩ := henclosed.split fun c hc => by
    rw [beq_iff_eq.mp hc]
    rfl
  have hfirst : front = opening := by
    rw [Node.childOfKind?, hchildren, List.find?_cons, hfront] at hopening
    exact Option.some.inj hopening
  subst hfirst
  have hmemFront : front ∈ fragment.children := by
    rw [hchildren]
    exact List.mem_cons_self
  have hmemBack : back ∈ fragment.children := by
    rw [hchildren]
    simp
  obtain ⟨inside, hopens, hinside⟩ :=
    (hregular.child hmemFront).self.exists_opening (beq_iff_eq.mp hfront) hname
  obtain ⟨inside', hcloses, hinside'⟩ :=
    (hregular.child hmemBack).self.exists_closing (beq_iff_eq.mp hback)
  have hall : (Node.bodies body ++ back.leading).toList = snippet.toList := by
    refine eq_of_between_tags (allBlank_iff.mp (hleading front hmemFront)) (allBlank_iff.mp htrailing)
      hinside hinside' ?_
    have hlist := congrArg String.toList hbody
    rw [Node.body_eq, htext, hchildren, Node.bodies_cons, Node.bodies_append, Node.bodies_cons,
      Node.full, Node.full] at hlist
    simp only [Option.getD_none, String.toList_append, hopens, hcloses, Node.bodies,
      List.append_assoc] at hlist ⊢
    exact hlist
  refine ⟨back.leading, hleading back hmemBack, ?_⟩
  rw [hchildren, filter_between_tags hfront hinner hback, ← detachedAll_eq_map, bodies_detachedAll]
  exact String.toList_inj.mp hall

/-- **Snippets stay in their fragment and lose nothing.** Whatever reads whole texts, if it gives tags as
the grammar says, the nodes of a snippet that is accepted are all of the snippet, but for blanks at its
end, and none of them has a span, nor has anything in them. -/
theorem readSnippet_whole (reader : String → Except SyntaxFault SourceTree) (snippet : String)
    (nodes : List Node) (hreader : ReadsTags reader snippet)
    (h : readSnippet reader snippet = .ok nodes) :
    (∃ blank, allBlank blank = true ∧ Node.bodies nodes ++ blank = snippet) ∧
      ∀ n ∈ nodes, n.Throughout (·.span = none) := by
  refine ⟨bodies_of_readSnippet hreader h, ?_⟩
  obtain ⟨-, tree, fragment, -, -, rfl⟩ := readSnippet_eq_ok h
  intro n hn
  obtain ⟨child, -, rfl⟩ := List.mem_map.mp hn
  exact throughout_detached child

/-! ## What there is in a snippet -/

/-- What is known of a reader of whole texts: its trees are read from the texts, and their tags are as
the grammar says. -/
structure Reliable (reader : String → Except SyntaxFault SourceTree) : Prop where
  lossless : ∀ text tree, reader text = .ok tree → tree.ReadFrom text
  tags : ∀ snippet, ReadsTags reader snippet

theorem isBlankText_detached (n : Node) : n.detached.isBlankText = n.isBlankText := by
  cases n
  rfl

theorem allBlank_append (s t : String) : allBlank (s ++ t) = (allBlank s && allBlank t) := by
  rw [allBlank, String.toList_append, List.all_append]
  rfl

theorem allBlank_bodies (h : ∀ n ∈ nodes, allBlank n.full = true) :
    allBlank (Node.bodies nodes) = true := by
  induction nodes with
  | nil => rfl
  | cons n rest ih =>
    rw [Node.bodies_cons, allBlank_append, h n List.mem_cons_self,
      ih fun m hm => h m (List.mem_cons_of_mem _ hm)]
    rfl

/-- A blank text with blanks in front of it prints blanks only, if it is a leaf. -/
theorem allBlank_full (hleading : allBlank n.leading = true) (hblank : n.isBlankText = true)
    (hdrawn : Drawn n) : allBlank n.full = true := by
  rw [Node.isBlankText, Bool.and_eq_true] at hblank
  cases htext : n.text with
  | none =>
    rw [htext] at hblank
    cases hblank.2
  | some text =>
    rw [htext] at hblank
    obtain ⟨hchildren, htrailing⟩ := hdrawn.leaf (by simp [htext])
    rw [Node.full, Node.body_eq, htext, hchildren, htrailing, allBlank_append, allBlank_append,
      hleading, Option.getD_some]
    exact Bool.and_eq_true_iff.mpr ⟨rfl, Bool.and_eq_true_iff.mpr ⟨hblank.2, rfl⟩⟩

/-- **A snippet holds more than blank text.** -/
theorem exists_not_isBlankText (hreader : Reliable reader)
    (h : readSnippet reader snippet = .ok nodes) : ∃ n ∈ nodes, n.isBlankText = false := by
  by_contra hnone
  have hblank : ∀ n ∈ nodes, n.isBlankText = true := by simpa using hnone
  obtain ⟨blank, hend, hwhole⟩ := bodies_of_readSnippet (hreader.tags snippet) h
  obtain ⟨hinked, tree, fragment, htree, hfragment, rfl⟩ := readSnippet_eq_ok h
  obtain ⟨path, -, hget, hkind, -⟩ := exists_of_singleFragment? hfragment
  obtain ⟨-, -, hleading, -⟩ := ((hreader.tags snippet tree htree).get hget).self.element hkind
  -- blank texts print nothing else, so the whole snippet is blank
  have hbodies : allBlank (Node.bodies ((fragment.children.filter (fun child =>
      child.kind != .jsxOpeningElement && child.kind != .jsxClosingElement)).map
        Node.detached)) = true := by
    rw [← detachedAll_eq_map, bodies_detachedAll]
    refine allBlank_bodies fun child hchild => ?_
    have hmem := (List.mem_filter.mp hchild).1
    have htext := hblank child.detached (List.mem_map_of_mem hchild)
    rw [isBlankText_detached] at htext
    have hdrawn := ((hreader.lossless _ tree htree).drawn.get hget).child hmem
    exact allBlank_full (hleading child hmem) htext hdrawn.self
  rw [← hwhole, allBlank_append, hbodies, hend] at hinked
  cases hinked

/-! ## A snippet -/

/-- Text, an element and a line break. -/
def noteSnippet : String := "a <b/>\n"

/-- `noteSnippet` in its fragment. -/
def noteText : String := "<>" ++ noteSnippet ++ "</>;"

/-- The nodes of `noteText`. -/
def noteNode : Node :=
  Sketch.program [Sketch.statement (.branch .jsxElement
    [Sketch.openingTag "" [], .markupText "a ", Sketch.bareTag "b" [],
      (Sketch.closingTag "").withLeading "\n"])]

/-- The tree of `noteText`. -/
def noteTree : SourceTree := .sketch noteText noteNode

/-- A reader that knows one text. -/
def noteReader (text : String) : Except SyntaxFault SourceTree :=
  if text = noteText then .ok noteTree else .error (.malformed .tsx [])

theorem readFrom_noteText : noteTree.ReadFrom noteText := readFrom_sketch (by decide) (by decide)

theorem reliable_noteReader : Reliable noteReader := by
  have hread : ∀ text tree, noteReader text = .ok tree → text = noteText ∧ tree = noteTree := by
    intro text tree htree
    unfold noteReader at htree
    split at htree
    · next htext => exact ⟨htext, (Except.ok.inj htree).symm⟩
    · cases htree
  constructor
  · intro text tree htree
    obtain ⟨rfl, rfl⟩ := hread text tree htree
    exact readFrom_noteText
  · intro snippet tree htree
    obtain ⟨-, rfl⟩ := hread _ tree htree
    exact .of_preorder (by decide +kernel)

theorem readSnippet_whole_note :
    noteTree.ReadFrom noteText ∧ ReadsTags noteReader noteSnippet ∧
      ∃ nodes, readSnippet noteReader noteSnippet = .ok nodes ∧
        (∃ blank, allBlank blank = true ∧ Node.bodies nodes ++ blank = noteSnippet) ∧
        ∀ n ∈ nodes, n.Throughout (·.span = none) := by
  have hreader : ReadsTags noteReader noteSnippet := reliable_noteReader.tags noteSnippet
  have hnodes : readSnippet noteReader noteSnippet = .ok
      [.leaf .jsxText "a ",
        .branch .jsxSelfClosingElement
          [.token "<", (Node.leaf .identifier "b").withField "name", .token "/>"]] := by rfl
  exact ⟨readFrom_noteText, hreader, _, hnodes,
    readSnippet_whole noteReader noteSnippet _ hreader hnodes⟩

end MarkupEdit.Tree
