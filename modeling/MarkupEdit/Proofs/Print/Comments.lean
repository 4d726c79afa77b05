import MarkupEdit.Proofs.Print.Code

/-!
# The comments in a pretty printed tree

Pretty printing leaves trivia out and keeps comments, but it goes right to the element that a statement
returns. The comments in front of the element are lost then, and so are those that stand beside it in its
parentheses. All others are written at their places, at most without the blanks at their ends.

* `OccurIn`: texts that occur one behind the other.
* `comments_lexemes`: the comments of a node are those that are written and those that are passed over.
* `Undisturbed`, `allWritten_lexemes`: **comments are passed over only beside a returned element.**
* `pretty_keeps_comments`: **all other comments are in the text, in the order of the document.**
* `pretty_drops_comment`: a comment in front of a returned element is lost.
-/

namespace MarkupEdit.Print

open MarkupEdit.Text MarkupEdit.Tree

variable {n c : Node} {l : List Node} {s : Setting}

/-! ## Texts that occur -/

/-- The texts occur one behind the other. -/
def OccurIn : List (List Char) → List Char → Prop
  | [], _ => True
  | t :: ts, s => ∃ front behind, s = front ++ (t ++ behind) ∧ OccurIn ts behind

variable {ts us : List String} {texts : List (List Char)} {r t : List Char}

theorem OccurIn.append (h : OccurIn texts r) (t : List Char) : OccurIn texts (r ++ t) := by
  induction texts generalizing r with
  | nil => trivial
  | cons u texts ih =>
    obtain ⟨front, behind, rfl, hbehind⟩ := h
    exact ⟨front, behind ++ t, by simp only [List.append_assoc], ih hbehind⟩

theorem OccurIn.concat (h : OccurIn texts r) (t : List Char) : OccurIn (texts ++ [t]) (r ++ t) := by
  induction texts generalizing r with
  | nil => exact ⟨r, [], by rw [List.append_nil], trivial⟩
  | cons u texts ih =>
    obtain ⟨front, behind, rfl, hbehind⟩ := h
    exact ⟨front, behind ++ t, by simp only [List.append_assoc], ih hbehind⟩

/-- Texts that are laid out occur one behind the other, all of them or some. -/
theorem Laid.occurIn (h : Laid ts r) (hus : us.Sublist ts) :
    OccurIn (us.map fun u => dropBlankEnd u.toList) r := by
  induction h generalizing us with
  | nil =>
    rw [List.sublist_nil.mp hus]
    trivial
  | blank _ _ ih => exact (ih hus).append _
  | text _ t ih =>
    obtain ⟨us₁, us₂, rfl, hus₁, hus₂⟩ := List.sublist_append_iff.mp hus
    rcases List.sublist_singleton.mp hus₂ with rfl | rfl
    · rw [List.append_nil]
      exact (ih hus₁).append _
    · rw [List.map_append]
      exact (ih hus₁).concat _

/-! ## Comments -/

/-- The texts of the comments in a node, in the order of the document. -/
def commentsOf (n : Node) : List String :=
  (preorder n Place.root).filterMap fun found =>
    if found.node.kind == .comment then found.node.text else none

/-- The comments that are written. -/
def keptComments (l : List Lexeme) : List String := (l.filter (·.role == .comment)).map Lexeme.text

/-- All comments, those that are passed over among them. -/
def allComments (l : List Lexeme) : List String :=
  (l.filter fun x => x.role == .comment || x.role == .passedOver).map Lexeme.text

/-- A leaf that is a comment. -/
def commentText? (leaf : String × Bool) : Option String := if leaf.2 then some leaf.1 else none

theorem allComments_eq (l : List Lexeme) : allComments l = (ofSource l).filterMap commentText? := by
  induction l with
  | nil => rfl
  | cons x l ih =>
    have hcons : ofSource (x :: l) = ofSource [x] ++ ofSource l := ofSource_append [x] l
    have hall : allComments (x :: l) = allComments [x] ++ allComments l := by
      rw [allComments, ← List.singleton_append, List.filter_append, List.map_append]
      rfl
    rw [hcons, hall, ih, List.filterMap_append]
    congr 1
    obtain ⟨text, role⟩ := x
    cases role <;> rfl

/-- **The comments of a node are those that are written and those that are passed over.** -/
theorem comments_lexemes (s : Setting) (h : n.Throughout Shaped) :
    allComments (lexemes s n) = commentsOf n := by
  rw [allComments_eq, source_lexemes s n Place.root h, List.filterMap_filterMap, commentsOf]
  refine List.filterMap_congr fun found _ => ?_
  rw [leaf?]
  cases found.node.text with
  | none => rw [Option.map_none, ite_self, Option.bind_none]
  | some text => rfl

/-- Only the comments that are passed over are not written. -/
theorem keptComments_sublist (l : List Lexeme) : (keptComments l).Sublist (writtenTexts l) := by
  refine List.Sublist.map _ (List.monotone_filter_right l fun x hx => ?_)
  rw [beq_iff_eq.mp hx]
  rfl

/-! ## Returned elements without comments beside them -/

/-- The comments beside what a statement returns: in front of it, and with it in parentheses. -/
def beside (children : List Node) : List Node :=
  (children.takeWhile (!·.isNamed) ++
    ((children.find? Node.isNamed).filter (!·.kind.isElement)).elim [] Node.children).filter
      (·.kind == .comment)

/-- No comment stands beside an element that is returned. -/
def Undisturbed (n : Node) : Prop :=
  n.kind = .returnStatement → (returnedMarkup? n.children).isSome = true →
    (beside n.children).isEmpty = true

instance (n : Node) : Decidable (Undisturbed n) :=
  inferInstanceAs (Decidable (n.kind = .returnStatement → (returnedMarkup? n.children).isSome = true →
    (beside n.children).isEmpty = true))

/-- No lexeme is passed over. -/
def AllWritten (l : List Lexeme) : Prop := ∀ x ∈ l, x.role ≠ .passedOver

theorem AllWritten.append {x y : List Lexeme} (hx : AllWritten x) (hy : AllWritten y) :
    AllWritten (x ++ y) := List.forall_mem_append.mpr ⟨hx, hy⟩

theorem allWritten_singleton (text : String) {role : Role} (h : role ≠ .passedOver) :
    AllWritten [⟨text, role⟩] := List.forall_mem_singleton.mpr h

theorem allWritten_flatMap (h : ∀ c ∈ l, AllWritten (lexemes s c)) :
    AllWritten (l.flatMap (lexemes s)) := by
  intro x hx
  obtain ⟨c, hc, hmem⟩ := List.mem_flatMap.mp hx
  exact h c hc x hmem

theorem AllWritten.keptComments {x : List Lexeme} (h : AllWritten x) :
    keptComments x = allComments x := by
  refine congrArg (List.map Lexeme.text) (List.filter_congr fun y hy => ?_)
  rw [beq_false_of_ne (h y hy), Bool.or_false]

theorem beside_named (hnamed : n.isNamed = true) (rest : List Node) :
    beside (n :: rest) = if n.kind.isElement then [] else n.children.filter (·.kind == .comment) := by
  rw [beside, List.takeWhile_cons_of_neg (by simp [hnamed]), List.find?_cons_of_pos hnamed,
    List.nil_append]
  cases helement : n.kind.isElement with
  | true => simp [Option.filter, helement]
  | false => simp [Option.filter, helement]

theorem beside_unnamed (hnamed : ¬ n.isNamed = true) (rest : List Node) :
    beside (n :: rest) = (if n.kind == .comment then [n] else []) ++ beside rest := by
  rw [beside, List.takeWhile_cons_of_pos (by simp [hnamed]), List.find?_cons_of_neg hnamed,
    List.cons_append, List.filter_cons, beside]
  split <;> rfl

/-- A statement that returns an element with no comments beside it. -/
theorem allWritten_returned (h : ∀ c ∈ l, AllWritten (lexemes .plain c))
    (hinside : ∀ c ∈ l, ∀ e ∈ c.children, AllWritten (lexemes .plain e)) (hbeside : beside l = []) :
    AllWritten (lexemesAll .returned l) := by
  induction l with
  | nil => exact fun x hx => absurd hx List.not_mem_nil
  | cons n rest ih =>
    have hn := h n List.mem_cons_self
    have hrest := fun c hc => h c (List.mem_cons_of_mem _ hc)
    by_cases hnamed : n.isNamed = true
    · rw [lexemesAll, if_pos (by simp [hnamed]), lexemesAll_eq_flatMap (by decide)]
      refine AllWritten.append ?_ (allWritten_flatMap hrest)
      rw [beside_named hnamed] at hbeside
      have hkind : n.kind ≠ .comment := by
        intro hkind
        rw [Node.isNamed, hkind] at hnamed
        cases hnamed
      split
      · have hopen : AllWritten [⟨"(", .added⟩] := allWritten_singleton _ (by decide)
        have hclose : AllWritten [⟨")", .added⟩] := allWritten_singleton _ (by decide)
        exact hopen.append (hn.append hclose)
      · next helement =>
        rw [if_neg helement, List.filter_eq_nil_iff] at hbeside
        cases htext : n.text with
        | some text =>
          rw [lexemes_of_text _ htext, Setting.role_of_ne hkind]
          exact allWritten_singleton text (by decide)
        | none =>
          rw [lexemes_of_branch _ htext]
          show AllWritten (lexemesAll .enclosed n.children)
          rw [lexemesAll_eq_flatMap (by decide)]
          refine allWritten_flatMap fun e he => ?_
          rw [lexemes_beside (.inr rfl) (by simpa using hbeside e he)]
          exact hinside n List.mem_cons_self e he
    · rw [beside_unnamed hnamed, List.append_eq_nil_iff] at hbeside
      have hkind : n.kind ≠ .comment := by
        intro hkind
        rw [hkind] at hbeside
        cases hbeside.1
      rw [lexemesAll, if_neg (by simp [hnamed]), lexemes_beside (.inl rfl) hkind]
      exact hn.append (ih hrest (fun c hc => hinside c (List.mem_cons_of_mem _ hc)) hbeside.2)

/-- **Comments are passed over only beside a returned element.** -/
theorem allWritten_lexemes (s : Setting) (hs : s.isOpen = true) (n : Node)
    (h : n.Throughout Undisturbed) : AllWritten (lexemes s n) := by
  cases htext : n.text with
  | some text =>
    rw [lexemes_of_text s htext]
    exact allWritten_singleton text (role_ne_passedOver (Setting.ne_of_isOpen hs))
  | none =>
    rw [lexemes_of_branch s htext]
    by_cases hinside : s.inside n.kind n.children = .returned
    · obtain ⟨hkind, hmarkup⟩ := Setting.inside_eq_returned hinside
      rw [hinside]
      refine allWritten_returned (fun c hc => ?_) (fun c hc e he => ?_)
        (List.isEmpty_iff.mp (h.self hkind hmarkup))
      · have := sizeOf_child_lt hc
        exact allWritten_lexemes .plain rfl c (h.child hc)
      · have := sizeOf_child_lt hc
        have := sizeOf_child_lt he
        exact allWritten_lexemes .plain rfl e ((h.child hc).child he)
    · rw [lexemesAll_eq_flatMap hinside]
      refine allWritten_flatMap fun c hc => ?_
      have := sizeOf_child_lt hc
      exact allWritten_lexemes _ (Setting.isOpen_inside hs hinside) c (h.child hc)
termination_by sizeOf n
decreasing_by all_goals omega

/-! ## What is printed -/

/-- **Pretty printing keeps the comments** that do not stand beside a returned element. The texts that are
written are laid out with nothing but blanks between them. So the comments among them occur in the order
of the document, each without the blanks at its end; the other comments are passed over. If no comment
stands beside a returned element, all comments of the tree are kept. -/
theorem pretty_keeps_comments (tree : SourceTree) (h : tree.root.Throughout Shaped) :
    Laid (writtenTexts (lexemes .plain tree.root)) (pretty tree).toList ∧
      OccurIn ((keptComments (lexemes .plain tree.root)).map fun t => dropBlankEnd t.toList)
        (pretty tree).toList ∧
      allComments (lexemes .plain tree.root) = commentsOf tree.root ∧
      (tree.root.Throughout Undisturbed →
        keptComments (lexemes .plain tree.root) = commentsOf tree.root) := by
  have hlaid := laid_pretty tree h
  have hall := comments_lexemes .plain h
  refine ⟨hlaid, hlaid.occurIn (keptComments_sublist _), hall, fun hundisturbed => ?_⟩
  rw [← hall]
  exact (allWritten_lexemes .plain rfl tree.root hundisturbed).keptComments

theorem pretty_keeps_comments_tag :
    commentTree.ReadFrom commentText ∧ commentTree.root.Throughout Shaped ∧
      commentTree.root.Throughout Undisturbed ∧ commentsOf commentTree.root = ["// c"] ∧
      OccurIn ["// c".toList] (pretty commentTree).toList := by
  have hshaped : commentTree.root.Throughout Shaped := .of_preorder (by decide +kernel)
  have hundisturbed : commentTree.root.Throughout Undisturbed := .of_preorder (by decide +kernel)
  have hcomments : commentsOf commentTree.root = ["// c"] := by decide +kernel
  obtain ⟨-, hoccur, -, hkept⟩ := pretty_keeps_comments commentTree hshaped
  refine ⟨readFrom_comment, hshaped, hundisturbed, hcomments, ?_⟩
  rw [hkept hundisturbed, hcomments] at hoccur
  exact hoccur

/-- **A comment in front of a returned element is lost.** -/
theorem pretty_drops_comment :
    bareTree.ReadFrom bareText ∧ bareTree.root.Throughout Shaped ∧
      commentsOf bareTree.root = ["/* c */"] ∧
      ¬ "/* c */".toList <:+: (pretty bareTree).toList := by
  have hshaped : bareTree.root.Throughout Shaped := .of_preorder (by decide +kernel)
  refine ⟨readFrom_bare, hshaped, by decide +kernel, fun hinfix => ?_⟩
  have hstar : '*' ∈ ink (pretty bareTree).toList := by
    refine List.mem_filter.mpr ⟨List.IsInfix.subset hinfix ?_, rfl⟩
    decide +kernel
  rw [written_pretty bareTree hshaped] at hstar
  exact absurd hstar (by decide +kernel)

end MarkupEdit.Print
