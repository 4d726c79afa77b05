import MarkupEdit.Proofs.Print.Regular

/-!
# The code in a pretty printed tree

Comments and blanks apart, the code of a tree is the texts of its leaves, with parentheses around the
elements that are returned without them. Pretty printing writes just that, but for the parts of a tag
that are written as they stand in the source. Among them is an element without a closing tag that is the
value of an attribute, while one with a closing tag is rebuilt.

* `codeOf`: the code of a node, as a program that is pretty printed should have it.
* `code_lexemes`: the lexemes of a node are its code, unless there is a bare element to return in a part
  of a tag that is not rebuilt.
* `pretty_keeps_code`: **pretty printing drops no code and adds only parentheses around returned
  elements.**
* `attribute_keeps_bare`: a returned element stays without parentheses in the value of an attribute.
-/

namespace MarkupEdit.Print

open MarkupEdit.Text MarkupEdit.Tree

variable {n c : Node} {l : List Node} {s : Setting}

/-! ## The code of a node -/

mutual

/-- The texts of the leaves without comments and blanks, and with parentheses around the elements that are
returned without them. -/
def codeOf : Node → List Char
  | ⟨kind, _, _, _, text, children, _⟩ =>
    match text with
    | some text => if kind == .comment then [] else ink text.toList
    | none => codeOfAll (kind == .returnStatement) children

/-- The same for some nodes in a row, which may have what a statement returns still to come. -/
def codeOfAll : Bool → List Node → List Char
  | _, [] => []
  | isDue, n :: rest =>
    if isDue && n.isNamed then
      (if n.kind.isElement then '(' :: (codeOf n ++ [')']) else codeOf n) ++ codeOfAll false rest
    else codeOf n ++ codeOfAll isDue rest

end

theorem codeOf_of_text {text : String} (h : n.text = some text) :
    codeOf n = if n.kind == .comment then [] else ink text.toList := by
  cases n
  cases h
  rfl

theorem codeOf_of_branch (h : n.text = none) :
    codeOf n = codeOfAll (n.kind == .returnStatement) n.children := by
  cases n
  cases h
  rfl

theorem codeOfAll_false (l : List Node) : codeOfAll false l = l.flatMap codeOf := by
  induction l with
  | nil => rfl
  | cons n rest ih => rw [codeOfAll, Bool.false_and, if_neg Bool.false_ne_true, ih, List.flatMap_cons]

theorem codeOfAll_named (hnamed : n.isNamed = true) (rest : List Node) :
    codeOfAll true (n :: rest) =
      (if n.kind.isElement then '(' :: (codeOf n ++ [')']) else codeOf n) ++ rest.flatMap codeOf := by
  rw [codeOfAll, if_pos (by rw [hnamed]; rfl), codeOfAll_false]

theorem codeOfAll_unnamed (hnamed : ¬ n.isNamed = true) (rest : List Node) :
    codeOfAll true (n :: rest) = codeOf n ++ codeOfAll true rest := by
  rw [codeOfAll, if_neg (by simp [hnamed])]

/-- What is returned is an element without parentheses. -/
def returnsBare (children : List Node) : Bool := (children.find? Node.isNamed).any (·.kind.isElement)

theorem codeOfAll_of_not_returnsBare (h : returnsBare l = false) (isDue : Bool) :
    codeOfAll isDue l = l.flatMap codeOf := by
  cases isDue with
  | false => exact codeOfAll_false l
  | true =>
    induction l with
    | nil => rfl
    | cons n rest ih =>
      by_cases hnamed : n.isNamed = true
      · rw [returnsBare, List.find?_cons_of_pos hnamed, Option.any_some] at h
        rw [codeOfAll_named hnamed, h, if_neg Bool.false_ne_true, List.flatMap_cons]
      · rw [returnsBare, List.find?_cons_of_neg hnamed] at h
        rw [codeOfAll_unnamed hnamed, ih h, List.flatMap_cons]

/-! ## What is rebuilt -/

/-- A statement that returns an element without parentheses. -/
def isBareReturn (n : Node) : Bool := n.kind == .returnStatement && returnsBare n.children

/-- In the parts of a tag that are written as they stand in the source, nothing returns an element without
parentheses. -/
def Rebuilt (n : Node) : Prop := KeptIn (isBareReturn · = false) (partsSetting n.kind) n.children

instance (n : Node) : Decidable (Rebuilt n) :=
  inferInstanceAs (Decidable (KeptIn (isBareReturn · = false) (partsSetting n.kind) n.children))

/-- A setting that a node of a rebuilt tree can be in: what is kept has no bare element to return in it. -/
structure Setting.Fits (s : Setting) (n : Node) : Prop where
  kept : s.keeps n.kind = true → n.Throughout (isBareReturn · = false)
  value : s = .value → n.kind = .parenthesizedExpression

namespace Setting

theorem fits_of_not_keeps (hkept : s.keeps n.kind = false) (hvalue : s ≠ .value) : s.Fits n :=
  ⟨fun h => absurd (hkept.symm.trans h) Bool.false_ne_true, fun h => absurd h hvalue⟩

theorem fits_plain (n : Node) : plain.Fits n := fits_of_not_keeps rfl (by decide)

theorem fits_partsSetting (h : Rebuilt n) (hc : c ∈ n.children) : (partsSetting n.kind).Fits c := by
  refine ⟨fun hkept => .of_preorder (h c hc hkept), fun hvalue => ?_⟩
  unfold partsSetting at hvalue
  split at hvalue <;> cases hvalue

theorem ofKind_cases (kind : Kind) (children : List Node) :
    ofKind kind children = returned ∨ ofKind kind children = plain ∨
      ofKind kind children = partsSetting kind := by
  unfold ofKind
  split
  · split
    · exact .inl rfl
    · exact .inr (.inl rfl)
  · exact .inr (.inr rfl)
  · exact .inr (.inr rfl)
  · exact .inr (.inr rfl)
  · exact .inr (.inl rfl)

/-- The setting in a node is fit for what is in it. -/
theorem Fits.child (h : s.Fits n) (hrebuilt : Rebuilt n) (hc : c ∈ n.children)
    (hinside : s.inside n.kind n.children ≠ .returned) : (s.inside n.kind n.children).Fits c := by
  have hparts := fits_partsSetting hrebuilt hc
  have hverbatim (hkept : s.keeps n.kind = true) : verbatim.Fits c :=
    ⟨fun _ => (h.kept hkept).child hc, nofun⟩
  cases s with
  | verbatim => exact hverbatim rfl
  | value => exact fits_of_not_keeps rfl (show enclosed ≠ .value by decide)
  | tagPart =>
    rw [inside]
    split
    · next hkind =>
      rw [beq_iff_eq.mp hkind] at hparts
      exact hparts
    next hattribute =>
    split
    · exact fits_plain c
    · next hexpression => exact hverbatim (by simp [keeps, bne, hattribute, hexpression])
  | attributePart =>
    rw [inside]
    split
    · exact fits_plain c
    · next hkind => exact hverbatim (by simpa [keeps, bne] using hkind)
  | plain | returned | enclosed =>
    show (ofKind n.kind n.children).Fits c
    rcases ofKind_cases n.kind n.children with hreturned | hplain | hsame
    · exact absurd hreturned hinside
    · exact hplain ▸ fits_plain c
    · exact hsame ▸ hparts

theorem isSome_of_returnsBare (h : returnsBare l = true) : (returnedMarkup? l).isSome = true := by
  rw [returnedMarkup?]
  unfold returnsBare at h
  cases hfind : l.find? Node.isNamed with
  | none =>
    rw [hfind] at h
    cases h
  | some value =>
    rw [hfind, Option.any_some] at h
    rw [Option.bind_some, markupOf?, if_pos h]
    rfl

/-- A statement that returns a bare element has a setting of its own inside. -/
theorem Fits.not_bare (h : s.Fits n) (hinside : s.inside n.kind n.children ≠ .returned) :
    isBareReturn n = false := by
  refine Bool.eq_false_iff.mpr fun hbare => ?_
  obtain ⟨hkind, hreturns⟩ := Bool.and_eq_true_iff.mp hbare
  have hkind := beq_iff_eq.mp hkind
  have hkeeps (hkept : s.keeps n.kind = true) : False :=
    Bool.false_ne_true ((h.kept hkept).self.symm.trans hbare)
  rw [hkind] at hinside hkeeps
  cases s with
  | plain | returned | enclosed => exact hinside (if_pos (isSome_of_returnsBare hreturns))
  | verbatim | tagPart | attributePart => exact hkeeps rfl
  | value => exact absurd (hkind.symm.trans (h.value rfl)) (by decide)

end Setting

/-! ## The code among the lexemes -/

/-- The code among some lexemes: all but the comments. -/
def codeInk (l : List Lexeme) : List Char :=
  l.flatMap fun x => if x.role = .code ∨ x.role = .added then ink x.text.toList else []

theorem codeInk_append (l r : List Lexeme) : codeInk (l ++ r) = codeInk l ++ codeInk r :=
  List.flatMap_append

theorem codeInk_leaf (s : Setting) (kind : Kind) (text : String) :
    codeInk [⟨text, s.role kind⟩] = if kind == .comment then [] else ink text.toList := by
  rw [codeInk, List.flatMap_singleton]
  by_cases hkind : kind = .comment
  · subst hkind
    cases s <;> rfl
  · rw [Setting.role_of_ne hkind, if_pos (.inl rfl), if_neg (by simpa using hkind)]

theorem codeInk_flatMap (h : ∀ c ∈ l, codeInk (lexemes s c) = codeOf c) :
    codeInk (l.flatMap (lexemes s)) = l.flatMap codeOf := by
  induction l with
  | nil => rfl
  | cons n rest ih =>
    rw [List.flatMap_cons, codeInk_append, h n List.mem_cons_self,
      ih fun c hc => h c (List.mem_cons_of_mem _ hc), List.flatMap_cons]

/-- A statement that returns an element. -/
theorem code_returned (hmarkup : (returnedMarkup? l).isSome = true)
    (h : ∀ c ∈ l, ∀ t : Setting, t.Fits c → codeInk (lexemes t c) = codeOf c) :
    codeInk (lexemesAll .returned l) = codeOfAll true l := by
  induction l with
  | nil => cases hmarkup
  | cons n rest ih =>
    have hn := h n List.mem_cons_self
    have hrest := fun c hc => h c (List.mem_cons_of_mem _ hc)
    by_cases hnamed : n.isNamed = true
    · rw [returnedMarkup?, List.find?_cons_of_pos hnamed, Option.bind_some] at hmarkup
      obtain ⟨e, he⟩ := Option.isSome_iff_exists.mp hmarkup
      rw [codeOfAll_named hnamed, lexemesAll, if_pos (by rw [hnamed]; rfl), codeInk_append,
        lexemesAll_eq_flatMap (by decide),
        codeInk_flatMap fun c hc => hrest c hc .plain (Setting.fits_plain c)]
      rcases markupOf?_cases he with ⟨helement, -⟩ | ⟨hother, hkind, -⟩
      · rw [if_pos helement, if_pos helement, ← hn .plain (Setting.fits_plain n),
          ← List.singleton_append, codeInk_append, codeInk_append]
        rfl
      · rw [hother, if_neg Bool.false_ne_true, if_neg Bool.false_ne_true,
          hn .value ⟨nofun, fun _ => hkind⟩]
    · rw [returnedMarkup?, List.find?_cons_of_neg hnamed] at hmarkup
      rw [codeOfAll_unnamed hnamed, lexemesAll, if_neg (by simp [hnamed]), codeInk_append,
        hn .returned (Setting.fits_of_not_keeps rfl (by decide)), ih hmarkup hrest]

/-- **The lexemes of a node are its code.** -/
theorem code_lexemes (s : Setting) (n : Node) (h : n.Throughout Rebuilt) (hfits : s.Fits n) :
    codeInk (lexemes s n) = codeOf n := by
  cases htext : n.text with
  | some text => rw [lexemes_of_text s htext, codeInk_leaf, codeOf_of_text htext]
  | none =>
    have ih (c : Node) (hc : c ∈ n.children) (t : Setting) (ht : t.Fits c) :
        codeInk (lexemes t c) = codeOf c := by
      have := sizeOf_child_lt hc
      exact code_lexemes t c (h.child hc) ht
    rw [lexemes_of_branch s htext, codeOf_of_branch htext]
    by_cases hinside : s.inside n.kind n.children = .returned
    · obtain ⟨hkind, hmarkup⟩ := Setting.inside_eq_returned hinside
      rw [hinside, hkind]
      exact code_returned hmarkup ih
    · have hcode : codeOfAll (n.kind == .returnStatement) n.children = n.children.flatMap codeOf := by
        cases hkind : n.kind == .returnStatement with
        | false => exact codeOfAll_false _
        | true =>
          have hbare := hfits.not_bare hinside
          rw [isBareReturn, hkind, Bool.true_and] at hbare
          exact codeOfAll_of_not_returnsBare hbare true
      rw [lexemesAll_eq_flatMap hinside, hcode]
      exact codeInk_flatMap fun c hc => ih c hc _ (hfits.child h.self hc hinside)
termination_by sizeOf n
decreasing_by omega

/-! ## What is printed -/

/-- **Pretty printing drops no code and adds only parentheses around returned elements.** What is written
is the leaves in the order of the document, but for the comments beside a returned element, with those
parentheses. They are added wherever an element is returned without, unless it is in a part of a tag that
is written as it stands in the source. -/
theorem pretty_keeps_code (tree : SourceTree) (h : tree.root.Throughout Shaped) :
    ink (pretty tree).toList = writtenInk (lexemes .plain tree.root) ∧
      ofSource (lexemes .plain tree.root) = (preorder tree.root Place.root).filterMap leaf? ∧
      (tree.root.Throughout Rebuilt → codeInk (lexemes .plain tree.root) = codeOf tree.root) := by
  refine ⟨written_pretty tree h, source_lexemes .plain tree.root Place.root h, fun hrebuilt => ?_⟩
  exact code_lexemes .plain tree.root hrebuilt (Setting.fits_plain _)

/-- A statement that returns an element, with a comment in front of it. -/
def bareText : String := "return /* c */ <p/>;"

/-- The nodes of `bareText`. -/
def bareNode : Node :=
  Sketch.program [.branch .returnStatement
    [.token "return", (Node.leaf .comment "/* c */").withLeading " ",
      (Sketch.bareTag "p" []).withLeading " ", .token ";"]]

/-- The tree of `bareText`. -/
def bareTree : SourceTree := .sketch bareText bareNode

theorem readFrom_bare : bareTree.ReadFrom bareText := readFrom_sketch (by decide) (by decide)

theorem pretty_keeps_code_bare :
    bareTree.ReadFrom bareText ∧ bareTree.root.Throughout Shaped ∧ bareTree.root.Throughout Rebuilt ∧
      ink (pretty bareTree).toList = "return(<p/>);".toList ∧
      codeInk (lexemes .plain bareTree.root) = "return(<p/>);".toList := by
  have hshaped : bareTree.root.Throughout Shaped := .of_preorder (by decide +kernel)
  have hrebuilt : bareTree.root.Throughout Rebuilt := .of_preorder (by decide +kernel)
  obtain ⟨hink, -, hcode⟩ := pretty_keeps_code bareTree hshaped
  refine ⟨readFrom_bare, hshaped, hrebuilt, ?_, ?_⟩
  · rw [hink]
    decide +kernel
  · rw [hcode hrebuilt]
    decide +kernel

/-! ## An element in an attribute -/

/-- A function that returns an element, in an element that is the value of an attribute. -/
def attributeText : String := "<A b=<p c=\x7b() => \x7b return <q/>; \x7d\x7d/>/>;"

/-- The function in `attributeText`. -/
def returningNode : Node :=
  .branch .arrowFunction
    [(Node.branch (.other "formal_parameters") [.token "(", .token ")"]).withField "parameters",
      (Node.token "=>").withLeading " ",
      ((Node.branch .statementBlock
        [.token "\x7b",
          (Node.branch .returnStatement
            [.token "return", (Sketch.bareTag "q" []).withLeading " ",
              .token ";"]).withLeading " ",
          (Node.token "\x7d").withLeading " "]).withField "body").withLeading " "]

/-- The nodes of `attributeText`. -/
def attributeNode : Node :=
  Sketch.program [Sketch.statement (Sketch.bareTag "A"
    [Sketch.assigned "b" (Sketch.bareTag "p"
      [Sketch.assigned "c" (.markupExpression returningNode)])])]

/-- The tree of `attributeText`. -/
def attributeTree : SourceTree := .sketch attributeText attributeNode

/-- **In an attribute, a returned element stays as it is.** There are no comments in the tree. -/
theorem attribute_keeps_bare :
    attributeTree.ReadFrom attributeText ∧ attributeTree.root.Throughout Shaped ∧
      attributeTree.root.Throughout (·.kind ≠ .comment) ∧
      ink (pretty attributeTree).toList ≠ codeOf attributeTree.root := by
  have hread : attributeTree.ReadFrom attributeText :=
    readFrom_sketch (by decide) (by decide)
  have hshaped : attributeTree.root.Throughout Shaped := .of_preorder (by decide +kernel)
  refine ⟨hread, hshaped, .of_preorder (by decide +kernel), ?_⟩
  rw [written_pretty attributeTree hshaped]
  decide +kernel

end MarkupEdit.Print
