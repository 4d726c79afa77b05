import MarkupEdit.Proofs.Print.Layout

/-!
# What becomes of the leaves of a tree

Pretty printing writes the leaves of a tree in their order. Comments that stand beside an element that is
returned are passed over, and such an element gets parentheses where it has none.

* `Composed`: what the grammar says of the parts of a node, as far as printing relies on it.
* `Shaped`: such a node with the text and the trivia that reading gives it.
* `lexemes`: the leaves of a node with what becomes of them, and the parentheses that are added.
* `source_lexemes`: **without those parentheses they are the leaves in the order of the document.**
* `pieces`: the lexemes that are written, as they come onto a sheet.
* `laid_verbatim`: a part of a tag that is written as it stands in the source.
* `pieces_argument`: an element that is returned, without the comments beside it.
-/

namespace MarkupEdit.Print

open MarkupEdit.Text MarkupEdit.Tree

/-! ## The shape of a tree -/

/-- In front of what is returned there is the word, and at most comments. -/
def beginsWithWord (children : List Node) : Bool :=
  match (children.takeWhile (!·.isNamed)).filter (·.kind != .comment) with
  | [word] => word.isToken "return"
  | _ => false

/-- In parentheses there is one thing, and at most comments. -/
def holdsOne (children : List Node) : Bool :=
  match children.filter (·.kind != .comment) with
  | [front, _, back] => front.isToken "(" && back.isToken ")"
  | _ => false

/-- The parts of a statement that returns an element, or an element in parentheses. -/
def returnsOne (children : List Node) : Bool :=
  beginsWithWord children &&
    (children.find? Node.isNamed).any fun value => value.kind.isElement || holdsOne value.children

/-- The parts of a statement that returns what stands in parentheses, with nothing else in them. -/
def inParentheses : List Node → Bool
  | word :: value :: _ => word.isToken "return" && value.kind == .parenthesizedExpression &&
    match value.children with
    | [front, _, back] => front.isToken "(" && back.isToken ")"
    | _ => false
  | _ => false

/-- What the grammar says of the parts of a node, as far as printing relies on it. -/
structure Composed (n : Node) : Prop where
  /-- Elements are between tags. -/
  element : n.kind = .jsxElement →
    Enclosed (·.kind == .jsxOpeningElement) (·.kind == .jsxClosingElement) n.children
  /-- Blocks are between braces. A comment behind a block can be read as a part of it, in front of the
  end of a statement that no mark shows; such a block is left out. -/
  block : isBlockLike n.kind = true → Enclosed (·.isToken "\x7b") (·.isToken "\x7d") n.children
  returned : n.kind = .returnStatement → (returnedMarkup? n.children).isSome = true →
    returnsOne n.children = true

/-- A node whose parts are as the grammar says, with its text and its trivia as reading gives them. -/
structure Shaped (n : Node) : Prop extends Composed n where
  /-- Between nodes there are blanks. -/
  leading : ink n.leading.toList = []
  trailing : ink n.trailing.toList = []
  leaf : n.text.isSome = true → n.children = []
  /-- Texts between tags and comments are leaves. -/
  text : n.kind = .jsxText ∨ n.kind = .comment → n.text.isSome = true
  /-- An empty program is a leaf, but has nothing in it. -/
  composed : isComposed n.kind = true → ink (n.text.getD "").toList = []

/-- A node of a source in which the elements that are returned stand in parentheses already. -/
structure Regular (n : Node) : Prop extends Shaped n where
  parenthesised : n.kind = .returnStatement → (returnedMarkup? n.children).isSome = true →
    inParentheses n.children = true

instance (n : Node) : Decidable (Composed n) :=
  decidable_of_iff
    ((n.kind = .jsxElement →
        Enclosed (·.kind == .jsxOpeningElement) (·.kind == .jsxClosingElement) n.children) ∧
      (isBlockLike n.kind = true → Enclosed (·.isToken "\x7b") (·.isToken "\x7d") n.children) ∧
      (n.kind = .returnStatement → (returnedMarkup? n.children).isSome = true →
        returnsOne n.children = true))
    ⟨fun ⟨h₁, h₂, h₃⟩ => ⟨h₁, h₂, h₃⟩, fun h => ⟨h.element, h.block, h.returned⟩⟩

instance (n : Node) : Decidable (Shaped n) :=
  decidable_of_iff
    (Composed n ∧ ink n.leading.toList = [] ∧ ink n.trailing.toList = [] ∧
      (n.text.isSome = true → n.children.length = 0) ∧
      (n.kind = .jsxText ∨ n.kind = .comment → n.text.isSome = true) ∧
      (isComposed n.kind = true → ink (n.text.getD "").toList = []))
    ⟨fun ⟨h₁, h₂, h₃, h₄, h₅, h₆⟩ =>
        ⟨h₁, h₂, h₃, fun h => List.length_eq_zero_iff.mp (h₄ h), h₅, h₆⟩,
      fun h => ⟨h.toComposed, h.leading, h.trailing,
        fun h' => List.length_eq_zero_iff.mpr (h.leaf h'), h.text, h.composed⟩⟩

instance (n : Node) : Decidable (Regular n) :=
  decidable_of_iff
    (Shaped n ∧ (n.kind = .returnStatement → (returnedMarkup? n.children).isSome = true →
      inParentheses n.children = true))
    ⟨fun ⟨h₁, h₂⟩ => ⟨h₁, h₂⟩, fun h => ⟨h.toShaped, h.parenthesised⟩⟩

variable {n c e : Node} {l r : List Node} {text : String}

theorem isToken_ne {s t : String} (hne : s ≠ t) (h : n.isToken s = true) : n.isToken t = false := by
  rw [Node.isToken, (Node.isToken_iff.mp h).2]
  simp [hne]

theorem isNamed_of_isToken (h : n.isToken text = true) : n.isNamed = false := by
  rw [Node.isNamed, (Node.isToken_iff.mp h).1]
  rfl

/-- What has something in it has no text of its own. -/
theorem Shaped.text_of_mem (h : Shaped n) (hc : c ∈ n.children) : n.text = none := by
  cases htext : n.text with
  | none => rfl
  | some text =>
    rw [h.leaf (by rw [htext]; rfl)] at hc
    cases hc

theorem sizeOf_child_lt (hc : c ∈ n.children) : sizeOf c < sizeOf n :=
  (List.sizeOf_lt_of_mem hc).trans (sizeOf_children_lt n)

/-! ## The ink of a node -/

theorem inkOfAll_cons (n : Node) (l : List Node) : inkOfAll (n :: l) = inkOf n ++ inkOfAll l := rfl

theorem ink_bodies (h : ∀ c ∈ l, Shaped c) : ink (Node.bodies l).toList = inkOfAll l := by
  induction l with
  | nil => rfl
  | cons c l ih =>
    rw [Node.bodies_cons, Node.full, String.toList_append, String.toList_append, ink_append,
      ink_append, (h c List.mem_cons_self).leading, List.nil_append,
      ih fun d hd => h d (List.mem_cons_of_mem _ hd)]
    rfl

theorem inkOf_of_text (h : Shaped n) (htext : n.text = some text) : inkOf n = ink text.toList := by
  rw [inkOf, Node.body_eq, h.leaf (by rw [htext]; rfl), htext, Option.getD_some,
    String.toList_append, String.toList_append, ink_append, ink_append, h.trailing]
  exact List.append_nil _

theorem inkOf_of_branch (h : n.Throughout Shaped) (htext : n.text = none) :
    inkOf n = inkOfAll n.children := by
  rw [inkOf, Node.body_eq, htext, Option.getD_none, String.toList_append, String.toList_append,
    ink_append, ink_append, h.self.trailing, List.append_nil,
    ink_bodies fun c hc => (h.child hc).self]
  rfl

/-! ## Lexemes -/

/-- What becomes of a lexeme. -/
inductive Role where
  | code
  | comment
  /-- A comment that is not written. -/
  | passedOver
  /-- A parenthesis that is not there in the source. -/
  | added
  deriving DecidableEq, Repr

/-- A lexeme and what becomes of it. -/
structure Lexeme where
  text : String
  role : Role
  deriving DecidableEq, Repr

/-- What decides about the leaves in a node. -/
inductive Setting where
  | plain
  /-- Among the parts of a tag. -/
  | tagPart
  | attributePart
  /-- In a part of a tag that is written as it stands in the source. -/
  | verbatim
  /-- In a statement that returns an element, up to the element. -/
  | returned
  /-- The parentheses around an element that is returned. -/
  | value
  /-- Beside an element in such parentheses. -/
  | enclosed
  deriving DecidableEq, Repr

namespace Setting

/-- What decides about the children of a node of which nothing special is known. -/
def ofKind (kind : Kind) (children : List Node) : Setting :=
  match kind with
  | .returnStatement => if (returnedMarkup? children).isSome then returned else plain
  | .jsxSelfClosingElement | .jsxOpeningElement | .jsxClosingElement => tagPart
  | _ => plain

/-- What decides about the children of a node. -/
def inside (s : Setting) (kind : Kind) (children : List Node) : Setting :=
  match s with
  | verbatim => verbatim
  | tagPart =>
    if kind == .jsxAttribute then attributePart else if kind == .jsxExpression then plain else verbatim
  | attributePart => if kind == .jsxElement || kind == .jsxExpression then plain else verbatim
  | value => enclosed
  | plain | returned | enclosed => ofKind kind children

/-- Most nodes decide nothing about their children. -/
theorem inside_plain {kind : Kind} (hreturn : kind ≠ .returnStatement)
    (hclosed : kind ≠ .jsxSelfClosingElement) (hopening : kind ≠ .jsxOpeningElement)
    (hclosing : kind ≠ .jsxClosingElement) (children : List Node) :
    plain.inside kind children = plain := by
  show ofKind kind children = plain
  unfold ofKind
  split <;> first | rfl | contradiction

/-- Only the children of a statement that returns an element are in that setting. -/
theorem inside_eq_returned {s : Setting} {kind : Kind} {children : List Node}
    (h : s.inside kind children = returned) :
    kind = .returnStatement ∧ (returnedMarkup? children).isSome = true := by
  have hofKind : ofKind kind children = returned := by
    cases s with
    | plain | returned | enclosed => exact h
    | tagPart | attributePart =>
      rw [inside] at h
      repeat' split at h
      all_goals cases h
    | verbatim | value => cases h
  unfold ofKind at hofKind
  split at hofKind
  · split at hofKind
    · next hmarkup => exact ⟨rfl, hmarkup⟩
    · cases hofKind
  all_goals cases hofKind

/-- What becomes of a leaf. -/
def role (s : Setting) (kind : Kind) : Role :=
  if kind != .comment then .code
  else
    match s with
    | returned | enclosed => .passedOver
    | _ => .comment

end Setting

mutual

/-- The leaves of a node with what becomes of them, and the parentheses that are added. -/
def lexemes : Setting → Node → List Lexeme
  | s, ⟨kind, _, _, _, text, children, _⟩ =>
    match text with
    | some text => [⟨text, s.role kind⟩]
    | none => lexemesAll (s.inside kind children) children

/-- The same for some nodes in a row. The first that is neither a token nor a comment is what a statement
returns. -/
def lexemesAll : Setting → List Node → List Lexeme
  | _, [] => []
  | s, n :: rest =>
    if s == .returned && n.isNamed then
      (if n.kind.isElement then ⟨"(", .added⟩ :: (lexemes .plain n ++ [⟨")", .added⟩])
        else lexemes .value n) ++ lexemesAll .plain rest
    else lexemes s n ++ lexemesAll s rest

end

/-- The ink of a lexeme, if it is written. -/
def Lexeme.writtenInk (x : Lexeme) : List Char := if x.role = .passedOver then [] else ink x.text.toList

/-- The ink of the lexemes that are written. -/
def writtenInk (l : List Lexeme) : List Char := l.flatMap Lexeme.writtenInk

theorem writtenInk_append (l r : List Lexeme) : writtenInk (l ++ r) = writtenInk l ++ writtenInk r :=
  List.flatMap_append

/-- The texts of the lexemes that are written. -/
def writtenTexts (l : List Lexeme) : List String := (l.filter (·.role != .passedOver)).map Lexeme.text

/-- A lexeme on a sheet. Where it does not matter whether lines end, comments are as good as code. -/
def Lexeme.piece (isStrict : Bool) (x : Lexeme) : Piece := ⟨x.text, isStrict && x.role == .comment⟩

/-- The lexemes that are written, on a sheet. -/
def pieces (isStrict : Bool) (l : List Lexeme) : List Piece :=
  (l.filter (·.role != .passedOver)).map (Lexeme.piece isStrict)

variable {isStrict : Bool}

theorem texts_pieces (isStrict : Bool) (l : List Lexeme) :
    Piece.texts (pieces isStrict l) = writtenTexts l := List.map_map

theorem pieces_append (l r : List Lexeme) :
    pieces isStrict (l ++ r) = pieces isStrict l ++ pieces isStrict r := by
  rw [pieces, List.filter_append, List.map_append]
  rfl

theorem pieces_singleton {x : Lexeme} (h : x.role ≠ .passedOver) :
    pieces isStrict [x] = [x.piece isStrict] := by
  rw [pieces, List.filter_cons_of_pos (by simpa using h)]
  rfl

/-- What is no comment is code. -/
theorem pieces_code (text : String) {role : Role} (h : role = .code ∨ role = .added) :
    pieces isStrict [⟨text, role⟩] = [.code text] := by
  rcases h with rfl | rfl
  · exact congrArg (fun isComment => [Piece.mk text isComment]) (Bool.and_false isStrict)
  · exact congrArg (fun isComment => [Piece.mk text isComment]) (Bool.and_false isStrict)

theorem writtenInk_eq (isStrict : Bool) (l : List Lexeme) :
    writtenInk l = inkOfTexts (Piece.texts (pieces isStrict l)) := by
  induction l with
  | nil => rfl
  | cons x l ih =>
    rw [← List.singleton_append, pieces_append, Piece.texts_append, inkOfTexts_append, ← ih, writtenInk,
      List.flatMap_append, List.flatMap_singleton, Lexeme.writtenInk]
    congr 1
    by_cases hrole : x.role = .passedOver
    · rw [if_pos hrole, pieces, List.filter_cons_of_neg (by simp [hrole])]
      rfl
    · rw [if_neg hrole, pieces_singleton hrole]
      exact (List.append_nil _).symm

theorem lexemes_of_text (s : Setting) (h : n.text = some text) :
    lexemes s n = [⟨text, s.role n.kind⟩] := by
  cases n
  cases h
  rfl

theorem lexemes_of_branch (s : Setting) (h : n.text = none) :
    lexemes s n = lexemesAll (s.inside n.kind n.children) n.children := by
  cases n
  cases h
  rfl

theorem lexemesAll_cons {s : Setting} (hs : s ≠ .returned) (n : Node) (rest : List Node) :
    lexemesAll s (n :: rest) = lexemes s n ++ lexemesAll s rest := by
  rw [lexemesAll, if_neg (by simp [hs])]

theorem lexemesAll_eq_flatMap {s : Setting} (hs : s ≠ .returned) (l : List Node) :
    lexemesAll s l = l.flatMap (lexemes s) := by
  induction l with
  | nil => rfl
  | cons n rest ih => rw [lexemesAll_cons hs, ih, List.flatMap_cons]

theorem written_cons {s : Setting} (hs : s ≠ .returned) (n : Node) (rest : List Node) :
    writtenInk (lexemesAll s (n :: rest)) =
      writtenInk (lexemes s n) ++ writtenInk (lexemesAll s rest) := by
  rw [lexemesAll_cons hs, writtenInk_append]

theorem pieces_cons {s : Setting} (hs : s ≠ .returned) (n : Node) (rest : List Node) :
    pieces isStrict (lexemesAll s (n :: rest)) =
      pieces isStrict (lexemes s n) ++ pieces isStrict (lexemesAll s rest) := by
  rw [lexemesAll_cons hs, pieces_append]

theorem pieces_concat {s : Setting} (hs : s ≠ .returned) (l r : List Node) :
    pieces isStrict (lexemesAll s (l ++ r)) =
      pieces isStrict (lexemesAll s l) ++ pieces isStrict (lexemesAll s r) := by
  rw [lexemesAll_eq_flatMap hs, lexemesAll_eq_flatMap hs, lexemesAll_eq_flatMap hs,
    List.flatMap_append, pieces_append]

/-! ## The leaves in the source -/

/-- What a lexeme is in the source: its text, and whether it is a comment. -/
def Lexeme.source (x : Lexeme) : String × Bool := (x.text, x.role != .code)

/-- The lexemes that are there in the source. -/
def ofSource (l : List Lexeme) : List (String × Bool) :=
  (l.filter (·.role != .added)).map Lexeme.source

/-- The text of a leaf, and whether it is a comment. -/
def leaf? (found : Found) : Option (String × Bool) :=
  found.node.text.map fun text => (text, found.node.kind == .comment)

theorem ofSource_append (l r : List Lexeme) : ofSource (l ++ r) = ofSource l ++ ofSource r := by
  rw [ofSource, List.filter_append, List.map_append]
  rfl

theorem ofSource_leaf (s : Setting) (kind : Kind) (text : String) :
    ofSource [⟨text, s.role kind⟩] = [(text, kind == .comment)] := by
  by_cases hkind : kind = .comment
  · subst hkind
    cases s <;> rfl
  · have hrole : s.role kind = .code := if_pos (bne_iff_ne.mpr hkind)
    rw [hrole, beq_false_of_ne hkind]
    rfl

mutual

/-- **Without the parentheses that are added, the lexemes are the leaves in the order of the document.** -/
theorem source_lexemes (s : Setting) (n : Node) (p : Place) (h : n.Throughout Shaped) :
    ofSource (lexemes s n) = (preorder n p).filterMap leaf? := by
  rw [preorder_eq, List.filterMap_cons, leaf?]
  cases htext : n.text with
  | some text =>
    rw [lexemes_of_text s htext, ofSource_leaf, h.self.leaf (by rw [htext]; rfl)]
    rfl
  | none =>
    rw [lexemes_of_branch s htext]
    exact source_lexemesAll _ n p 0 n.children fun c hc => h.child hc
termination_by 2 * n.count
decreasing_by
  have := n.count_eq
  omega

theorem source_lexemesAll (s : Setting) (parent : Node) (p : Place) (index : Nat) (ns : List Node)
    (h : ∀ c ∈ ns, c.Throughout Shaped) :
    ofSource (lexemesAll s ns) = (preorderAll parent p index ns).filterMap leaf? := by
  match ns with
  | [] => rfl
  | n :: rest =>
    have hn := h n List.mem_cons_self
    have hrest := fun c hc => h c (List.mem_cons_of_mem _ hc)
    rw [preorderAll, List.filterMap_append, lexemesAll]
    split
    · rw [ofSource_append, source_lexemesAll .plain parent p (index + 1) rest hrest]
      congr 1
      split
      · rw [← source_lexemes .plain n (p.child parent index) hn]
        have hends : ofSource [⟨"(", .added⟩] = [] ∧ ofSource [⟨")", .added⟩] = [] := ⟨rfl, rfl⟩
        rw [← List.singleton_append, ofSource_append, ofSource_append, hends.1, hends.2,
          List.nil_append, List.append_nil]
      · exact source_lexemes .value n (p.child parent index) hn
    · rw [ofSource_append, source_lexemes s n (p.child parent index) hn,
        source_lexemesAll s parent p (index + 1) rest hrest]
termination_by 2 * Node.countAll ns + 1
decreasing_by
  all_goals
    have := n.count_eq
    simp only [Node.countAll]
    omega

end

/-! ## What is written of a node -/

theorem Setting.role_of_ne {s : Setting} {kind : Kind} (h : kind ≠ .comment) :
    s.role kind = .code := if_pos (bne_iff_ne.mpr h)

theorem role_ne_passedOver {s : Setting} {kind : Kind} (h : s ≠ .returned ∧ s ≠ .enclosed) :
    s.role kind ≠ .passedOver := by
  obtain ⟨hreturned, henclosed⟩ := h
  unfold Setting.role
  split
  · exact Role.noConfusion
  · cases s <;> first | exact Role.noConfusion | contradiction

theorem pieces_of_text {s : Setting} (htext : n.text = some text)
    (hrole : s.role n.kind ≠ .passedOver) :
    pieces isStrict (lexemes s n) = [Lexeme.piece isStrict ⟨text, s.role n.kind⟩] := by
  rw [lexemes_of_text s htext, pieces_singleton hrole]

theorem pieces_of_code {s : Setting} (htext : n.text = some text) (hkind : n.kind ≠ .comment) :
    pieces isStrict (lexemes s n) = [.code text] := by
  rw [lexemes_of_text s htext, pieces_code text (.inl (Setting.role_of_ne hkind))]

/-- What is printed by its parts has the pieces of its parts, or a blank one. -/
theorem pieces_of_composed {s : Setting} (h : Shaped n) (hcomposed : isComposed n.kind = true) :
    pieces isStrict (lexemes s n) =
        pieces isStrict (lexemesAll (s.inside n.kind n.children) n.children) ∨
      ∃ text, AllBlank text.toList ∧ pieces isStrict (lexemes s n) =
        [.code text] ++ pieces isStrict (lexemesAll (s.inside n.kind n.children) n.children) := by
  cases htext : n.text with
  | none => exact .inl (by rw [lexemes_of_branch s htext])
  | some text =>
    have hink := h.composed hcomposed
    rw [htext, Option.getD_some] at hink
    have hkind : n.kind ≠ .comment := fun hkind => by rw [hkind] at hcomposed; cases hcomposed
    refine .inr ⟨text, allBlank_of_ink hink, ?_⟩
    rw [pieces_of_code htext hkind, h.leaf (by rw [htext]; rfl)]
    rfl

/-- **A part of a tag that is written as it stands in the source.** -/
theorem laid_verbatim (n : Node) (h : n.Throughout Shaped) :
    Laid (Piece.texts (pieces isStrict (lexemes .verbatim n))) n.body.toList := by
  have htrailing : AllBlank n.trailing.toList := allBlank_of_ink h.self.trailing
  rw [Node.body_eq, String.toList_append, String.toList_append, ← List.append_assoc]
  refine Laid.blanks ?_ htrailing
  cases htext : n.text with
  | some text =>
    rw [pieces_of_text htext (role_ne_passedOver (by decide)), h.self.leaf (by rw [htext]; rfl),
      Option.getD_some]
    exact (laid_text text).append .nil
  | none =>
    have hchildren : ∀ l : List Node, (∀ c ∈ l, c ∈ n.children) →
        Laid (Piece.texts (pieces isStrict (lexemesAll .verbatim l))) (Node.bodies l).toList := by
      intro l hl
      induction l with
      | nil => exact .nil
      | cons c rest ih =>
        have hc := hl c List.mem_cons_self
        have hcshaped := h.child hc
        have := sizeOf_child_lt hc
        rw [pieces_cons (by decide), Piece.texts_append, Node.bodies_cons, Node.full,
          String.toList_append, String.toList_append]
        refine Laid.append ?_ (ih fun d hd => hl d (List.mem_cons_of_mem _ hd))
        exact (laid_blanks (allBlank_of_ink hcshaped.self.leading)).append (laid_verbatim c hcshaped)
    rw [lexemes_of_branch _ htext, Option.getD_none]
    exact hchildren n.children fun c hc => hc
termination_by sizeOf n
decreasing_by omega

/-- So is one that is a leaf, without what stands behind it. -/
theorem laid_getD_body (h : n.Throughout Shaped) :
    Laid (Piece.texts (pieces isStrict (lexemes .verbatim n))) (n.text.getD n.body).toList := by
  cases htext : n.text with
  | none => exact laid_verbatim n h
  | some text =>
    rw [pieces_of_text htext (role_ne_passedOver (by decide))]
    exact laid_text text

/-- What becomes of the leaves in a node depends on how its setting treats its leaves and its children. -/
theorem lexemes_congr {s t : Setting} (hrole : s.role n.kind = t.role n.kind)
    (hinside : s.inside n.kind n.children = t.inside n.kind n.children) :
    lexemes s n = lexemes t n := by
  cases htext : n.text with
  | some text => rw [lexemes_of_text _ htext, lexemes_of_text _ htext, hrole]
  | none => rw [lexemes_of_branch _ htext, lexemes_of_branch _ htext, hinside]

/-- In a tag only attributes and expressions are written by their parts. -/
theorem lexemes_tagPart (hattribute : n.kind ≠ .jsxAttribute) (hexpression : n.kind ≠ .jsxExpression) :
    lexemes .tagPart n = lexemes .verbatim n := by
  refine lexemes_congr rfl ?_
  simp [Setting.inside, hattribute, hexpression]

/-- And in an attribute only elements between tags and expressions. -/
theorem lexemes_attributePart (helement : n.kind ≠ .jsxElement) (hexpression : n.kind ≠ .jsxExpression) :
    lexemes .attributePart n = lexemes .verbatim n := by
  refine lexemes_congr rfl ?_
  simp [Setting.inside, helement, hexpression]

/-! ## What is written of an element that is returned -/

/-- Comments beside it are not written. -/
theorem pieces_of_comment {s : Setting} (hs : s = .returned ∨ s = .enclosed) (h : Shaped n)
    (hkind : n.kind = .comment) : pieces isStrict (lexemes s n) = [] := by
  obtain ⟨text, htext⟩ := Option.isSome_iff_exists.mp (h.text (.inr hkind))
  rw [lexemes_of_text s htext, hkind]
  rcases hs with rfl | rfl <;> rfl

theorem pieces_filter {s : Setting} (hs : s = .returned ∨ s = .enclosed) (h : ∀ c ∈ l, Shaped c) :
    pieces isStrict (l.flatMap (lexemes s)) =
      pieces isStrict ((l.filter (·.kind != .comment)).flatMap (lexemes s)) := by
  induction l with
  | nil => rfl
  | cons n rest ih =>
    have hrest := ih fun c hc => h c (List.mem_cons_of_mem _ hc)
    rw [List.flatMap_cons, pieces_append, hrest]
    by_cases hkind : n.kind = .comment
    · rw [pieces_of_comment hs (h n List.mem_cons_self) hkind,
        List.filter_cons_of_neg (by simp [hkind]), List.nil_append]
    · rw [List.filter_cons_of_pos (by simpa using hkind), List.flatMap_cons, pieces_append]

theorem pieces_of_isToken {s : Setting} (htoken : n.isToken text = true) :
    pieces isStrict (lexemes s n) = [.code text] := by
  obtain ⟨hkind, htext⟩ := Node.isToken_iff.mp htoken
  exact pieces_of_code htext (by rw [hkind]; decide)

/-- The statement up to what it returns. -/
theorem lexemesAll_returned (l : List Node) :
    lexemesAll .returned l = (l.takeWhile (!·.isNamed)).flatMap (lexemes .returned) ++
      lexemesAll .returned (l.dropWhile (!·.isNamed)) := by
  induction l with
  | nil => rfl
  | cons n rest ih =>
    by_cases hnamed : n.isNamed = true
    · rw [List.takeWhile_cons_of_neg (by simp [hnamed]), List.dropWhile_cons_of_neg (by simp [hnamed])]
      rfl
    · rw [List.takeWhile_cons_of_pos (by simp [hnamed]), List.dropWhile_cons_of_pos (by simp [hnamed]),
        List.flatMap_cons, List.append_assoc, ← ih, lexemesAll, if_neg (by simp [hnamed])]

/-- Only the word is written of what stands in front of what is returned. -/
theorem pieces_beforeValue (h : ∀ c ∈ l, Shaped c) (hword : beginsWithWord l = true) :
    pieces isStrict ((l.takeWhile (!·.isNamed)).flatMap (lexemes .returned)) = [.code "return"] := by
  unfold beginsWithWord at hword
  split at hword
  · next word hfilter =>
    rw [pieces_filter (.inl rfl) fun c hc => h c ((List.takeWhile_sublist _).subset hc), hfilter,
      List.flatMap_singleton, pieces_of_isToken hword]
  · cases hword

/-- What is returned is an element, or an element in parentheses. -/
theorem markupOf?_cases (h : markupOf? n = some e) :
    (n.kind.isElement = true ∧ n = e) ∨
      (n.kind.isElement = false ∧ n.kind = .parenthesizedExpression ∧ n.namedChildren = [e] ∧
        e.kind.isElement = true) := by
  unfold markupOf? at h
  split at h
  · next helement => exact .inl ⟨helement, Option.some.inj h⟩
  next helement =>
  split at h
  · next hkind =>
    split at h
    · next inner hinner =>
      obtain ⟨hmarkup, hsome⟩ := Option.ite_none_right_eq_some.mp h
      cases hsome
      exact .inr ⟨Bool.eq_false_iff.mpr helement, beq_iff_eq.mp hkind, hinner, hmarkup⟩
    · cases h
  · cases h

theorem ne_comment_of_isElement (h : n.kind.isElement = true) : n.kind ≠ .comment := by
  intro hcomment
  rw [hcomment] at h
  cases h

/-- Of what stands in parentheses, the element is all but the parentheses and comments. -/
theorem filter_of_holdsOne (hone : holdsOne n.children = true) (hinner : n.namedChildren = [e]) :
    ∃ front back, n.children.filter (·.kind != .comment) = [front, e, back] ∧
      front.isToken "(" = true ∧ back.isToken ")" = true := by
  unfold holdsOne at hone
  split at hone
  · next front inner back hfilter =>
    obtain ⟨hfront, hback⟩ := Bool.and_eq_true_iff.mp hone
    have hsplit : n.namedChildren = (n.children.filter (·.kind != .comment)).filter Node.isNamed := by
      rw [Node.namedChildren, List.filter_filter]
      refine List.filter_congr fun c _ => ?_
      rw [Node.isNamed]
      cases c.kind != .token <;> cases c.kind != .comment <;> rfl
    rw [hsplit, hfilter, List.filter_cons, isNamed_of_isToken hfront, List.filter_cons,
      List.filter_cons, isNamed_of_isToken hback] at hinner
    have hsame : inner = e := by
      cases hnamed : inner.isNamed <;> rw [hnamed] at hinner <;> cases hinner
      rfl
    exact ⟨front, back, hsame ▸ hfilter, hfront, hback⟩
  · cases hone

/-- Beside a returned element, only comments are treated in a way of their own. -/
theorem lexemes_beside {s : Setting} (hs : s = .returned ∨ s = .enclosed) (hkind : n.kind ≠ .comment) :
    lexemes s n = lexemes .plain n := by
  refine lexemes_congr ?_ ?_
  · rw [Setting.role_of_ne hkind, Setting.role_of_ne hkind]
  · rcases hs with rfl | rfl <;> rfl

/-- **An element in parentheses is written in them, without the comments beside it.** -/
theorem pieces_value (h : n.Throughout Shaped) (hone : holdsOne n.children = true)
    (hinner : n.namedChildren = [e]) (helement : e.kind.isElement = true) :
    pieces isStrict (lexemes .value n) =
      [.code "("] ++ (pieces isStrict (lexemes .plain e) ++ [.code ")"]) := by
  obtain ⟨front, back, hfilter, hfront, hback⟩ := filter_of_holdsOne hone hinner
  have hmem : e ∈ n.children := (List.mem_filter.mp (hinner ▸ List.mem_singleton_self e)).1
  have hplain := lexemes_beside (.inr rfl) (ne_comment_of_isElement helement)
  rw [lexemes_of_branch _ (h.self.text_of_mem hmem)]
  show pieces isStrict (lexemesAll .enclosed n.children) = _
  rw [lexemesAll_eq_flatMap (by decide), pieces_filter (.inr rfl) fun c hc => (h.child hc).self,
    hfilter, List.flatMap_cons, List.flatMap_cons, List.flatMap_singleton, pieces_append,
    pieces_append, pieces_of_isToken hfront, pieces_of_isToken hback, hplain]

theorem throughout_of_markupOf? {q : Node → Prop} (hmarkup : markupOf? n = some e)
    (h : n.Throughout q) : e.Throughout q := by
  rcases markupOf?_cases hmarkup with ⟨-, rfl⟩ | ⟨-, -, hinner, -⟩
  · exact h
  · exact h.child (List.mem_filter.mp (hinner ▸ List.mem_singleton_self e)).1

/-- **An element that is returned is written in parentheses**, whether it had some or not. -/
theorem pieces_argument (h : n.Throughout Shaped)
    (hone : (n.kind.isElement || holdsOne n.children) = true) (hmarkup : markupOf? n = some e) :
    pieces isStrict (if n.kind.isElement then ⟨"(", .added⟩ :: (lexemes .plain n ++ [⟨")", .added⟩])
      else lexemes .value n) =
      [.code "("] ++ (pieces isStrict (lexemes .plain e) ++ [.code ")"]) := by
  rcases markupOf?_cases hmarkup with ⟨helement, rfl⟩ | ⟨hother, -, hinner, helement⟩
  · rw [if_pos helement, ← List.singleton_append, pieces_append, pieces_append,
      pieces_code "(" (.inr rfl), pieces_code ")" (.inr rfl)]
  · rw [hother, Bool.false_or] at hone
    rw [if_neg (by rw [hother]; exact Bool.false_ne_true), pieces_value h hone hinner helement]

end MarkupEdit.Print
