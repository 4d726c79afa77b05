import MarkupEdit.Proofs.Print.Lexemes

/-!
# Line comments in a tag

A comment that is written by itself makes a break due if it takes the rest of its line. In a part of a tag
that is written as it stands in the source nothing looks at comments, and no break becomes due behind
them. So the lines of a tree end where they must if there are no line comments in such parts.

* `KeptIn`: what holds of the parts of a tag that are written as they stand in the source.
* `LineFree`: there is no line comment in them.
* `Printable`: the nodes that are printed, with that condition or without.
* `lined_kept`: **such a part is laid out with no line to end.**
-/

namespace MarkupEdit.Print

open MarkupEdit.Text MarkupEdit.Tree

/-! ## What is kept as it stands -/

/-- Whether a node of some kind is written as it stands in the source. -/
def Setting.keeps : Setting → Kind → Bool
  | verbatim, _ => true
  | tagPart, kind => kind != .jsxAttribute && kind != .jsxExpression
  | attributePart, kind => kind != .jsxElement && kind != .jsxExpression
  | plain, _ | returned, _ | value, _ | enclosed, _ => false

/-- The setting of the children of a tag or an attribute. -/
def partsSetting : Kind → Setting
  | .jsxSelfClosingElement | .jsxOpeningElement | .jsxClosingElement => .tagPart
  | .jsxAttribute => .attributePart
  | _ => .plain

/-- A property of all nodes in what is written, of some nodes, as it stands in the source. -/
def KeptIn (q : Node → Prop) (s : Setting) (l : List Node) : Prop :=
  ∀ c ∈ l, s.keeps c.kind = true → ∀ found ∈ preorder c Place.root, q found.node

instance (q : Node → Prop) [DecidablePred q] (s : Setting) (l : List Node) : Decidable (KeptIn q s l) :=
  inferInstanceAs (Decidable
    (∀ c ∈ l, s.keeps c.kind = true → ∀ found ∈ preorder c Place.root, q found.node))

variable {n c : Node} {l : List Node} {s : Setting} {isStrict : Bool}

theorem KeptIn.tail {q : Node → Prop} (h : KeptIn q s (c :: l)) : KeptIn q s l :=
  fun d hd => h d (List.mem_cons_of_mem _ hd)

/-! ## Line comments -/

/-- A comment that takes the rest of its line. -/
def isLineComment (n : Node) : Bool := n.kind == .comment && n.text.any startsLineComment

/-- In the parts of a tag that are written as they stand in the source, there is no line comment. -/
def LineFree (n : Node) : Prop := KeptIn (isLineComment · = false) (partsSetting n.kind) n.children

instance (n : Node) : Decidable (LineFree n) :=
  inferInstanceAs (Decidable (KeptIn (isLineComment · = false) (partsSetting n.kind) n.children))

/-- A node that is printed. Where lines have to end, there are no line comments in a tag. -/
structure Printable (isStrict : Bool) (n : Node) : Prop extends Shaped n where
  lineFree : isStrict = true → LineFree n

theorem Printable.kept (h : Printable isStrict n) (hparts : partsSetting n.kind = s)
    (hstrict : isStrict = true) : KeptIn (isLineComment · = false) s n.children :=
  hparts ▸ h.lineFree hstrict

theorem throughout_shaped (h : n.Throughout (Printable isStrict)) : n.Throughout Shaped :=
  h.mono fun _ hm => hm.toShaped

theorem throughout_printable (h : n.Throughout Shaped) : n.Throughout (Printable false) :=
  h.mono fun _ hm => ⟨hm, nofun⟩

/-- Where lines have to end, no line comments are written of a node that has none in it. -/
theorem takesLine_of_mem_pieces (h : n.Throughout Shaped)
    (hfree : isStrict = true → ∀ found ∈ preorder n Place.root, isLineComment found.node = false) :
    ∀ p ∈ pieces isStrict (lexemes s n), p.takesLine = false := by
  intro p hp
  obtain ⟨x, hx, rfl⟩ := List.mem_map.mp hp
  refine Bool.eq_false_iff.mpr fun htakes => ?_
  obtain ⟨hcomment, hslashes⟩ := Bool.and_eq_true_iff.mp htakes
  obtain ⟨hstrict, hrole⟩ := Bool.and_eq_true_iff.mp hcomment
  have hrole := beq_iff_eq.mp hrole
  have hsource : (x.text, true) ∈ ofSource (lexemes s n) := by
    refine List.mem_map.mpr ⟨x, List.mem_filter.mpr ⟨(List.mem_filter.mp hx).1, ?_⟩, ?_⟩
    · rw [hrole]
      rfl
    · rw [Lexeme.source, hrole]
      rfl
  -- so the comment is a leaf of the node
  rw [source_lexemes s n Place.root h] at hsource
  obtain ⟨found, hfound, hleaf⟩ := List.mem_filterMap.mp hsource
  obtain ⟨text, htext, hpair⟩ := Option.map_eq_some_iff.mp hleaf
  obtain ⟨rfl, hkind⟩ := Prod.mk.inj hpair
  refine Bool.false_ne_true ((hfree hstrict found hfound).symm.trans ?_)
  rw [isLineComment, hkind, htext]
  exact hslashes

/-- **A part of a tag that is written as it stands in the source**, with no line to end. -/
theorem lined_kept (h : n.Throughout Shaped)
    (hfree : isStrict = true → ∀ found ∈ preorder n Place.root, isLineComment found.node = false) :
    Lined false (pieces isStrict (lexemes .verbatim n)) (n.text.getD n.body).toList :=
  (laid_getD_body h).lined (takesLine_of_mem_pieces h hfree)

end MarkupEdit.Print
