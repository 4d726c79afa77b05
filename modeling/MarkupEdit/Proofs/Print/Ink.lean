import MarkupEdit.Print.Pretty
import MarkupEdit.Proofs.Tree.Preorder

/-!
# Ink

Pretty printing leaves out the blanks of a text and writes others. Whatever is not blank is ink.

* `ink`: the characters of a text that are not blank.
* `ink_dropWhile`: blanks at the start of a text leave no ink.
* `Enclosed`: nodes between one that opens them and one that closes them.
-/

namespace MarkupEdit.Print

open MarkupEdit.Text MarkupEdit.Tree

/-- The characters of a text that are not blank. -/
def ink (s : List Char) : List Char := s.filter (fun c => !isBlank c)

theorem ink_append (s t : List Char) : ink (s ++ t) = ink s ++ ink t := List.filter_append s t

theorem ink_of_blank {s : List Char} (h : ∀ c ∈ s, isBlank c = true) : ink s = [] :=
  List.filter_eq_nil_iff.mpr fun c hc => by simp [h c hc]

theorem ink_reverse (s : List Char) : ink s.reverse = (ink s).reverse := List.filter_reverse

/-- Blanks at the start of a text leave no ink. -/
theorem ink_dropWhile {p : Char → Bool} (h : ∀ c, p c = true → isBlank c = true) (s : List Char) :
    ink (s.dropWhile p) = ink s := by
  have hblank : ink (s.takeWhile p) = [] :=
    ink_of_blank fun c hc => h c (List.all_eq_true.mp List.all_takeWhile c hc)
  calc ink (s.dropWhile p) = ink (s.takeWhile p) ++ ink (s.dropWhile p) := by
        rw [hblank, List.nil_append]
    _ = ink s := by rw [← ink_append, List.takeWhile_append_dropWhile]

/-! ## Nodes -/

/-- The ink of a node. -/
def inkOf (n : Node) : List Char := ink n.body.toList

/-- The ink of some nodes. -/
def inkOfAll (l : List Node) : List Char := l.flatMap inkOf

/-- Nodes of such a kind are printed by their parts. -/
def isComposed (kind : Kind) : Bool :=
  [.program, .returnStatement, .jsxElement, .jsxSelfClosingElement, .jsxOpeningElement,
    .jsxClosingElement, .jsxAttribute].contains kind || isBlockLike kind

/-- Nodes between one that opens them and one that closes them. -/
structure Enclosed (opens closes : Node → Bool) (l : List Node) : Prop where
  first : l.head?.any opens = true
  last : l.getLast?.any closes = true
  inside : ∀ c ∈ l.tail.dropLast, opens c = false ∧ closes c = false

instance (opens closes : Node → Bool) (l : List Node) : Decidable (Enclosed opens closes l) :=
  decidable_of_iff (l.head?.any opens = true ∧ l.getLast?.any closes = true ∧
      ∀ c ∈ l.tail.dropLast, opens c = false ∧ closes c = false)
    ⟨fun ⟨h₁, h₂, h₃⟩ => ⟨h₁, h₂, h₃⟩, fun h => ⟨h.first, h.last, h.inside⟩⟩

variable {l : List Node} {opens closes : Node → Bool}

/-- What is enclosed, between the two ends. -/
theorem Enclosed.split (h : Enclosed opens closes l) (hne : ∀ c, opens c = true → closes c = false) :
    ∃ front body back, l = front :: (body ++ [back]) ∧ opens front = true ∧ closes back = true ∧
      ∀ c ∈ body, opens c = false ∧ closes c = false := by
  cases l with
  | nil => exact absurd h.first Bool.false_ne_true
  | cons front rest =>
    have hfront : opens front = true := h.first
    rcases List.eq_nil_or_concat rest with rfl | ⟨body, back, rfl⟩
    · have hback : closes front = true := h.last
      rw [hne front hfront] at hback
      cases hback
    · rw [List.concat_eq_append] at h ⊢
      have hlast := h.last
      rw [← List.cons_append, List.getLast?_concat] at hlast
      refine ⟨front, body, back, rfl, hfront, hlast, fun c hc => h.inside c ?_⟩
      rwa [List.tail_cons, List.dropLast_concat]

theorem filter_enclosed {p : Node → Bool} {front back : Node} {body kept : List Node}
    (hbody : body.filter p = kept) :
    (front :: (body ++ [back])).filter p =
      (if p front then [front] else []) ++ (kept ++ if p back then [back] else []) := by
  rw [List.filter_cons, List.filter_append, hbody, List.filter_cons]
  cases p front <;> rfl

/-- Of nodes between two tags, those that are no tags stay. -/
theorem filter_between_tags {front back : Node} {body : List Node}
    (hfront : (front.kind == .jsxOpeningElement) = true)
    (hbody : ∀ c ∈ body, (c.kind == .jsxOpeningElement) = false ∧
      (c.kind == .jsxClosingElement) = false)
    (hback : (back.kind == .jsxClosingElement) = true) :
    (front :: (body ++ [back])).filter (fun child =>
      child.kind != .jsxOpeningElement && child.kind != .jsxClosingElement) = body := by
  have hkept : body.filter (fun child =>
      child.kind != .jsxOpeningElement && child.kind != .jsxClosingElement) = body :=
    List.filter_eq_self.mpr fun c hc => by rw [bne, bne, (hbody c hc).1, (hbody c hc).2]; rfl
  rw [beq_iff_eq] at hfront hback
  rw [filter_enclosed hkept, if_neg (by rw [hfront]; decide), if_neg (by rw [hback]; decide),
    List.nil_append, List.append_nil]

end MarkupEdit.Print
