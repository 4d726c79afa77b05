import MarkupEdit.Grammar.Subtree
import MarkupEdit.Tree.Outline

/-!
# Cutting a text

A reading says where the lexemes of a text stand and which nodes show. Walking over the text along
a reading gives the outline of the nodes that show.

* `Items.cut`: the outlines of the nodes that a subtree shows, and the text behind it.
* `Items.placed_cut`: they follow one another, and lie inside each other, in the text.
-/

namespace MarkupEdit.Grammar

open MarkupEdit.Text MarkupEdit.Tree

/-- The text from a place on. -/
structure Remainder where
  place : Nat
  point : Point
  text : List Char

/-- All of a text. -/
def Remainder.ofText (text : List Char) : Remainder := ⟨0, .start, text⟩

/-- The text from a place further on. -/
def Remainder.skipTo (r : Remainder) (place : Nat) : Remainder :=
  ⟨place, r.point.after (r.text.take (place - r.place)), r.text.drop (place - r.place)⟩

/-- A node around some nodes, from the start of the first to the end of the last. Around none there
is no node. -/
def around (kind : Kind) (field : Option String) : List Outline → List Outline
  | [] => []
  | first :: rest =>
    [⟨kind, field, first.start, (rest.getLast?.getD first).stop, first :: rest⟩]

namespace Items

/-- The name of nodes of a label. -/
def titleOf (its : Items) : Label → Title
  | .symbol symbol =>
    match its.grammar.terminals[symbol]? with
    | some t => t.title
    | none => ⟨((its.grammar.part? symbol).map (·.name)).getD "", true⟩
  | _ => ⟨"ERROR", true⟩

def kindOf (title : Title) : Kind := .ofGrammar title.name title.isNamed

mutual

/-- The nodes that a subtree shows and the text behind it. A production may put it under a field and
give it another name; the field of one that does not show goes to its children. -/
def cut (its : Items) (field : Option String) (title : Option Title) :
    Subtree → Remainder → List Outline × Remainder
  | { label, start, stop, isVisible, production, children, .. }, r =>
    let kind := kindOf (title.getD (its.titleOf label))
    if title.isSome || isVisible then
      if children.isEmpty then
        let first := r.skipTo start
        let behind := first.skipTo stop
        ([⟨kind, field, first.point, behind.point.byte, []⟩], behind)
      else
        let (parts, r) := its.cutAll (its.steps production) none children r
        (around kind field parts, r)
    else its.cutAll (its.steps production) field children r

/-- The nodes that the children of a production with the given steps show. -/
def cutAll (its : Items) (steps : List Step) (field : Option String) :
    List Subtree → Remainder → List Outline × Remainder
  | [], r => ([], r)
  | t :: rest, r =>
    if t.isExtra then
      let (first, r) := its.cut none none t r
      let (others, r) := its.cutAll steps field rest r
      (first ++ others, r)
    else
      let step := steps.head?
      let (first, r) := its.cut ((step.bind (·.field)).or field) (step.bind (·.title)) t r
      let (others, r) := its.cutAll steps.tail field rest r
      (first ++ others, r)

end

end Items

/-! ## Places -/

/-- The remainder is what a text has behind the point. -/
def Remainder.Behind (s : List Char) (r : Remainder) : Prop :=
  ∃ l, s = l ++ r.text ∧ r.point = Point.start.after l

theorem Remainder.behind_ofText (s : List Char) : (Remainder.ofText s).Behind s := ⟨[], rfl, rfl⟩

variable {s : List Char} {r : Remainder}

theorem Remainder.Behind.isBoundary (h : r.Behind s) : IsBoundary s r.point.byte := by
  obtain ⟨l, hs, hp⟩ := h
  exact ⟨l, r.text, hs, by rw [hp, Point.after_byte]; simp [Point.start]⟩

theorem Remainder.Behind.skipTo (h : r.Behind s) (place : Nat) : (r.skipTo place).Behind s := by
  obtain ⟨l, hs, hp⟩ := h
  refine ⟨l ++ r.text.take (place - r.place), ?_, ?_⟩
  · rw [List.append_assoc, Remainder.skipTo, List.take_append_drop, hs]
  · rw [Point.after_append, ← hp, Remainder.skipTo]

theorem Remainder.byte_le_skipTo (r : Remainder) (place : Nat) :
    r.point.byte ≤ (r.skipTo place).point.byte := by
  rw [Remainder.skipTo, Point.after_byte]
  exact Nat.le_add_right _ _

/-- Nodes that follow one another end with the last of them. -/
theorem placedAll_to_last {first : Outline} {rest : List Outline} {a b : Nat}
    (h : Outline.PlacedAll s a b (first :: rest)) :
    Outline.PlacedAll s a (rest.getLast?.getD first).stop (first :: rest) ∧
      (rest.getLast?.getD first).stop ≤ b ∧
      IsBoundary s (rest.getLast?.getD first).stop := by
  induction rest generalizing first a with
  | nil => exact ⟨⟨h.1, h.2.1, Nat.le_refl _⟩, h.2.2, h.2.1.stop⟩
  | cons second rest ih =>
    obtain ⟨h₁, h₂, h₃⟩ := ih h.2.2
    have hlast : (second :: rest).getLast?.getD first = rest.getLast?.getD second := by
      rw [List.getLast?_cons]
      rfl
    rw [hlast]
    exact ⟨⟨h.1, h.2.1, h₁⟩, h₂, h₃⟩

theorem placedAll_around {parts : List Outline} {a b : Nat} (kind : Kind) (field : Option String)
    (h : Outline.PlacedAll s a b parts) : Outline.PlacedAll s a b (around kind field parts) := by
  cases parts with
  | nil => exact h
  | cons first rest =>
    obtain ⟨h₁, h₂, h₃⟩ := placedAll_to_last h
    exact ⟨h.1, Outline.placed_iff.mpr ⟨h.2.1.start, h₃, Nat.le_refl _, h₁.2⟩, h₂⟩

namespace Items

mutual

/-- The nodes that a subtree shows follow one another in the text. -/
theorem placed_cut (its : Items) (field : Option String) (title : Option Title) (t : Subtree)
    {r : Remainder} (h : r.Behind s) :
    Outline.PlacedAll s r.point.byte (its.cut field title t r).2.point.byte
        (its.cut field title t r).1 ∧ (its.cut field title t r).2.Behind s := by
  cases t with
  | mk label gap start stop cost favour isVisible innerNodes childNodes isExtra isMissing isWord
      production children =>
    simp only [Items.cut]
    split
    · split
      · have h₁ := h.skipTo start
        have h₂ := h₁.skipTo stop
        exact ⟨⟨r.byte_le_skipTo start, Outline.placed_iff.mpr ⟨h₁.isBoundary, h₂.isBoundary,
          Remainder.byte_le_skipTo _ stop⟩, Nat.le_refl _⟩, h₂⟩
      · obtain ⟨h₁, h₂⟩ := its.placed_cutAll (its.steps production) none children h
        exact ⟨placedAll_around _ _ h₁, h₂⟩
    · exact its.placed_cutAll _ _ children h

theorem placed_cutAll (its : Items) (steps : List Step) (field : Option String)
    (ts : List Subtree) {r : Remainder} (h : r.Behind s) :
    Outline.PlacedAll s r.point.byte (its.cutAll steps field ts r).2.point.byte
        (its.cutAll steps field ts r).1 ∧ (its.cutAll steps field ts r).2.Behind s := by
  cases ts with
  | nil => exact ⟨Nat.le_refl _, h⟩
  | cons t rest =>
    simp only [Items.cutAll]
    split
    · obtain ⟨h₁, hr₁⟩ := its.placed_cut none none t h
      obtain ⟨h₂, hr₂⟩ := its.placed_cutAll steps field rest hr₁
      exact ⟨h₁.append h₂, hr₂⟩
    · obtain ⟨h₁, hr₁⟩ := its.placed_cut _ _ t h
      obtain ⟨h₂, hr₂⟩ := its.placed_cutAll steps.tail field rest hr₁
      exact ⟨h₁.append h₂, hr₂⟩

end

end Items

end MarkupEdit.Grammar
