import MarkupEdit.Text.Slice
import MarkupEdit.Tree.Kind

/-!
# Outlines

What a reading of a text shows: nodes, each with the bytes that it covers and the nodes inside it.
An outline holds no text of its own.

* `Outline.Placed`: nodes lie inside the node around them, one behind the other, and start and end
  between characters.
* `Outline.nesting`: how many branches are nested inside each other.
-/

namespace MarkupEdit.Tree

open MarkupEdit.Text

/-- A node that a reading shows. -/
structure Outline where
  kind : Kind
  /-- The name under which the node around it holds the node. -/
  field : Option String
  start : Point
  /-- The byte behind the node. -/
  stop : Nat
  children : List Outline

namespace Outline

/-- A node that keeps its text whole: nothing is inside it, or its inner blanks are significant. -/
def isLeaf (o : Outline) : Bool := o.children.isEmpty || o.kind.isVerbatim

mutual

/-- The number of nodes. -/
def count : Outline → Nat
  | ⟨_, _, _, _, children⟩ => countAll children + 1

def countAll : List Outline → Nat
  | [] => 0
  | o :: rest => count o + countAll rest

end

mutual

/-- The greatest number of branches that are nested inside each other. -/
def nesting : Outline → Nat
  | ⟨kind, _, _, _, children⟩ =>
    if children.isEmpty || kind.isVerbatim then 0 else nestingAll children + 1

def nestingAll : List Outline → Nat
  | [] => 0
  | o :: rest => max (nesting o) (nestingAll rest)

end

mutual

/-- The node starts and ends between characters of the text, and the nodes inside it follow one
another inside it. -/
def Placed (s : List Char) : Outline → Prop
  | ⟨_, _, start, stop, children⟩ =>
    IsBoundary s start.byte ∧ IsBoundary s stop ∧ PlacedAll s start.byte stop children

/-- The nodes follow one another between two bytes. -/
def PlacedAll (s : List Char) (first last : Nat) : List Outline → Prop
  | [] => first ≤ last
  | o :: rest => first ≤ o.start.byte ∧ Placed s o ∧ PlacedAll s o.stop last rest

end

variable {s : List Char} {o : Outline} {os os' : List Outline} {a b c : Nat}

theorem count_eq (o : Outline) : o.count = countAll o.children + 1 := by
  cases o
  rfl

theorem nesting_of_isLeaf (h : o.isLeaf = true) : o.nesting = 0 := by
  cases o
  exact if_pos h

theorem nesting_of_branch (h : o.isLeaf = false) : o.nesting = nestingAll o.children + 1 := by
  cases o
  exact if_neg (by simpa [isLeaf] using h)

theorem placed_iff :
    o.Placed s ↔ IsBoundary s o.start.byte ∧ IsBoundary s o.stop ∧
      PlacedAll s o.start.byte o.stop o.children := by
  cases o
  rfl

theorem Placed.start (h : o.Placed s) : IsBoundary s o.start.byte := (placed_iff.mp h).1

theorem Placed.stop (h : o.Placed s) : IsBoundary s o.stop := (placed_iff.mp h).2.1

theorem Placed.children (h : o.Placed s) : PlacedAll s o.start.byte o.stop o.children :=
  (placed_iff.mp h).2.2

mutual

theorem Placed.start_le_stop : {o : Outline} → o.Placed s → o.start.byte ≤ o.stop
  | ⟨_, _, _, _, _⟩, h => PlacedAll.first_le_last h.children

theorem PlacedAll.first_le_last : {os : List Outline} → {a b : Nat} → PlacedAll s a b os → a ≤ b
  | [], _, _, h => h
  | _ :: _, _, _, ⟨h₁, ho, h₂⟩ =>
    Nat.le_trans h₁ (Nat.le_trans (Placed.start_le_stop ho) (PlacedAll.first_le_last h₂))

end

mutual

/-- Whether a node is placed in a text can be computed. -/
def decidePlaced (s : List Char) : (o : Outline) → Decidable (o.Placed s)
  | ⟨_, _, start, stop, children⟩ =>
    @instDecidableAnd _ _ inferInstance
      (@instDecidableAnd _ _ inferInstance (decidePlacedAll s start.byte stop children))

def decidePlacedAll (s : List Char) (first last : Nat) :
    (os : List Outline) → Decidable (PlacedAll s first last os)
  | [] => inferInstanceAs (Decidable (first ≤ last))
  | o :: rest =>
    @instDecidableAnd _ _ inferInstance
      (@instDecidableAnd _ _ (decidePlaced s o) (decidePlacedAll s o.stop last rest))

end

instance (s : List Char) (o : Outline) : Decidable (o.Placed s) := decidePlaced s o

theorem PlacedAll.from_before (h : PlacedAll s b c os) (hab : a ≤ b) : PlacedAll s a c os := by
  cases os with
  | nil => exact Nat.le_trans hab h
  | cons o rest => exact ⟨Nat.le_trans hab h.1, h.2⟩

theorem PlacedAll.append (h : PlacedAll s a b os) (h' : PlacedAll s b c os') :
    PlacedAll s a c (os ++ os') := by
  induction os generalizing a with
  | nil => exact h'.from_before h
  | cons o rest ih => exact ⟨h.1, h.2.1, ih h.2.2⟩

end Outline

end MarkupEdit.Tree
