import MarkupEdit.Grammar.Cut
import MarkupEdit.Grammar.Script
import MarkupEdit.Tree.Convert
import MarkupEdit.Tree.Flaw

/-!
# Parsing

A text in a language becomes its source tree.

* `outline`: the outline of a text that a reading shows.
* `parse`: the tree of a text, or where the text leaves the language.
* `placed_outline`: the outline is one of the text.
-/

namespace MarkupEdit.Tree

open MarkupEdit.Text MarkupEdit.Grammar

/-- The outline of a text that a reading of it shows: a program from its first node to the end of
the text. -/
def outline (its : Items) (text : List Char) (root : Subtree) : Outline :=
  let (parts, rest) := its.cutAll (its.steps root.production) none root.children (.ofText text)
  let last := rest.point.after rest.text
  ⟨.program, none, (parts.head?.map (·.start)).getD last, last.byte, parts⟩

/-- The outline that a reading of a text shows lies in the text. -/
theorem placed_outline (its : Items) (text : List Char) (root : Subtree) :
    (outline its text root).Placed text := by
  obtain ⟨h, hr⟩ := its.placed_cutAll (its.steps root.production) none root.children
    (Remainder.behind_ofText text)
  unfold outline
  generalize its.cutAll (its.steps root.production) none root.children (.ofText text) = cut at h hr
  obtain ⟨parts, rest⟩ := cut
  have hlast : IsBoundary text (rest.point.after rest.text).byte := by
    obtain ⟨l, rfl, hp⟩ := hr
    rw [hp, ← Point.after_append, Point.after_byte, Point.start, Nat.zero_add]
    exact isBoundary_size _
  have hle : rest.point.byte ≤ (rest.point.after rest.text).byte := by
    rw [Point.after_byte]
    exact Nat.le_add_right _ _
  have hparts := h.append (show Outline.PlacedAll text rest.point.byte _ [] from hle)
  rw [List.append_nil] at hparts
  cases parts with
  | nil => exact Outline.placed_iff.mpr ⟨hlast, hlast, Nat.le_refl _⟩
  | cons first others =>
    exact Outline.placed_iff.mpr ⟨hparts.2.1.start, hlast, Nat.le_refl _, hparts.2⟩

/-- The tree of a text whose best reading has no errors. -/
def parse (source : String) (language : Language) : Except SyntaxFault SourceTree :=
  let its := (Script.tables language).items
  let text := source.toList
  let reading := Script.read language text
  match reading.filter (·.cost == 0) with
  | some root => convert language text (outline its text root)
  | none => .error (.malformed language (flaws its text reading))

end MarkupEdit.Tree
