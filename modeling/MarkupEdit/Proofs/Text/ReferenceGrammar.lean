import MarkupEdit.Proofs.Text.Digits
import MarkupEdit.Text.Reference

/-!
# The names of references

A reference is a name out of six, or the number of a character in digits. Numbers are read as numbers
are read elsewhere, so that a plus sign in front of the digits is accepted as well, though it belongs to
no reference.

* `Stands`: the name of a reference, and its character.
* `Signed`: a number with a plus sign.
* `reference?_eq_some_iff`: **what is accepted are references and numbers with a sign.**
-/

namespace MarkupEdit.Text

variable {base n : Nat} {c : Char} {digits name : List Char}

/-! ## Names -/

/-- **The name of a reference**, and the character that it stands for. -/
inductive Stands : List Char → Char → Prop where
  | named {name : String} {c : Char} (h : (name, c) ∈ [("amp", '&'), ("lt", '<'), ("gt", '>'),
      ("quot", '"'), ("apos", '\''), ("nbsp", '\u00a0')]) : Stands name.toList c
  | decimal {digits : List Char} {c : Char} (h : Writes 10 digits c.toNat) :
      Stands ('#' :: digits) c
  | hexadecimal {x c : Char} {digits : List Char} (hx : x = 'x' ∨ x = 'X')
      (h : Writes 16 digits c.toNat) : Stands ('#' :: x :: digits) c

/-- The number of a character with a plus sign in front, which is no reference. -/
inductive Signed : List Char → Char → Prop where
  | decimal {digits : List Char} {c : Char} (h : Writes 10 digits c.toNat) :
      Signed ('#' :: '+' :: digits) c
  | hexadecimal {x c : Char} {digits : List Char} (hx : x = 'x' ∨ x = 'X')
      (h : Writes 16 digits c.toNat) : Signed ('#' :: x :: '+' :: digits) c

/-- A number that is not led in by an x is read to base ten. -/
theorem reference?_decimal (hx : digits.head? ≠ some 'x') (hX : digits.head? ≠ some 'X') :
    reference? ('#' :: digits) = (baseValue? 10 digits).bind scalar? := by
  cases digits with
  | nil => rfl
  | cons c digits =>
    have hc : c ≠ 'x' := fun heq => hx (by rw [heq]; rfl)
    have hc' : c ≠ 'X' := fun heq => hX (by rw [heq]; rfl)
    unfold reference?
    split
    · next heq => exact absurd (List.cons.inj (List.cons.inj heq).2).1 hc
    · next heq => exact absurd (List.cons.inj (List.cons.inj heq).2).1 hc'
    · next heq => rw [(List.cons.inj heq).2]
    · next hnone => exact absurd rfl (hnone (c :: digits))

theorem head?_ne_of_writes (h : Writes base digits n) {x : Char}
    (hx : x ∉ digitValues.map Prod.fst) : digits.head? ≠ some x := by
  intro hhead
  exact hx (h.mem x (List.mem_of_mem_head? hhead))

/-- **What is accepted are references and numbers with a sign.** -/
theorem reference?_eq_some_iff : reference? name = some c ↔ Stands name c ∨ Signed name c := by
  constructor
  · intro h
    unfold reference? at h
    split at h
    · rcases bind_scalar?_eq_some_iff.mp h with hw | ⟨rest, rfl, hw⟩
      · exact .inl (.hexadecimal (.inl rfl) hw)
      · exact .inr (.hexadecimal (.inl rfl) hw)
    · rcases bind_scalar?_eq_some_iff.mp h with hw | ⟨rest, rfl, hw⟩
      · exact .inl (.hexadecimal (.inr rfl) hw)
      · exact .inr (.hexadecimal (.inr rfl) hw)
    · rcases bind_scalar?_eq_some_iff.mp h with hw | ⟨rest, rfl, hw⟩
      · exact .inl (.decimal hw)
      · exact .inr (.decimal hw)
    · obtain ⟨front, back, hlist, -⟩ := List.lookup_eq_some_iff.mp h
      have hmem : (String.ofList name, c) ∈ namedReferences := by
        rw [hlist]
        exact List.mem_append_right _ List.mem_cons_self
      have hnamed := Stands.named hmem
      rw [String.toList_ofList] at hnamed
      exact .inl hnamed
  · rintro (h | h)
    · cases h with
      | @named name c h =>
        simp only [List.mem_cons, Prod.mk.injEq, List.not_mem_nil, or_false] at h
        rcases h with ⟨rfl, rfl⟩ | ⟨rfl, rfl⟩ | ⟨rfl, rfl⟩ | ⟨rfl, rfl⟩ | ⟨rfl, rfl⟩ | ⟨rfl, rfl⟩ <;>
          rfl
      | decimal h =>
        rw [reference?_decimal (head?_ne_of_writes h (by decide)) (head?_ne_of_writes h (by decide))]
        exact bind_scalar?_eq_some_iff.mpr (.inl h)
      | hexadecimal hx h =>
        rcases hx with rfl | rfl <;> exact bind_scalar?_eq_some_iff.mpr (.inl h)
    · cases h with
      | decimal h =>
        rw [reference?_decimal (by simp) (by simp)]
        exact bind_scalar?_eq_some_iff.mpr (.inr ⟨_, rfl, h⟩)
      | hexadecimal hx h =>
        rcases hx with rfl | rfl <;> exact bind_scalar?_eq_some_iff.mpr (.inr ⟨_, rfl, h⟩)

/-- The characters that the names of references are made of. -/
def nameCharacters : List Char := "#+xX".toList ++ digitValues.map Prod.fst ++ "ampltgquosnb".toList

theorem mem_nameCharacters (h : reference? name = some c) : ∀ d ∈ name, d ∈ nameCharacters := by
  have hdigits : ∀ {base n : Nat} {digits : List Char}, Writes base digits n →
      ∀ d ∈ digits, d ∈ nameCharacters := by
    intro base n digits h d hd
    exact List.mem_append_left _ (List.mem_append_right _ (h.mem d hd))
  have hnamed : ∀ p ∈ namedReferences, ∀ d ∈ p.1.toList, d ∈ nameCharacters := by
    simp [namedReferences, nameCharacters]
  have hmarks : ∀ d ∈ ['#', '+', 'x', 'X'], d ∈ nameCharacters := by simp [nameCharacters]
  rcases reference?_eq_some_iff.mp h with h | h
  · cases h with
    | named h => exact hnamed _ h
    | decimal h => exact List.forall_mem_cons.mpr ⟨hmarks _ (by simp), hdigits h⟩
    | hexadecimal hx h =>
      exact List.forall_mem_cons.mpr ⟨hmarks _ (by simp),
        List.forall_mem_cons.mpr ⟨hmarks _ (by rcases hx with rfl | rfl <;> simp), hdigits h⟩⟩
  · cases h with
    | decimal h =>
      exact List.forall_mem_cons.mpr ⟨hmarks _ (by simp),
        List.forall_mem_cons.mpr ⟨hmarks _ (by simp), hdigits h⟩⟩
    | hexadecimal hx h =>
      exact List.forall_mem_cons.mpr ⟨hmarks _ (by simp),
        List.forall_mem_cons.mpr ⟨hmarks _ (by rcases hx with rfl | rfl <;> simp),
          List.forall_mem_cons.mpr ⟨hmarks _ (by simp), hdigits h⟩⟩⟩

/-- **A character that no name is made of is not in a reference.** -/
theorem not_mem_of_reference? (h : reference? name = some c) {e : Char}
    (he : e ∉ nameCharacters) : e ∉ name := fun hmem => he (mem_nameCharacters h e hmem)

end MarkupEdit.Text
