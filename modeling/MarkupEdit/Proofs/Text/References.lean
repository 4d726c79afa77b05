import MarkupEdit.Proofs.Text.ReferenceGrammar
import MarkupEdit.Text.Blank

/-!
# References in a text

Decoding replaces a reference by one character, and a reference has at least three. So a text stays as
it is exactly if it holds no reference, and gets shorter otherwise.

* `HoldsReference`: a text has a reference in it.
* `decodeReferences_cons`: what decoding makes of the start of a text.
* `decodeReferences_cases`: **decoding makes a text with a reference shorter, and keeps any other as
  it is.**
* `decodeReferences_append_blank`: **the parts of a text around a blank are decoded apart.**
* `decodeReferences_intercalate`: the parts of a text between spaces are decoded apart.
-/

namespace MarkupEdit.Text

variable {s name rest : List Char} {c d : Char}

/-- A text has a reference in it: a name between `&` and the next semicolon that stands for a
character. -/
def HoldsReference (s : List Char) : Prop :=
  ∃ front name back c, s = front ++ '&' :: (name ++ ';' :: back) ∧ ';' ∉ name ∧
    reference? name = some c

/-! ## Decoding step by step -/

theorem decodeReferences_cons_of_ne (h : c ≠ '&') :
    decodeReferences (c :: s) = c :: decodeReferences s := by
  rw [decodeReferences, if_neg (by simpa using h)]

/-- A text without `&` stays as it is. -/
theorem decodeReferences_of_not_mem (h : '&' ∉ s) : decodeReferences s = s := by
  induction s with
  | nil => rw [decodeReferences]
  | cons c s ih =>
    rw [List.mem_cons, not_or] at h
    rw [decodeReferences_cons_of_ne (Ne.symm h.1), ih h.2]

theorem decodeReferences_of_reference (h : reference? name = some c) (hname : ';' ∉ name) :
    decodeReferences ('&' :: (name ++ ';' :: rest)) = c :: decodeReferences rest := by
  have hname' : splitFirst? (· == ';') (name ++ ';' :: rest) = some (name, rest) :=
    splitFirst?_eq_some_iff.mpr ⟨rfl, hname⟩
  rw [decodeReferences, if_pos (beq_self_eq_true '&')]
  split
  · next hsplit =>
    rw [hname'] at hsplit
    cases hsplit
  · next hsplit =>
    rw [hname', Option.some.injEq, Prod.mk.injEq] at hsplit
    obtain ⟨rfl, rfl⟩ := hsplit
    dsimp only
    rw [h]

theorem decodeReferences_of_no_reference
    (h : ∀ name rest, s = name ++ ';' :: rest → ';' ∉ name → reference? name = none) :
    decodeReferences ('&' :: s) = '&' :: decodeReferences s := by
  rw [decodeReferences, if_pos (beq_self_eq_true '&')]
  split
  · rfl
  · next name rest hsplit =>
    obtain ⟨hs, hname⟩ := splitFirst?_eq_some_iff.mp hsplit
    dsimp only
    rw [h name rest hs hname]

/-- A text starts with a reference, or decoding keeps its first character. -/
theorem decodeReferences_cons (c : Char) (s : List Char) :
    (∃ name rest d, c = '&' ∧ s = name ++ ';' :: rest ∧ ';' ∉ name ∧ reference? name = some d ∧
      decodeReferences (c :: s) = d :: decodeReferences rest) ∨
    ((¬ ∃ name rest d, c = '&' ∧ s = name ++ ';' :: rest ∧ ';' ∉ name ∧
        reference? name = some d) ∧
      decodeReferences (c :: s) = c :: decodeReferences s) := by
  by_cases hc : c = '&'
  · subst hc
    by_cases h : ∃ name rest d, s = name ++ ';' :: rest ∧ ';' ∉ name ∧ reference? name = some d
    · obtain ⟨name, rest, d, rfl, hname, hd⟩ := h
      exact .inl ⟨name, rest, d, rfl, rfl, hname, hd, decodeReferences_of_reference hd hname⟩
    · refine .inr ⟨fun ⟨name, rest, d, _, hs⟩ => h ⟨name, rest, d, hs⟩, ?_⟩
      refine decodeReferences_of_no_reference fun name rest hs hname => ?_
      cases hd : reference? name with
      | none => rfl
      | some d => exact absurd ⟨name, rest, d, hs, hname, hd⟩ h
  · exact .inr ⟨fun ⟨_, _, _, heq, _⟩ => hc heq, decodeReferences_cons_of_ne hc⟩

/-! ## Texts without references -/

/-- A text with a reference starts with one, or has one behind its first character. -/
theorem holdsReference_cons_iff : HoldsReference (c :: s) ↔
    (∃ name rest d, c = '&' ∧ s = name ++ ';' :: rest ∧ ';' ∉ name ∧ reference? name = some d) ∨
      HoldsReference s := by
  constructor
  · rintro ⟨front, name, back, d, hs, hname, hd⟩
    cases front with
    | nil =>
      obtain ⟨hc, hs⟩ := List.cons.inj hs
      exact .inl ⟨name, back, d, hc, hs, hname, hd⟩
    | cons e front => exact .inr ⟨front, name, back, d, (List.cons.inj hs).2, hname, hd⟩
  · rintro (⟨name, rest, d, rfl, rfl, hname, hd⟩ | ⟨front, name, back, d, rfl, hname, hd⟩)
    · exact ⟨[], name, rest, d, rfl, hname, hd⟩
    · exact ⟨c :: front, name, back, d, rfl, hname, hd⟩

theorem length_decodeReferences_le (s : List Char) : (decodeReferences s).length ≤ s.length := by
  induction hn : s.length using Nat.strongRecOn generalizing s with
  | ind n ih =>
    subst hn
    cases s with
    | nil => exact Nat.le_of_eq (by rw [decodeReferences])
    | cons c s =>
      rcases decodeReferences_cons c s with ⟨name, rest, d, -, rfl, -, -, hdecode⟩ | ⟨-, hdecode⟩
      · have hrest := ih rest.length (by simp; omega) rest rfl
        rw [hdecode, List.length_cons, List.length_cons, List.length_append, List.length_cons]
        omega
      · have hs := ih s.length (Nat.lt_succ_self _) s rfl
        rw [hdecode, List.length_cons, List.length_cons]
        omega

/-- **Decoding makes a text with a reference shorter, and keeps any other as it is.** -/
theorem decodeReferences_cases (s : List Char) :
    (HoldsReference s ∧ (decodeReferences s).length < s.length) ∨
      (¬ HoldsReference s ∧ decodeReferences s = s) := by
  induction s with
  | nil =>
    refine .inr ⟨?_, by rw [decodeReferences]⟩
    rintro ⟨front, name, back, d, hs, -⟩
    exact absurd hs.symm (List.append_ne_nil_of_right_ne_nil front (List.cons_ne_nil _ _))
  | cons c s ih =>
    rcases decodeReferences_cons c s with
      ⟨name, rest, d, rfl, rfl, hname, hd, hdecode⟩ | ⟨hnone, hdecode⟩
    · -- the reference becomes one character, and what is behind it does not grow
      have hrest := length_decodeReferences_le rest
      refine .inl ⟨holdsReference_cons_iff.mpr (.inl ⟨name, rest, d, rfl, rfl, hname, hd⟩), ?_⟩
      rw [hdecode, List.length_cons, List.length_cons, List.length_append, List.length_cons]
      omega
    · rw [hdecode, holdsReference_cons_iff]
      rcases ih with ⟨hs, hlt⟩ | ⟨hs, heq⟩
      · exact .inl ⟨.inr hs, Nat.succ_lt_succ hlt⟩
      · exact .inr ⟨fun h => h.elim hnone hs, by rw [heq]⟩

/-! ## Blanks -/

/-- **The name of a reference holds no blank.** -/
theorem blank_not_mem_of_reference? {blank : Char} (hblank : isBlank blank = true)
    (h : reference? name = some c) : blank ∉ name := by
  have hall : nameCharacters.all (fun e => !isBlank e) = true := by decide
  refine not_mem_of_reference? h fun hmem => ?_
  have hnot := List.all_eq_true.mp hall blank hmem
  rw [hblank] at hnot
  cases hnot

/-- A reference ends in front of the next blank. -/
theorem exists_reference_of_append {blank : Char} {t : List Char} (hblank : isBlank blank = true)
    (h : s ++ blank :: t = name ++ ';' :: rest) (hname : blank ∉ name) :
    ∃ rest', s = name ++ ';' :: rest' := by
  rcases List.append_eq_append_iff.mp h with ⟨x, hx, htail⟩ | ⟨x, rfl, htail⟩
  · cases x with
    | nil =>
      rw [(List.cons.inj htail).1] at hblank
      exact absurd hblank (by decide)
    | cons d x =>
      obtain ⟨rfl, -⟩ := List.cons.inj htail
      rw [hx] at hname
      exact absurd (List.mem_append_right _ List.mem_cons_self) hname
  · cases x with
    | nil =>
      rw [← (List.cons.inj htail).1] at hblank
      exact absurd hblank (by decide)
    | cons d x =>
      obtain ⟨rfl, -⟩ := List.cons.inj htail
      exact ⟨x, rfl⟩

/-- **What is in front of a blank is decoded apart from what is behind it.** -/
theorem decodeReferences_append_blank {blank : Char} (hblank : isBlank blank = true)
    (s t : List Char) :
    decodeReferences (s ++ blank :: t) = decodeReferences s ++ blank :: decodeReferences t := by
  induction hn : s.length using Nat.strongRecOn generalizing s with
  | ind n ih =>
    subst hn
    cases s with
    | nil =>
      have hne : blank ≠ '&' := fun heq => absurd hblank (by rw [heq]; decide)
      rw [List.nil_append, decodeReferences_cons_of_ne hne, decodeReferences]
      rfl
    | cons c s =>
      rcases decodeReferences_cons c s with
        ⟨name, rest, d, rfl, rfl, hname, hd, hdecode⟩ | ⟨hnone, hdecode⟩
      · rw [hdecode, List.cons_append, List.append_assoc, List.cons_append,
          decodeReferences_of_reference hd hname, ih rest.length (by simp; omega) rest rfl]
        rfl
      · rw [hdecode, List.cons_append]
        rcases decodeReferences_cons c (s ++ blank :: t) with
          ⟨name, rest, d, hc, happend, hname, hd, -⟩ | ⟨-, hdecode'⟩
        · obtain ⟨rest', hs⟩ := exists_reference_of_append hblank happend
            (blank_not_mem_of_reference? hblank hd)
          exact absurd ⟨name, rest', d, hc, hs, hname, hd⟩ hnone
        · rw [hdecode', ih s.length (Nat.lt_succ_self _) s rfl]
          rfl

theorem decodeReferences_intercalate (ws : List (List Char)) :
    decodeReferences ([' '].intercalate ws) = [' '].intercalate (ws.map decodeReferences) := by
  induction ws with
  | nil => exact decodeReferences.eq_1
  | cons w ws ih =>
    cases ws with
    | nil => rw [List.map_singleton, List.intercalate_singleton, List.intercalate_singleton]
    | cons v ws =>
      rw [List.intercalate_cons_cons, List.append_assoc, List.singleton_append,
        decodeReferences_append_blank (by decide), ih, List.map_cons, List.map_cons, List.map_cons,
        List.intercalate_cons_cons, List.append_assoc, List.singleton_append]

end MarkupEdit.Text
