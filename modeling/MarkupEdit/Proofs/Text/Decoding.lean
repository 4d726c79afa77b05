import MarkupEdit.Proofs.Text.References

/-!
# What decoding makes of a text

A text is read from the left. Where a reference begins, its character takes the place of it, up to the
next semicolon; any other character stays, another `&` among them. Decoding does so for everything that
it accepts, which is every reference and, beyond them, numbers with a plus sign.

* `Decoded`: a text, and what is read of it.
* `decodeReferences_eq_iff`: what decoding gives, by what is accepted.
* `length_le_of_decoded`: a number with a sign makes the text shorter than it should be.
* `decodeReferences_exact`: **decoding replaces exactly the references, unless there is such a number.**
* `decodeReferences_signed`: a number with a sign is replaced.
-/

namespace MarkupEdit.Text

variable {stands : List Char → Char → Prop} {s t t' name rest : List Char} {c d : Char}

/-! ## Reading from the left -/

/-- A text begins with a name between `&` and the next semicolon that stands for a character. -/
def Begins (stands : List Char → Char → Prop) (s : List Char) : Prop :=
  ∃ name rest c, s = '&' :: (name ++ ';' :: rest) ∧ ';' ∉ name ∧ stands name c

/-- **A text and what is read of it** from the left, if names stand for characters. -/
inductive Decoded (stands : List Char → Char → Prop) : List Char → List Char → Prop where
  | nil : Decoded stands [] []
  | reference {name rest t : List Char} {c : Char} (hname : ';' ∉ name) (hc : stands name c)
      (h : Decoded stands rest t) : Decoded stands ('&' :: (name ++ ';' :: rest)) (c :: t)
  | kept {c : Char} {s t : List Char} (hnone : ¬ Begins stands (c :: s))
      (h : Decoded stands s t) : Decoded stands (c :: s) (c :: t)

/-- A name ends at the next semicolon, so there is only one. -/
theorem name_unique {name' rest' : List Char} (h : name ++ ';' :: rest = name' ++ ';' :: rest')
    (hname : ';' ∉ name) (hname' : ';' ∉ name') : name = name' ∧ rest = rest' := by
  have hsplit : splitFirst? (· == ';') (name ++ ';' :: rest) = some (name, rest) :=
    splitFirst?_eq_some_iff.mpr ⟨rfl, hname⟩
  have hsplit' := splitFirst?_eq_some_iff.mpr ⟨h, hname'⟩
  rw [hsplit, Option.some.injEq, Prod.mk.injEq] at hsplit'
  exact hsplit'

/-- **The first step**: a reference, or a character that stays. -/
theorem Decoded.cons_cases (h : Decoded stands (c :: s) t) :
    (∃ name rest d u, c = '&' ∧ s = name ++ ';' :: rest ∧ ';' ∉ name ∧ stands name d ∧
      t = d :: u ∧ Decoded stands rest u) ∨
    (¬ Begins stands (c :: s) ∧ ∃ u, t = c :: u ∧ Decoded stands s u) := by
  generalize hs : c :: s = whole at h
  cases h with
  | nil => cases hs
  | reference hname hd hrest =>
    obtain ⟨rfl, rfl⟩ := List.cons.inj hs
    exact .inl ⟨_, _, _, _, rfl, rfl, hname, hd, rfl, hrest⟩
  | kept hnone hrest =>
    obtain ⟨rfl, rfl⟩ := List.cons.inj hs
    exact .inr ⟨hnone, _, rfl, hrest⟩

/-- A text is read in one way. -/
theorem Decoded.unique (hstands : ∀ name c d, stands name c → stands name d → c = d)
    (h : Decoded stands s t) (h' : Decoded stands s t') : t = t' := by
  induction h generalizing t' with
  | nil =>
    cases h'
    rfl
  | @reference name rest t c hname hc _ ih =>
    rcases h'.cons_cases with ⟨name', rest', d, u, -, hs, hname', hd, rfl, hrest⟩ | ⟨hnone, -⟩
    · obtain ⟨rfl, rfl⟩ := name_unique hs hname hname'
      rw [hstands _ c d hc hd, ih hrest]
    · exact absurd ⟨name, rest, c, rfl, hname, hc⟩ hnone
  | @kept c s t hnone _ ih =>
    rcases h'.cons_cases with ⟨name, rest, d, u, rfl, rfl, hname, hd, -, -⟩ | ⟨-, u, rfl, hrest⟩
    · exact absurd ⟨name, rest, d, rfl, hname, hd⟩ hnone
    · rw [ih hrest]

/-- A text without `&` is read as it is. -/
theorem Decoded.of_not_mem (h : '&' ∉ s) : Decoded stands s s := by
  induction s with
  | nil => exact .nil
  | cons c s ih =>
    obtain ⟨hc, hs⟩ := not_or.mp (mt List.mem_cons.mpr h)
    refine .kept ?_ (ih hs)
    rintro ⟨name, rest, d, heq, -⟩
    exact hc (List.cons.inj heq).1.symm

/-! ## What decoding accepts -/

/-- A reference, or a number with a sign. -/
def Accepted (name : List Char) (c : Char) : Prop := Stands name c ∨ Signed name c

theorem Accepted.unique (name : List Char) (c d : Char) (hc : Accepted name c)
    (hd : Accepted name d) : c = d := by
  have hc' := reference?_eq_some_iff.mpr hc
  rw [reference?_eq_some_iff.mpr hd] at hc'
  exact (Option.some.inj hc').symm

theorem decoded_decodeReferences (s : List Char) : Decoded Accepted s (decodeReferences s) := by
  induction hn : s.length using Nat.strongRecOn generalizing s with
  | ind n ih =>
    subst hn
    cases s with
    | nil =>
      rw [decodeReferences]
      exact .nil
    | cons c s =>
      rcases decodeReferences_cons c s with
        ⟨name, rest, d, rfl, rfl, hname, hd, hdecode⟩ | ⟨hnone, hdecode⟩
      · have hrest := ih rest.length (by simp; omega) rest rfl
        rw [hdecode]
        exact .reference hname (reference?_eq_some_iff.mp hd) hrest
      · have hs := ih s.length (Nat.lt_succ_self _) s rfl
        rw [hdecode]
        refine .kept ?_ hs
        rintro ⟨name, rest, d, heq, hname, hd⟩
        obtain ⟨rfl, rfl⟩ := List.cons.inj heq
        exact hnone ⟨name, rest, d, rfl, rfl, hname, reference?_eq_some_iff.mpr hd⟩

/-- **What decoding gives** is what is read of a text by the names that are accepted. -/
theorem decodeReferences_eq_iff : decodeReferences s = t ↔ Decoded Accepted s t := by
  constructor
  · rintro rfl
    exact decoded_decodeReferences s
  · exact (decoded_decodeReferences s).unique Accepted.unique

/-! ## Numbers with a sign -/

/-- A text has a number with a sign in it, between `&` and the next semicolon. -/
def HoldsSigned (s : List Char) : Prop :=
  ∃ front name back c, s = front ++ '&' :: (name ++ ';' :: back) ∧ Signed name c

/-- A name holds neither of the characters around it. -/
theorem Accepted.not_mem (h : Accepted name c) : '&' ∉ name ∧ ';' ∉ name := by
  have hname := reference?_eq_some_iff.mpr h
  exact ⟨not_mem_of_reference? hname (by decide), not_mem_of_reference? hname (by decide)⟩

theorem not_signed_of_stands (h : Stands name c) : ¬ Signed name d := by
  have hplus : ∀ {base n : Nat} {digits : List Char}, Writes base digits n → '+' ∉ digits := by
    intro base n digits h hmem
    exact absurd (h.mem '+' hmem) (by decide)
  intro hsigned
  have hmem : '#' ∈ name ∧ '+' ∈ name := by
    cases hsigned with
    | decimal h => simp
    | hexadecimal hx h => simp
  cases h with
  | named h =>
    have hall : ∀ p ∈ namedReferences, '#' ∉ p.1.toList := by decide
    exact hall _ h hmem.1
  | decimal h =>
    have := hplus h
    simp_all
  | hexadecimal hx h =>
    have := hplus h
    rcases hx with rfl | rfl <;> simp_all

theorem holdsSigned_cons_iff : HoldsSigned (c :: s) ↔ Begins Signed (c :: s) ∨ HoldsSigned s := by
  constructor
  · rintro ⟨front, name, back, d, hs, hd⟩
    cases front with
    | nil => exact .inl ⟨name, back, d, hs, (Accepted.not_mem (.inr hd)).2, hd⟩
    | cons e front => exact .inr ⟨front, name, back, d, (List.cons.inj hs).2, hd⟩
  · rintro (⟨name, back, d, hs, -, hd⟩ | ⟨front, name, back, d, rfl, hd⟩)
    · exact ⟨[], name, back, d, hs, hd⟩
    · exact ⟨c :: front, name, back, d, rfl, hd⟩

/-- What is behind a part without `&` is where the numbers are. -/
theorem holdsSigned_append {a b : List Char} (ha : '&' ∉ a) :
    HoldsSigned (a ++ b) ↔ HoldsSigned b := by
  induction a with
  | nil => rfl
  | cons e a ih =>
    obtain ⟨he, ha⟩ := not_or.mp (mt List.mem_cons.mpr ha)
    rw [List.cons_append, holdsSigned_cons_iff, ih ha]
    refine or_iff_right ?_
    rintro ⟨name, rest, d, hs, -⟩
    exact he (List.cons.inj hs).1.symm

/-- A part without `&` stays as it is. -/
theorem Decoded.append {a b : List Char} (ha : '&' ∉ a) (h : Decoded stands (a ++ b) t) :
    ∃ u, t = a ++ u ∧ Decoded stands b u := by
  induction a generalizing t with
  | nil => exact ⟨t, rfl, h⟩
  | cons e a ih =>
    obtain ⟨he, ha⟩ := not_or.mp (mt List.mem_cons.mpr ha)
    rcases h.cons_cases with ⟨_, _, _, _, rfl, _⟩ | ⟨-, u, rfl, hrest⟩
    · exact absurd rfl he
    · obtain ⟨v, rfl, hv⟩ := ih ha hrest
      exact ⟨v, rfl, hv⟩

/-- **A number with a sign makes the text shorter** than replacing references alone does. -/
theorem length_le_of_decoded (h : Decoded Stands s t) (h' : Decoded Accepted s t') :
    t'.length ≤ t.length ∧ (HoldsSigned s → t'.length < t.length) := by
  induction hn : s.length using Nat.strongRecOn generalizing s t t' with
  | ind n ih =>
    subst hn
    cases s with
    | nil =>
      cases h
      cases h'
      refine ⟨Nat.le_refl _, ?_⟩
      rintro ⟨front, name, back, d, hs, -⟩
      simp at hs
    | cons c s =>
      rcases h.cons_cases with ⟨name, rest, d, u, rfl, rfl, hname, hd, rfl, hu⟩ | ⟨hnone, u, rfl, hu⟩
      · -- a reference is accepted as well, and no number with a sign overlaps with it
        rcases h'.cons_cases with
          ⟨name', rest', d', u', -, hs, hname', -, rfl, hu'⟩ | ⟨hnone, -⟩
        · obtain ⟨rfl, rfl⟩ := name_unique hs hname hname'
          obtain ⟨hle, hlt⟩ := ih rest.length (by simp; omega) hu hu' rfl
          refine ⟨Nat.succ_le_succ hle, fun hsigned => Nat.succ_lt_succ (hlt ?_)⟩
          have hamp : '&' ∉ name ++ [';'] := by
            simpa using (Accepted.not_mem (.inl hd)).1
          rcases holdsSigned_cons_iff.mp hsigned with ⟨name', rest', e, hs, hname', he⟩ | hsigned
          · obtain ⟨rfl, -⟩ := name_unique (List.cons.inj hs).2 hname hname'
            exact absurd he (not_signed_of_stands hd)
          · rwa [← List.singleton_append, ← List.append_assoc, holdsSigned_append hamp] at hsigned
        · exact absurd ⟨name, rest, d, rfl, hname, .inl hd⟩ hnone
      · rcases h'.cons_cases with
          ⟨name, rest, d, u', rfl, rfl, hname, hd, rfl, hu'⟩ | ⟨hnone', u', rfl, hu'⟩
        · -- a number with a sign is replaced, of which every character should stay
          have hamp : '&' ∉ name ++ [';'] := by simpa using (Accepted.not_mem hd).1
          rw [← List.singleton_append, ← List.append_assoc] at hu
          obtain ⟨v, rfl, hv⟩ := hu.append hamp
          obtain ⟨hle, -⟩ := ih rest.length (by simp; omega) hv hu' rfl
          have hlt : u'.length < (name ++ [';'] ++ v).length := by
            simp only [List.length_append, List.length_singleton]
            omega
          exact ⟨Nat.succ_le_succ (Nat.le_of_lt hlt), fun _ => Nat.succ_lt_succ hlt⟩
        · obtain ⟨hle, hlt⟩ := ih s.length (Nat.lt_succ_self _) hu hu' rfl
          refine ⟨Nat.succ_le_succ hle, fun hsigned => Nat.succ_lt_succ (hlt ?_)⟩
          rcases holdsSigned_cons_iff.mp hsigned with ⟨name, rest, d, hs, hname, hd⟩ | hsigned
          · exact absurd ⟨name, rest, d, hs, hname, .inr hd⟩ hnone'
          · exact hsigned

/-- Without such a number, references alone are accepted. -/
theorem Decoded.of_accepted (h : Decoded Accepted s t) (hnone : ¬ HoldsSigned s) :
    Decoded Stands s t := by
  induction h with
  | nil => exact .nil
  | @reference name rest t c hname hc _ ih =>
    rcases hc with hc | hc
    · refine .reference hname hc (ih fun ⟨front, name', back, d, hs, hd⟩ => hnone ?_)
      exact ⟨'&' :: (name ++ ';' :: front), name', back, d, by simp [hs], hd⟩
    · exact absurd ⟨[], name, rest, c, rfl, hc⟩ hnone
  | @kept c s t hbegins _ ih =>
    refine .kept ?_ (ih fun hsigned => hnone (holdsSigned_cons_iff.mpr (.inr hsigned)))
    rintro ⟨name, rest, d, hs, hname, hd⟩
    exact hbegins ⟨name, rest, d, hs, hname, .inl hd⟩

/-- **Decoding replaces exactly the references of a text**, unless the text holds a number with a plus
sign. From the left, each name between `&` and the next semicolon that is one of the six, or `#` and
decimal digits, or `#x` or `#X` and digits to base sixteen, if they write the number of a character,
gives way to its character, and every other character stays. A number with a plus sign is replaced as
well, and nothing else is. -/
theorem decodeReferences_exact (s : List Char) :
    (∀ t, decodeReferences s = t ↔ Decoded (fun name c => Stands name c ∨ Signed name c) s t) ∧
      (Decoded Stands s (decodeReferences s) ↔ ¬ HoldsSigned s) := by
  refine ⟨fun t => decodeReferences_eq_iff, ?_, (decoded_decodeReferences s).of_accepted⟩
  intro h hsigned
  have hlt := (length_le_of_decoded h (decoded_decodeReferences s)).2 hsigned
  exact absurd hlt (Nat.lt_irrefl _)

/-- **A number with a plus sign is decoded**, though it is no reference and should stay. -/
theorem decodeReferences_signed :
    decodeReferences "&#+65;".toList = "A".toList ∧
      Decoded Stands "&#+65;".toList "&#+65;".toList ∧
      ¬ Decoded Stands "&#+65;".toList "A".toList := by
  have hdigits : Writes 10 ['6', '5'] 'A'.toNat := (foldlM_eq_some_iff (by decide)).mp rfl
  have hsigned : Signed "#+65".toList 'A' := .decimal hdigits
  have hread : Decoded Accepted ('&' :: ("#+65".toList ++ ';' :: [])) "A".toList :=
    .reference (by decide) (.inr hsigned) .nil
  have hstays : Decoded Stands "&#+65;".toList "&#+65;".toList := by
    refine .kept ?_ (.of_not_mem (by decide))
    rintro ⟨name, rest, c, hs, hname, hc⟩
    have hwhole : "#+65".toList ++ ';' :: [] = name ++ ';' :: rest := (List.cons.inj hs).2
    obtain ⟨rfl, -⟩ := name_unique hwhole (by decide) hname
    exact not_signed_of_stands hc hsigned
  refine ⟨decodeReferences_eq_iff.mpr hread, hstays, ?_⟩
  intro h
  have heq := hstays.unique (fun name c d hc hd => Accepted.unique name c d (.inl hc) (.inl hd)) h
  exact absurd heq (by decide)

end MarkupEdit.Text
