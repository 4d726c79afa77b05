import Mathlib.Data.List.Induction
import Mathlib.Tactic.FinCases
import Mathlib.Tactic.IntervalCases
import MarkupEdit.Text.Digits

/-!
# What digits write

A number is read digit by digit from the left. A plus sign in front of the digits is accepted as well.

* `Writes`: digits to a base, and the number that they write.
* `baseValue?_eq_some_iff`: **what is read as a number.**
* `scalar?_eq_some_iff`: the number of a character.
-/

namespace MarkupEdit.Text

variable {base d n : Nat} {c : Char} {digits : List Char}

/-! ## One digit -/

/-- The digits up to base sixteen, and what each counts. -/
def digitValues : List (Char × Nat) :=
  "0123456789abcdef".toList.zipIdx ++ "ABCDEF".toList.zipIdx 10

theorem baseDigit?_of_mem (h : (c, d) ∈ digitValues) (hd : d < base) :
    baseDigit? base c = some d := by
  have htable : ∀ p ∈ digitValues, baseDigit? base p.1 = if p.2 < base then some p.2 else none := by
    intro p hp
    fin_cases hp <;> rfl
  rw [htable (c, d) h, if_pos hd]

theorem mem_of_baseDigit? (h : baseDigit? base c = some d) : (c, d) ∈ digitValues ∧ d < base := by
  -- a run of digits is in the table from its first to its last one
  have hrun : ∀ (first last : Char) (shift : Nat),
      (∀ k, first.toNat ≤ k → k ≤ last.toNat → (Char.ofNat k, k - shift) ∈ digitValues) →
      (first ≤ c && c ≤ last) = true →
      (if c.toNat - shift < base then some (c.toNat - shift) else none) = some d →
      (c, d) ∈ digitValues ∧ d < base := by
    intro first last shift hall hc hd
    obtain ⟨hfirst, hlast⟩ := Bool.and_eq_true _ _ |>.mp hc
    have hmem := hall c.toNat (of_decide_eq_true hfirst) (of_decide_eq_true hlast)
    rw [Char.ofNat_toNat] at hmem
    obtain ⟨hlt, hsome⟩ := Option.ite_none_right_eq_some.mp hd
    cases hsome
    exact ⟨hmem, hlt⟩
  unfold baseDigit? at h
  dsimp only at h
  by_cases h₁ : ('0' ≤ c && c ≤ '9') = true
  · rw [if_pos h₁] at h
    refine hrun '0' '9' 48 ?_ h₁ h
    simp only [Char.reduceToNat]
    intro k hfirst hlast
    interval_cases k <;> decide
  by_cases h₂ : ('a' ≤ c && c ≤ 'f') = true
  · rw [if_neg h₁, if_pos h₂] at h
    refine hrun 'a' 'f' 87 ?_ h₂ h
    simp only [Char.reduceToNat]
    intro k hfirst hlast
    interval_cases k <;> decide
  by_cases h₃ : ('A' ≤ c && c ≤ 'F') = true
  · rw [if_neg h₁, if_neg h₂, if_pos h₃] at h
    refine hrun 'A' 'F' 55 ?_ h₃ h
    simp only [Char.reduceToNat]
    intro k hfirst hlast
    interval_cases k <;> decide
  · rw [if_neg h₁, if_neg h₂, if_neg h₃, if_neg (Nat.lt_irrefl base)] at h
    cases h

/-! ## Numbers -/

/-- Digits to a base, at least one, and the number that they write. -/
inductive Writes (base : Nat) : List Char → Nat → Prop where
  | single {c : Char} {d : Nat} (hc : (c, d) ∈ digitValues) (hd : d < base) : Writes base [c] d
  | concat {digits : List Char} {c : Char} {n d : Nat} (h : Writes base digits n)
      (hc : (c, d) ∈ digitValues) (hd : d < base) : Writes base (digits ++ [c]) (n * base + d)

theorem Writes.mem (h : Writes base digits n) : ∀ c ∈ digits, c ∈ digitValues.map Prod.fst := by
  induction h with
  | single hc _ =>
    intro c hmem
    rw [List.mem_singleton.mp hmem]
    exact List.mem_map_of_mem hc
  | concat _ hc _ ih =>
    intro c hmem
    rcases List.mem_append.mp hmem with hmem | hmem
    · exact ih c hmem
    · rw [List.mem_singleton.mp hmem]
      exact List.mem_map_of_mem hc

theorem Writes.ne_nil (h : Writes base digits n) : digits ≠ [] := by
  cases h <;> simp

/-- A number is as long as its digits let it be. -/
theorem Writes.lt (h : Writes base digits n) : n < base ^ digits.length := by
  induction h with
  | single hc hd => simpa using hd
  | @concat digits c n d h hc hd ih =>
    have hstep : (n + 1) * base ≤ base ^ digits.length * base := Nat.mul_le_mul_right base ih
    rw [List.length_append, List.length_singleton, Nat.pow_succ]
    calc n * base + d < n * base + base := Nat.add_lt_add_left hd _
      _ = (n + 1) * base := (Nat.succ_mul n base).symm
      _ ≤ base ^ digits.length * base := hstep

/-- A character that counts nothing is in no number. -/
theorem Writes.not_mem (h : Writes base digits n) (hc : c ∉ digitValues.map Prod.fst) :
    c ∉ digits := fun hmem => hc (h.mem c hmem)

/-- **Digits are read from the left**, each with the number so far times the base. -/
theorem foldlM_eq_some_iff (hne : digits ≠ []) :
    digits.foldlM (fun n c => (baseDigit? base c).map (n * base + ·)) 0 = some n ↔
      Writes base digits n := by
  constructor
  · intro h
    induction digits using List.reverseRecOn generalizing n with
    | nil => exact absurd rfl hne
    | append_singleton digits c ih =>
      rw [List.foldlM_append] at h
      obtain ⟨m, hm, h⟩ := Option.bind_eq_some_iff.mp h
      rw [List.foldlM_cons] at h
      obtain ⟨k, hk, h⟩ := Option.bind_eq_some_iff.mp h
      obtain ⟨d, hd, rfl⟩ := Option.map_eq_some_iff.mp hk
      cases h
      obtain ⟨hmem, hlt⟩ := mem_of_baseDigit? hd
      by_cases hdigits : digits = []
      · subst hdigits
        cases hm
        rw [Nat.zero_mul, Nat.zero_add]
        exact .single hmem hlt
      · exact .concat (ih hdigits hm) hmem hlt
  · intro h
    induction h with
    | single hc hd =>
      rw [List.foldlM_cons, baseDigit?_of_mem hc hd, Nat.zero_mul]
      simp
    | concat h hc hd ih =>
      simp [List.foldlM_append, ih h.ne_nil, baseDigit?_of_mem hc hd]

/-- **A number is digits, with or without a plus sign in front.** -/
theorem baseValue?_eq_some_iff : baseValue? base digits = some n ↔
    Writes base digits n ∨ ∃ rest, digits = '+' :: rest ∧ Writes base rest n := by
  have hdigits : ∀ l : List Char, (if l.isEmpty then none
      else l.foldlM (fun n c => (baseDigit? base c).map (n * base + ·)) 0) = some n ↔
        Writes base l n := by
    intro l
    by_cases hl : l = []
    · subst hl
      exact iff_of_false (by simp) fun h => h.ne_nil rfl
    · have hempty : ¬ l.isEmpty = true := by simpa using hl
      rw [if_neg hempty]
      exact foldlM_eq_some_iff hl
  have hplus : ∀ rest, ¬ Writes base ('+' :: rest) n := by
    intro rest h
    exact absurd (h.mem '+' List.mem_cons_self) (by decide)
  unfold baseValue?
  split
  · next rest =>
    rw [hdigits rest]
    constructor
    · exact fun h => .inr ⟨rest, rfl, h⟩
    · rintro (h | ⟨rest', heq, h⟩)
      · exact absurd h (hplus rest)
      · cases heq
        exact h
  · next hne =>
    rw [hdigits digits]
    exact ⟨.inl, fun h => h.resolve_right fun ⟨rest, heq, _⟩ => hne rest heq⟩

/-! ## Numbers of characters -/

/-- A number is that of a character exactly if it is a scalar value. -/
theorem scalar?_eq_some_iff : scalar? n = some c ↔ c.toNat = n := by
  have hvalid := c.valid
  simp only [UInt32.isValidChar, Nat.isValidChar] at hvalid
  have hc : c.toNat = c.val.toNat := rfl
  rw [scalar?]
  constructor
  · intro h
    split at h
    · next hn =>
      have hscalar : n.isValidChar := by
        simp only [Bool.or_eq_true, Bool.and_eq_true, decide_eq_true_eq] at hn
        rw [Nat.isValidChar]
        omega
      cases h
      rw [Char.ofNat, dif_pos hscalar]
      rfl
    · cases h
  · rintro rfl
    have hn : (c.toNat < 0xd800 || (0xe000 ≤ c.toNat && c.toNat < 0x110000)) = true := by
      simp only [Bool.or_eq_true, Bool.and_eq_true, decide_eq_true_eq]
      omega
    rw [if_pos hn, Char.ofNat_toNat]

theorem bind_scalar?_eq_some_iff : (baseValue? base digits).bind scalar? = some c ↔
    Writes base digits c.toNat ∨ ∃ rest, digits = '+' :: rest ∧ Writes base rest c.toNat := by
  rw [← baseValue?_eq_some_iff, Option.bind_eq_some_iff]
  constructor
  · rintro ⟨n, hn, hc⟩
    rw [scalar?_eq_some_iff.mp hc, hn]
  · intro h
    exact ⟨c.toNat, h, scalar?_eq_some_iff.mpr rfl⟩

end MarkupEdit.Text
