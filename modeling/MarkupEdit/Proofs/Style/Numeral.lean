import Mathlib.Data.List.Induction
import Mathlib.Data.Nat.Digits.Defs
import Mathlib.Algebra.Order.Field.Rat
import Mathlib.Tactic.FieldSimp
import Mathlib.Tactic.NormNum
import Mathlib.Tactic.Ring
import MarkupEdit.Style.Length

/-!
# Numerals

A decimal numeral is digits with at most one point among them, perhaps behind a sign. It is read as a
whole number of thousandths, without any rounding. A sign is taken off the numeral before the digits in
front of its point are read as an integer, which may have a sign too.

* `Numeral`, `Numeral.value`: a numeral and the number that it writes.
* `integer?_eq_some_iff`, `fraction?_eq_some_iff`: what the digits on both sides of the point are read as.
* `magnitude?_eq_some_iff`: **what is read behind the sign**, with a sign of its own or without.
* `thousandths?_iff_numeral`: **of texts with one sign at most, just the numerals are read.**
* `thousandths?_eq_some_iff`: **all that is read**, which is the numerals and some that have two signs.
-/

namespace MarkupEdit.Style

open MarkupEdit.Text

/-! ## Digits -/

/-- The number that digits write, each counting by its place. -/
def placeValue (digits : List Char) : ℕ := Nat.ofDigits 10 (digits.reverse.map fun c => c.toNat - 48)

variable {s t whole fraction digits : List Char} {n m : ℤ}

theorem placeValue_concat (digits : List Char) (c : Char) :
    placeValue (digits ++ [c]) = placeValue digits * 10 + (c.toNat - 48) := by
  unfold placeValue
  rw [List.reverse_append, List.reverse_singleton, List.singleton_append, List.map_cons,
    Nat.ofDigits_cons]
  omega

theorem digitsValue_eq (digits : List Char) : digitsValue digits = placeValue digits := by
  induction digits using List.reverseRecOn with
  | nil => rfl
  | append_singleton digits c ih => rw [placeValue_concat, ← ih, digitsValue, List.foldl_append]; rfl

/-- Zeros behind digits make them count for more. -/
theorem placeValue_append_zeros (digits : List Char) (k : ℕ) :
    placeValue (digits ++ List.replicate k '0') = placeValue digits * 10 ^ k := by
  induction k with
  | zero => simp
  | succ k ih =>
    rw [List.replicate_succ', ← List.append_assoc, placeValue_concat, ih, pow_succ, ← mul_assoc]
    rfl

/-! ## Numerals -/

/-- What stands in front of the digits of a numeral. -/
inductive Sign where
  | bare
  | plus
  | minus
  deriving DecidableEq, Repr

namespace Sign

def text : Sign → List Char
  | bare => []
  | plus => ['+']
  | minus => ['-']

def factor : Sign → ℤ
  | bare => 1
  | plus => 1
  | minus => -1

theorem factor_cases (sign : Sign) : sign.factor = 1 ∨ sign.factor = -1 := by
  cases sign with
  | bare => exact .inl rfl
  | plus => exact .inl rfl
  | minus => exact .inr rfl

/-- The sign that a text starts with, and the rest. -/
def split : List Char → Sign × List Char
  | '-' :: rest => (minus, rest)
  | '+' :: rest => (plus, rest)
  | s => (bare, s)

theorem split_text (s : List Char) : (split s).1.text ++ (split s).2 = s := by
  unfold split
  split <;> rfl

theorem split_cases (s : List Char) : (∃ rest, s = '-' :: rest) ∨ (∃ rest, s = '+' :: rest) ∨
    (∀ rest, s ≠ '-' :: rest) ∧ (∀ rest, s ≠ '+' :: rest) ∧ split s = (bare, s) := by
  unfold split
  split
  · exact .inl ⟨_, rfl⟩
  · exact .inr (.inl ⟨_, rfl⟩)
  · next hminus hplus => exact .inr (.inr ⟨hminus, hplus, rfl⟩)

/-- Behind digits or a point no sign is looked for. -/
theorem split_eq (sign : Sign) (hs : ∀ c, s.head? = some c → c ≠ '-' ∧ c ≠ '+') :
    split (sign.text ++ s) = (sign, s) := by
  cases sign with
  | plus => rfl
  | minus => rfl
  | bare =>
    rcases split_cases s with ⟨rest, rfl⟩ | ⟨rest, rfl⟩ | ⟨-, -, hsplit⟩
    · exact absurd rfl (hs '-' rfl).1
    · exact absurd rfl (hs '+' rfl).2
    · exact hsplit

end Sign

/-- A decimal numeral: digits, at least one, with at most one point among them, and its sign. -/
structure Numeral where
  sign : Sign
  /-- The digits in front of the point. -/
  whole : List Char
  /-- The digits behind the point, if there is one. -/
  fraction : Option (List Char)
  digits : ∀ c ∈ whole ++ fraction.getD [], isAsciiDigit c = true
  ne_nil : whole ++ fraction.getD [] ≠ []

namespace Numeral

/-- The digits behind the point. -/
def decimals (x : Numeral) : List Char := x.fraction.getD []

/-- The numeral without its sign. -/
def unsigned (x : Numeral) : List Char := x.whole ++ x.fraction.elim [] ('.' :: ·)

def text (x : Numeral) : List Char := x.sign.text ++ x.unsigned

/-- What the digits in front of the point write. -/
def wholeValue (x : Numeral) : ℚ := placeValue x.whole

/-- What the digits behind the point write. -/
def fractionValue (x : Numeral) : ℚ := placeValue x.decimals / 10 ^ x.decimals.length

/-- The number that the numeral writes. -/
def value (x : Numeral) : ℚ := x.sign.factor * (x.wholeValue + x.fractionValue)

/-- The fraction in thousandths, if it has so few digits. -/
def parts (x : Numeral) : ℕ := placeValue x.decimals * 10 ^ (3 - x.decimals.length)

theorem cast_parts {x : Numeral} (h : x.decimals.length ≤ 3) :
    (x.parts : ℚ) = 1000 * x.fractionValue := by
  have hpow : (10 : ℚ) ^ (3 - x.decimals.length) * 10 ^ x.decimals.length = 1000 := by
    rw [← pow_add, Nat.sub_add_cancel h]
    norm_num
  have hne : (10 : ℚ) ^ x.decimals.length ≠ 0 := pow_ne_zero _ (by norm_num)
  rw [parts, fractionValue]
  push_cast
  field_simp
  rw [mul_assoc, hpow]

end Numeral

/-! ## What is read -/

theorem fits64?_eq_some_iff :
    fits64? n = some m ↔ n = m ∧ -9223372036854775808 ≤ m ∧ m ≤ 9223372036854775807 := by
  unfold fits64?
  simp only [Bool.and_eq_true, decide_eq_true_eq, Option.ite_none_right_eq_some,
    Option.some.injEq]
  constructor
  · rintro ⟨h, rfl⟩
    exact ⟨rfl, h⟩
  · rintro ⟨rfl, h⟩
    exact ⟨h, rfl⟩

theorem isDigits_iff : isDigits digits = true ↔ digits ≠ [] ∧ ∀ c ∈ digits, isAsciiDigit c = true := by
  simp [isDigits]

theorem ne_of_isAsciiDigit {c : Char} (h : isAsciiDigit c = true) : c ≠ '-' ∧ c ≠ '+' ∧ c ≠ '.' := by
  refine ⟨?_, ?_, ?_⟩ <;> rintro rfl <;> cases h

theorem integer?_eq (s : List Char) : integer? s =
    if isDigits (Sign.split s).2 then
      fits64? ((Sign.split s).1.factor * placeValue (Sign.split s).2)
    else none := by
  rcases Sign.split_cases s with ⟨rest, rfl⟩ | ⟨rest, rfl⟩ | ⟨hminus, hplus, hsplit⟩
  · simp [integer?, Sign.split, Sign.factor, digitsValue_eq]
  · simp [integer?, Sign.split, Sign.factor, digitsValue_eq]
  · rw [hsplit, integer?, digitsValue_eq]
    · simp [Sign.factor]
    · exact hminus
    · exact hplus

/-- **An integer is digits, perhaps behind a sign.** -/
theorem integer?_eq_some_iff : integer? s = some n ↔
    ∃ (sign : Sign) (digits : List Char), s = sign.text ++ digits ∧ isDigits digits = true ∧
      n = sign.factor * placeValue digits ∧ -9223372036854775808 ≤ n ∧ n ≤ 9223372036854775807 := by
  constructor
  · intro h
    rw [integer?_eq, Option.ite_none_right_eq_some, fits64?_eq_some_iff] at h
    obtain ⟨hdigits, hn, hfits⟩ := h
    exact ⟨_, _, (Sign.split_text s).symm, hdigits, hn.symm, hfits⟩
  · rintro ⟨sign, digits, rfl, hdigits, hn, hfits⟩
    have hhead : ∀ c, digits.head? = some c → c ≠ '-' ∧ c ≠ '+' := fun c hc =>
      have hne := ne_of_isAsciiDigit ((isDigits_iff.mp hdigits).2 c (List.mem_of_head? hc))
      ⟨hne.1, hne.2.1⟩
    rw [integer?_eq, Sign.split_eq sign hhead, if_pos hdigits]
    exact fits64?_eq_some_iff.mpr ⟨hn.symm, hfits⟩

/-- **A fraction is at most three digits**, perhaps none. -/
theorem fraction?_eq_some_iff {f : ℕ} : fraction? s = some f ↔
    s.length ≤ 3 ∧ (∀ c ∈ s, isAsciiDigit c = true) ∧ f = placeValue s * 10 ^ (3 - s.length) := by
  rw [fraction?, digitsValue_eq, placeValue_append_zeros, Option.ite_none_right_eq_some,
    Bool.and_eq_true, decide_eq_true_eq, List.all_eq_true, Option.some.injEq, and_assoc,
    eq_comm (a := f)]

/-- The number of thousandths that a text without its sign is read as. -/
def magnitude? (s : List Char) : Option ℤ :=
  let (whole, fraction) := (splitFirst? (· == '.') s).getD (s, [])
  if whole.isEmpty && fraction.isEmpty then none
  else
    match fraction? fraction, (if whole.isEmpty then some 0 else integer? whole) with
    | some f, some w => (fits64? (w * 1000)).bind (fun n => fits64? (n + f))
    | _, _ => none

theorem magnitude?_bind (s : List Char) (k : ℤ → Option ℤ) : (magnitude? s).bind k =
    let (whole, fraction) := (splitFirst? (· == '.') s).getD (s, [])
    if whole.isEmpty && fraction.isEmpty then none
    else
      match fraction? fraction, (if whole.isEmpty then some 0 else integer? whole) with
      | some f, some w => ((fits64? (w * 1000)).bind (fun n => fits64? (n + f))).bind k
      | _, _ => none := by
  unfold magnitude?
  dsimp only
  split
  · rfl
  · split <;> rfl

theorem thousandths?_eq (s : List Char) : thousandths? s =
    (magnitude? (Sign.split s).2).bind fun n => fits64? ((Sign.split s).1.factor * n) := by
  rcases Sign.split_cases s with ⟨rest, rfl⟩ | ⟨rest, rfl⟩ | ⟨hminus, hplus, hsplit⟩
  · have hneg : (fun n => fits64? (Sign.minus.factor * n)) = fun n => fits64? (-n) :=
      funext fun n => congrArg fits64? (by simp [Sign.factor])
    rw [Sign.split, hneg, magnitude?_bind]
    rfl
  · have hid : (fun n => fits64? (Sign.plus.factor * n)) = fits64? :=
      funext fun n => congrArg fits64? (by simp [Sign.factor])
    rw [Sign.split, hid, magnitude?_bind]
    rfl
  · have hid : (fun n => fits64? (Sign.bare.factor * n)) = fits64? :=
      funext fun n => congrArg fits64? (by simp [Sign.factor])
    rw [hsplit, hid, magnitude?_bind, thousandths?]
    · rfl
    · exact hminus
    · exact hplus

/-- In front of the point there is an integer or nothing. -/
theorem wholePart_eq_some_iff : (if s.isEmpty then some 0 else integer? s) = some n ↔
    ∃ (sign : Sign) (digits : List Char), s = sign.text ++ digits ∧
      (∀ c ∈ digits, isAsciiDigit c = true) ∧ (sign = .bare ∨ digits ≠ []) ∧
      n = sign.factor * placeValue digits ∧ -9223372036854775808 ≤ n ∧ n ≤ 9223372036854775807 := by
  by_cases hs : s = []
  · subst hs
    rw [List.isEmpty_nil, if_pos rfl, Option.some.injEq]
    constructor
    · rintro rfl
      exact ⟨.bare, [], rfl, fun _ hc => absurd hc List.not_mem_nil, .inl rfl, rfl, by omega⟩
    · rintro ⟨sign, digits, htext, -, -, hn, -⟩
      obtain ⟨-, rfl⟩ := List.append_eq_nil_iff.mp htext.symm
      rw [hn]
      exact (mul_zero _).symm
  · rw [if_neg (by simpa using hs), integer?_eq_some_iff]
    refine exists_congr fun sign => exists_congr fun digits => and_congr_right fun htext => ?_
    rw [isDigits_iff]
    constructor
    · rintro ⟨⟨hne, hdigits⟩, hn⟩
      exact ⟨hdigits, .inr hne, hn⟩
    · rintro ⟨hdigits, hne, hn⟩
      refine ⟨⟨?_, hdigits⟩, hn⟩
      rintro rfl
      rcases hne with rfl | hne
      · exact hs htext
      · exact hne rfl

theorem sign_text_no_point (sign : Sign) (h : ∀ c ∈ digits, isAsciiDigit c = true) :
    '.' ∉ sign.text ++ digits := by
  intro hmem
  rcases List.mem_append.mp hmem with hmem | hmem
  · cases sign <;> simp [Sign.text] at hmem
  · exact (ne_of_isAsciiDigit (h '.' hmem)).2.2 rfl

/-- A numeral is cut at its point. -/
theorem Numeral.cut (x : Numeral) : (splitFirst? (· == '.') x.text).getD (x.text, []) =
    (x.sign.text ++ x.whole, x.decimals) := by
  have hwhole := sign_text_no_point x.sign fun c hc => x.digits c (List.mem_append_left _ hc)
  cases hx : x.fraction with
  | none =>
    have htext : x.text = x.sign.text ++ x.whole := by simp [text, unsigned, hx]
    rw [htext, splitFirst?_eq_none_iff.mpr hwhole]
    simp [decimals, hx]
  | some fraction =>
    have htext : x.text = (x.sign.text ++ x.whole) ++ '.' :: fraction := by
      simp [text, unsigned, hx]
    rw [htext, splitFirst?_eq_some_iff.mpr ⟨rfl, hwhole⟩]
    simp [decimals, hx]

/-- A text that is cut in two as numerals are. -/
theorem exists_numeral {sign : Sign}
    (hcut : (splitFirst? (· == '.') s).getD (s, []) = (sign.text ++ digits, fraction))
    (hdigits : ∀ c ∈ digits, isAsciiDigit c = true) (hfraction : ∀ c ∈ fraction, isAsciiDigit c = true)
    (hne : digits ++ fraction ≠ []) :
    ∃ x : Numeral, s = x.text ∧ x.sign = sign ∧ x.whole = digits ∧ x.decimals = fraction := by
  have hall : ∀ c ∈ digits ++ fraction, isAsciiDigit c = true := by
    intro c hc
    rcases List.mem_append.mp hc with hc | hc
    · exact hdigits c hc
    · exact hfraction c hc
  cases hsplit : splitFirst? (· == '.') s with
  | none =>
    rw [hsplit] at hcut
    obtain ⟨rfl, rfl⟩ := Prod.mk.inj hcut
    exact ⟨⟨sign, digits, none, hall, hne⟩, by simp [Numeral.text, Numeral.unsigned], rfl, rfl, rfl⟩
  | some pieces =>
    obtain ⟨whole, rest⟩ := pieces
    rw [hsplit] at hcut
    obtain ⟨rfl, rfl⟩ := Prod.mk.inj hcut
    refine ⟨⟨sign, digits, some rest, hall, hne⟩, ?_, rfl, rfl, rfl⟩
    rw [(splitFirst?_eq_some_iff.mp hsplit).1]
    simp [Numeral.text, Numeral.unsigned]

theorem magnitude?_of_cut (hcut : (splitFirst? (· == '.') s).getD (s, []) = (whole, fraction)) :
    magnitude? s = some n ↔ ¬ (whole = [] ∧ fraction = []) ∧ ∃ f w, fraction? fraction = some f ∧
      (if whole.isEmpty then some 0 else integer? whole) = some w ∧
      -9223372036854775808 ≤ w * 1000 ∧ w * 1000 ≤ 9223372036854775807 ∧ w * 1000 + f = n ∧
      -9223372036854775808 ≤ n ∧ n ≤ 9223372036854775807 := by
  unfold magnitude?
  rw [hcut]
  dsimp only
  by_cases hnil : whole = [] ∧ fraction = []
  · rw [if_pos (by simp [hnil])]
    exact iff_of_false nofun fun h => h.1 hnil
  rw [if_neg (by simpa using hnil)]
  constructor
  · intro h
    split at h
    · next f w hf hw =>
      obtain ⟨a, ha, h⟩ := Option.bind_eq_some_iff.mp h
      obtain ⟨rfl, hlow, hhigh⟩ := fits64?_eq_some_iff.mp ha
      exact ⟨hnil, f, w, hf, hw, hlow, hhigh, fits64?_eq_some_iff.mp h⟩
    · cases h
  · rintro ⟨-, f, w, hf, hw, hlow, hhigh, hn⟩
    rw [hf, hw]
    dsimp only
    rw [fits64?_eq_some_iff.mpr ⟨rfl, hlow, hhigh⟩, Option.bind_some]
    exact fits64?_eq_some_iff.mpr hn

/-- **What is read behind the sign**: a numeral, which may have a sign in front of its whole part. -/
theorem magnitude?_eq_some_iff : magnitude? s = some n ↔
    ∃ x : Numeral, s = x.text ∧ (x.sign = .bare ∨ x.whole ≠ []) ∧ x.decimals.length ≤ 3 ∧
      1000 * placeValue x.whole ≤ 9223372036854775807 ∧ n ≤ 9223372036854775807 ∧
      n = x.sign.factor * (1000 * placeValue x.whole) + x.parts := by
  constructor
  · intro h
    obtain ⟨⟨whole, fraction⟩, hcut⟩ : ∃ pieces, (splitFirst? (· == '.') s).getD (s, []) = pieces :=
      ⟨_, rfl⟩
    obtain ⟨hne, f, w, hf, hw, hlow, hhigh, hn, hfits⟩ := (magnitude?_of_cut hcut).mp h
    obtain ⟨hlength, hfraction, hf⟩ := fraction?_eq_some_iff.mp hf
    obtain ⟨sign, digits, rfl, hdigits, hsigned, hw, -⟩ := wholePart_eq_some_iff.mp hw
    have hsome : digits ++ fraction ≠ [] := by
      intro hnil
      obtain ⟨rfl, rfl⟩ := List.append_eq_nil_iff.mp hnil
      rcases hsigned with rfl | hdigits
      · exact hne ⟨rfl, rfl⟩
      · exact hdigits rfl
    obtain ⟨x, rfl, rfl, rfl, rfl⟩ := exists_numeral hcut hdigits hfraction hsome
    refine ⟨x, rfl, hsigned, hlength, ?_, hfits.2, ?_⟩
    · rcases x.sign.factor_cases with hfactor | hfactor <;> rw [hfactor] at hw <;> omega
    · rw [← hn, hw, hf, Numeral.parts]
      ring
  · rintro ⟨x, rfl, hsigned, hlength, hwhole, hhigh, hn⟩
    refine (magnitude?_of_cut x.cut).mpr ⟨?_, x.parts, x.sign.factor * placeValue x.whole, ?_, ?_, ?_⟩
    · rintro ⟨hwhole, hdecimals⟩
      obtain ⟨-, hwhole⟩ := List.append_eq_nil_iff.mp hwhole
      exact x.ne_nil (List.append_eq_nil_iff.mpr ⟨hwhole, hdecimals⟩)
    · exact fraction?_eq_some_iff.mpr
        ⟨hlength, fun c hc => x.digits c (List.mem_append_right _ hc), rfl⟩
    · refine wholePart_eq_some_iff.mpr
        ⟨x.sign, x.whole, rfl, fun c hc => x.digits c (List.mem_append_left _ hc), hsigned, rfl, ?_⟩
      rcases x.sign.factor_cases with hfactor | hfactor <;> rw [hfactor] <;> omega
    · rcases x.sign.factor_cases with hfactor | hfactor <;> rw [hfactor] at hn ⊢ <;> omega

theorem Numeral.mem_unsigned {x : Numeral} {c : Char} (h : c ∈ x.unsigned) :
    isAsciiDigit c = true ∨ c = '.' := by
  rcases List.mem_append.mp h with h | h
  · exact .inl (x.digits c (List.mem_append_left _ h))
  · cases hx : x.fraction with
    | none =>
      rw [hx] at h
      exact absurd h List.not_mem_nil
    | some fraction =>
      rw [hx] at h
      rcases List.mem_cons.mp h with rfl | h
      · exact .inr rfl
      · exact .inl (x.digits c (List.mem_append_right _ (by rw [hx]; exact h)))

/-- There is no sign among the digits and the point. -/
theorem Numeral.ne_sign {x : Numeral} {c : Char} (h : c ∈ x.unsigned) : c ≠ '-' ∧ c ≠ '+' := by
  rcases mem_unsigned h with h | rfl
  · exact ⟨(ne_of_isAsciiDigit h).1, (ne_of_isAsciiDigit h).2.1⟩
  · decide

theorem Numeral.split_text (x : Numeral) : Sign.split x.text = (x.sign, x.unsigned) :=
  Sign.split_eq x.sign fun _ hc => ne_sign (List.mem_of_head? hc)

/-- **All that is read as thousandths**: a numeral behind a sign or none, where only behind a sign the
numeral may have one of its own, which counts for its whole part alone. -/
theorem thousandths?_cases : thousandths? s = some n ↔
    ∃ (first : Sign) (x : Numeral), s = first.text ++ x.text ∧ (first = .bare → x.sign = .bare) ∧
      (x.sign = .bare ∨ x.whole ≠ []) ∧ x.decimals.length ≤ 3 ∧
      1000 * placeValue x.whole ≤ 9223372036854775807 ∧ n.natAbs ≤ 9223372036854775807 ∧
      n = first.factor * (x.sign.factor * (1000 * placeValue x.whole) + x.parts) := by
  rw [thousandths?_eq, Option.bind_eq_some_iff]
  constructor
  · rintro ⟨m, hm, hn⟩
    obtain ⟨x, hx, hsigned, hlength, hwhole, hhigh, hvalue⟩ := magnitude?_eq_some_iff.mp hm
    obtain ⟨hn, -⟩ := fits64?_eq_some_iff.mp hn
    have htext : s = (Sign.split s).1.text ++ x.text := by rw [← hx, Sign.split_text]
    refine ⟨(Sign.split s).1, x, htext, fun hbare => ?_, hsigned, hlength, hwhole, ?_, ?_⟩
    · rw [hbare, Sign.text, List.nil_append] at htext
      rw [htext, x.split_text] at hbare
      exact hbare
    · rcases (Sign.split s).1.factor_cases with hfirst | hfirst <;>
        rcases x.sign.factor_cases with hfactor | hfactor <;>
        rw [hfirst] at hn <;> rw [hfactor] at hvalue <;> omega
    · rw [← hvalue, hn]
  · rintro ⟨first, x, rfl, hbare, hsigned, hlength, hwhole, hfits, hn⟩
    have hsplit : Sign.split (first.text ++ x.text) = (first, x.text) := by
      cases first with
      | bare =>
        have htext : x.text = x.unsigned := by rw [Numeral.text, hbare rfl]; rfl
        rw [Sign.text, List.nil_append, x.split_text, hbare rfl, htext]
      | plus => rfl
      | minus => rfl
    rw [hsplit]
    refine ⟨_, magnitude?_eq_some_iff.mpr ⟨x, rfl, hsigned, hlength, hwhole, ?_, rfl⟩, ?_⟩
    · rcases first.factor_cases with hfirst | hfirst <;> rw [hfirst] at hn <;> omega
    · refine fits64?_eq_some_iff.mpr ⟨hn.symm, ?_⟩
      omega

/-! ## Numerals in thousandths -/

/-- `n` is the numeral in thousandths. Nothing is rounded, and it fits in 64 bits. -/
structure Numeral.InThousandths (x : Numeral) (n : ℤ) : Prop where
  places : x.decimals.length ≤ 3
  fits : |1000 * x.value| ≤ 9223372036854775807
  value : (n : ℚ) = 1000 * x.value

theorem Numeral.cast_thousandths {x : Numeral} (h : x.decimals.length ≤ 3) :
    ((x.sign.factor * (1000 * placeValue x.whole + x.parts) : ℤ) : ℚ) = 1000 * x.value := by
  push_cast
  rw [cast_parts h, value, wholeValue]
  ring

theorem Numeral.inThousandths_iff {x : Numeral} : x.InThousandths n ↔ x.decimals.length ≤ 3 ∧
    n.natAbs ≤ 9223372036854775807 ∧ n = x.sign.factor * (1000 * placeValue x.whole + x.parts) := by
  constructor
  · rintro ⟨hlength, hfits, hvalue⟩
    rw [← hvalue] at hfits
    rw [← cast_thousandths hlength] at hvalue
    refine ⟨hlength, ?_, by exact_mod_cast hvalue⟩
    have habs : |n| ≤ 9223372036854775807 := by exact_mod_cast hfits
    rw [Int.abs_eq_natAbs] at habs
    omega
  · rintro ⟨hlength, hfits, hn⟩
    have hvalue : (n : ℚ) = 1000 * x.value := by rw [hn, cast_thousandths hlength]
    refine ⟨hlength, ?_, hvalue⟩
    have habs : |n| ≤ 9223372036854775807 := by
      rw [Int.abs_eq_natAbs]
      omega
    rw [← hvalue]
    exact_mod_cast habs

theorem Numeral.exists_inThousandths {x : Numeral} (hplaces : x.decimals.length ≤ 3)
    (hfits : |1000 * x.value| ≤ 9223372036854775807) : ∃ n, x.InThousandths n :=
  ⟨_, hplaces, hfits, cast_thousandths hplaces⟩

/-- A numeral with another sign. -/
def Numeral.signed (x : Numeral) (sign : Sign) : Numeral := { x with sign := sign }

theorem Numeral.signed_text {x : Numeral} (hbare : x.sign = .bare) (sign : Sign) :
    (x.signed sign).text = sign.text ++ x.text := by
  have htext : x.text = x.unsigned := by rw [text, hbare]; rfl
  rw [htext]
  rfl

/-- A sign and a numeral without one are one numeral. -/
theorem exists_bare_iff : (∃ (first : Sign) (x : Numeral), s = first.text ++ x.text ∧ x.sign = .bare ∧
      x.decimals.length ≤ 3 ∧ n.natAbs ≤ 9223372036854775807 ∧
      n = first.factor * (1000 * placeValue x.whole + x.parts)) ↔
    ∃ x : Numeral, s = x.text ∧ x.InThousandths n := by
  constructor
  · rintro ⟨first, x, rfl, hbare, hlength, hfits, hn⟩
    exact ⟨x.signed first, (Numeral.signed_text hbare first).symm,
      Numeral.inThousandths_iff.mpr ⟨hlength, hfits, hn⟩⟩
  · rintro ⟨x, rfl, hx⟩
    obtain ⟨hlength, hfits, hn⟩ := Numeral.inThousandths_iff.mp hx
    exact ⟨x.sign, x.signed .bare, rfl, rfl, hlength, hfits, hn⟩

/-- **Of texts with one sign at most, just the numerals are read**, each exactly. -/
theorem thousandths?_iff_numeral (hs : ∀ c ∈ s.tail, c ≠ '-' ∧ c ≠ '+') :
    thousandths? s = some n ↔ ∃ x : Numeral, s = x.text ∧ x.InThousandths n := by
  rw [thousandths?_cases, ← exists_bare_iff]
  refine exists_congr fun first => exists_congr fun x => and_congr_right fun htext => ?_
  constructor
  · rintro ⟨hfirst, -, hlength, -, hfits, hn⟩
    have hbare : x.sign = .bare := by
      by_cases hone : first = .bare
      · exact hfirst hone
      -- Behind a sign there is no other one.
      · have htail : s.tail = x.text := by
          rw [htext]
          cases first with
          | bare => exact absurd rfl hone
          | plus => rfl
          | minus => rfl
        rw [htail, Numeral.text] at hs
        cases hsign : x.sign with
        | bare => rfl
        | plus => exact absurd rfl (hs '+' (by rw [hsign]; exact List.mem_cons_self)).2
        | minus => exact absurd rfl (hs '-' (by rw [hsign]; exact List.mem_cons_self)).1
    rw [hbare, Sign.factor, one_mul] at hn
    exact ⟨hbare, hlength, hfits, hn⟩
  · rintro ⟨hbare, hlength, hfits, hn⟩
    have hwhole : 1000 * placeValue x.whole ≤ 9223372036854775807 := by
      rcases first.factor_cases with hfirst | hfirst <;> rw [hfirst] at hn <;> omega
    refine ⟨fun _ => hbare, .inl hbare, hlength, hwhole, hfits, ?_⟩
    rw [hn, hbare, Sign.factor, one_mul]

/-- `n` is the numeral behind one more sign in thousandths. The sign of the numeral counts for the
digits in front of its point alone. -/
structure Numeral.InThousandthsBehind (x : Numeral) (first : Sign) (n : ℤ) : Prop where
  behind : first ≠ .bare
  signed : x.sign ≠ .bare
  whole : x.whole ≠ []
  places : x.decimals.length ≤ 3
  wholeFits : 1000 * x.wholeValue ≤ 9223372036854775807
  fits : |(n : ℚ)| ≤ 9223372036854775807
  value : (n : ℚ) = 1000 * (first.factor * (x.sign.factor * x.wholeValue + x.fractionValue))

theorem Numeral.inThousandthsBehind_iff {x : Numeral} {first : Sign} :
    x.InThousandthsBehind first n ↔ (first ≠ .bare ∧ x.sign ≠ .bare ∧ x.whole ≠ []) ∧
      x.decimals.length ≤ 3 ∧ 1000 * placeValue x.whole ≤ 9223372036854775807 ∧
      n.natAbs ≤ 9223372036854775807 ∧
      n = first.factor * (x.sign.factor * (1000 * placeValue x.whole) + x.parts) := by
  have hcast : x.decimals.length ≤ 3 →
      ((first.factor * (x.sign.factor * (1000 * placeValue x.whole) + x.parts) : ℤ) : ℚ) =
        1000 * (first.factor * (x.sign.factor * x.wholeValue + x.fractionValue)) := by
    intro hlength
    push_cast
    rw [cast_parts hlength, wholeValue]
    ring
  constructor
  · rintro ⟨hfirst, hsign, hne, hlength, hwhole, hfits, hvalue⟩
    rw [← hcast hlength] at hvalue
    have habs : |n| ≤ 9223372036854775807 := by exact_mod_cast hfits
    rw [Int.abs_eq_natAbs] at habs
    unfold wholeValue at hwhole
    exact ⟨⟨hfirst, hsign, hne⟩, hlength, by exact_mod_cast hwhole, by omega,
      by exact_mod_cast hvalue⟩
  · rintro ⟨⟨hfirst, hsign, hne⟩, hlength, hwhole, hfits, hn⟩
    have habs : |n| ≤ 9223372036854775807 := by
      rw [Int.abs_eq_natAbs]
      omega
    refine ⟨hfirst, hsign, hne, hlength, ?_, by exact_mod_cast habs, by rw [← hcast hlength, hn]⟩
    unfold wholeValue
    exact_mod_cast hwhole

/-- **What is read as thousandths**: the numerals, each exactly, and numerals that have both a sign of
their own and one more in front of it. -/
theorem thousandths?_eq_some_iff : thousandths? s = some n ↔
    (∃ x : Numeral, s = x.text ∧ x.InThousandths n) ∨
      ∃ (first : Sign) (x : Numeral), s = first.text ++ x.text ∧ x.InThousandthsBehind first n := by
  rw [thousandths?_cases, ← exists_bare_iff]
  constructor
  · rintro ⟨first, x, htext, hfirst, hsigned, hlength, hwhole, hfits, hn⟩
    by_cases hbare : x.sign = .bare
    · refine .inl ⟨first, x, htext, hbare, hlength, hfits, ?_⟩
      rw [hn, hbare, Sign.factor, one_mul]
    · exact .inr ⟨first, x, htext, Numeral.inThousandthsBehind_iff.mpr
        ⟨⟨fun hone => hbare (hfirst hone), hbare, hsigned.resolve_left hbare⟩,
          hlength, hwhole, hfits, hn⟩⟩
  · rintro (⟨first, x, htext, hbare, hlength, hfits, hn⟩ | ⟨first, x, htext, hx⟩)
    · have hwhole : 1000 * placeValue x.whole ≤ 9223372036854775807 := by
        rcases first.factor_cases with hfirst | hfirst <;> rw [hfirst] at hn <;> omega
      refine ⟨first, x, htext, fun _ => hbare, .inl hbare, hlength, hwhole, hfits, ?_⟩
      rw [hn, hbare, Sign.factor, one_mul]
    · obtain ⟨⟨hfirst, -, hne⟩, hread⟩ := Numeral.inThousandthsBehind_iff.mp hx
      exact ⟨first, x, htext, fun hone => absurd hone hfirst, .inr hne, hread⟩

/-- Two signs are read though no numeral has them: the digits behind the first one are read as an
integer, whose own sign turns the number round once more. -/
theorem thousandths?_two_signs : thousandths? "--5".toList = some 5000 ∧
    ¬ ∃ x : Numeral, "--5".toList = x.text := by
  refine ⟨by decide +kernel, ?_⟩
  rintro ⟨x, hx⟩
  have hsplit := x.split_text
  rw [← hx] at hsplit
  have hunsigned : x.unsigned = ['-', '5'] := (congrArg Prod.snd hsplit).symm
  exact (Numeral.ne_sign (hunsigned ▸ List.mem_cons_self : '-' ∈ x.unsigned)).1 rfl

end MarkupEdit.Style
