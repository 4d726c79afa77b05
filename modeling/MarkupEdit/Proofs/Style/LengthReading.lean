import MarkupEdit.Proofs.Style.Numeral
import MarkupEdit.Proofs.Style.Spelling
import MarkupEdit.Proofs.Text.Trimming

/-!
# How lengths are read

A length is a numeral with a unit right behind it. The text is cut where the characters of numerals end,
and a sign is one of them only at the start. So the numeral is read without a second sign, and since no
unit starts like the inside of a numeral, every way to write a length is cut in the right place.

* `LengthUnit.ofName?_eq_some_iff`: units in any case.
* `Length.numeralLength_numeral`: where a numeral with a unit behind it is cut.
* `Length.parse?_exact`: **what texts are lengths, and that lengths are read exactly.**
-/

namespace MarkupEdit.Style

open MarkupEdit.Text

variable {s unitText : List Char} {c : Char}

/-! ## Units -/

/-- A unit is read from its name in any case. -/
theorem LengthUnit.ofName?_eq_some_iff {text : String} {unit : LengthUnit} :
    ofName? text = some unit ↔ asciiLower text = unit.name := by
  unfold ofName?
  constructor
  · intro h
    have hfound := List.find?_some h
    exact (eq_of_beq hfound).symm
  · intro h
    rw [h]
    cases unit <;> decide

/-- The characters of a numeral behind its first one. -/
def isNumeralInside (c : Char) : Bool := isAsciiDigit c || c == '.'

theorem isNumeralInside_iff : isNumeralInside c = true ↔ isAsciiDigit c = true ∨ c = '.' := by
  simp [isNumeralInside]

theorem toLower_of_isNumeralInside (h : isNumeralInside c = true) : c.toLower = c := by
  refine toLower_of_not_isUpper (Bool.eq_false_iff.mpr fun hupper => ?_)
  have houtside := forall_isUpper (p := fun c => isNumeralInside c = false) (by decide) hupper
  rw [h] at houtside
  cases houtside

/-- No unit starts like the inside of a numeral. -/
theorem LengthUnit.head_name (unit : LengthUnit) :
    ∀ c ∈ unit.name.toList.head?, isNumeralInside c = false := by
  intro c hc
  cases unit <;> cases hc <;> rfl

theorem LengthUnit.head_written {unit : LengthUnit}
    (h : asciiLower (String.ofList unitText) = unit.name) :
    ∀ c ∈ unitText.head?, isNumeralInside c = false := by
  intro c hc
  by_contra hinside
  rw [Bool.not_eq_false] at hinside
  have hhead : c ∈ unit.name.toList.head? := by
    rw [← h, asciiLower, String.toList_ofList, String.toList_ofList, List.head?_map, hc,
      Option.map_some, toLower_of_isNumeralInside hinside]
    rfl
  rw [unit.head_name c hhead] at hinside
  cases hinside

/-! ## The cut -/

namespace Length

/-- Whether a text for a numeral may start with the character. -/
def startsNumeral (c : Char) : Bool := isAsciiDigit c || c == '.' || c == '-' || c == '+'

theorem numeralLength_cons (c : Char) (s : List Char) : numeralLength (c :: s) =
    if startsNumeral c then (s.takeWhile isNumeralInside).length + 1 else 0 := rfl

end Length

/-- A numeral starts with a sign, a digit or the point, and goes on with digits and the point. -/
theorem Numeral.text_eq_cons (x : Numeral) : ∃ c rest, x.text = c :: rest ∧
    Length.startsNumeral c = true ∧ ∀ d ∈ rest, isNumeralInside d = true := by
  have hinside : ∀ c ∈ x.unsigned, isNumeralInside c = true := fun c hc =>
    isNumeralInside_iff.mpr (Numeral.mem_unsigned hc)
  cases hsign : x.sign with
  | plus => exact ⟨'+', x.unsigned, by rw [text, hsign]; rfl, rfl, hinside⟩
  | minus => exact ⟨'-', x.unsigned, by rw [text, hsign]; rfl, rfl, hinside⟩
  | bare =>
    have htext : x.text = x.unsigned := by rw [text, hsign]; rfl
    cases hunsigned : x.unsigned with
    | nil =>
      obtain ⟨hwhole, hpoint⟩ := List.append_eq_nil_iff.mp hunsigned
      have hfraction : x.fraction = none := by
        cases hx : x.fraction with
        | none => rfl
        | some fraction =>
          rw [hx] at hpoint
          cases hpoint
      exact absurd (List.append_eq_nil_iff.mpr ⟨hwhole, by rw [hfraction]; rfl⟩) x.ne_nil
    | cons c rest =>
      rw [hunsigned] at hinside
      have hc := hinside c List.mem_cons_self
      refine ⟨c, rest, by rw [htext, hunsigned], ?_, fun d hd => hinside d (List.mem_cons_of_mem _ hd)⟩
      rcases isNumeralInside_iff.mp hc with hc | rfl
      · simp [Length.startsNumeral, hc]
      · rfl

namespace Length

/-- Behind a numeral with a unit there is the cut. -/
theorem numeralLength_numeral (x : Numeral) (hunit : ∀ c ∈ unitText.head?, isNumeralInside c = false) :
    numeralLength (x.text ++ unitText) = x.text.length := by
  obtain ⟨c, rest, htext, hc, hrest⟩ := x.text_eq_cons
  rw [htext, List.cons_append, numeralLength_cons, if_pos hc, takeWhile_append_of_head hrest hunit]
  rfl

/-- In front of the cut there is a sign only at the start. -/
theorem no_sign_in_tail (s : List Char) :
    ∀ c ∈ (s.take (numeralLength s)).tail, c ≠ '-' ∧ c ≠ '+' := by
  intro c hc
  cases s with
  | nil => cases hc
  | cons d s =>
    rw [numeralLength_cons] at hc
    split at hc
    · rw [List.take_succ_cons, List.tail_cons,
        List.prefix_iff_eq_take.mp (List.takeWhile_prefix isNumeralInside) |>.symm] at hc
      rcases isNumeralInside_iff.mp (List.mem_takeWhile_imp hc) with hc | rfl
      · exact ⟨(ne_of_isAsciiDigit hc).1, (ne_of_isAsciiDigit hc).2.1⟩
      · decide
    · cases hc

theorem parse?_eq_some_iff {text : String} {l : Length} : parse? text = some l ↔
    LengthUnit.ofName? (String.ofList ((trim text.toList).drop (numeralLength (trim text.toList)))) =
        some l.unit ∧
      thousandths? ((trim text.toList).take (numeralLength (trim text.toList))) =
        some l.thousandths := by
  unfold parse?
  dsimp only
  constructor
  · intro h
    split at h
    · next unit magnitude hunit hmagnitude =>
      cases h
      exact ⟨hunit, hmagnitude⟩
    · cases h
  · rintro ⟨hunit, hmagnitude⟩
    rw [hunit, hmagnitude]

/-- A text is read as a length exactly if it is a numeral and a unit. -/
theorem parse?_iff_numeral {text : String} {l : Length} : parse? text = some l ↔
    ∃ (x : Numeral) (unitText : List Char), trim text.toList = x.text ++ unitText ∧
      asciiLower (String.ofList unitText) = l.unit.name ∧ x.InThousandths l.thousandths := by
  rw [parse?_eq_some_iff, LengthUnit.ofName?_eq_some_iff,
    thousandths?_iff_numeral (no_sign_in_tail _)]
  constructor
  · rintro ⟨hunit, x, htext, hx⟩
    exact ⟨x, _, by rw [← htext, List.take_append_drop], hunit, hx⟩
  · rintro ⟨x, unitText, htrim, hunit, hx⟩
    rw [htrim, numeralLength_numeral x (LengthUnit.head_written hunit), List.drop_left,
      List.take_left]
    exact ⟨hunit, x, rfl, hx⟩

/-- **Lengths are read exactly.** A text is a length if it is, between its blanks, a numeral with at
most three decimals and right behind it a unit in any case, and if a thousand times the number fits in 64
bits. The length is then the number itself in thousandths, and no other text is a length. -/
theorem parse?_exact (text : String) :
    ((parse? text).isSome = true ↔ ∃ (x : Numeral) (unitText : List Char) (unit : LengthUnit),
      trim text.toList = x.text ++ unitText ∧ asciiLower (String.ofList unitText) = unit.name ∧
        x.decimals.length ≤ 3 ∧ |1000 * x.value| ≤ 9223372036854775807) ∧
    ∀ l, parse? text = some l ↔ ∃ (x : Numeral) (unitText : List Char),
      trim text.toList = x.text ++ unitText ∧ asciiLower (String.ofList unitText) = l.unit.name ∧
        x.InThousandths l.thousandths := by
  refine ⟨?_, fun l => parse?_iff_numeral⟩
  rw [Option.isSome_iff_exists]
  constructor
  · rintro ⟨l, h⟩
    obtain ⟨x, unitText, htrim, hunit, hx⟩ := parse?_iff_numeral.mp h
    exact ⟨x, unitText, l.unit, htrim, hunit, hx.places, hx.fits⟩
  · rintro ⟨x, unitText, unit, htrim, hunit, hplaces, hfits⟩
    obtain ⟨n, hn⟩ := Numeral.exists_inThousandths hplaces hfits
    exact ⟨⟨n, unit⟩, parse?_iff_numeral.mpr ⟨x, unitText, htrim, hunit, hn⟩⟩

example : parse? " -0.25REM\n" = some ⟨-250, .rem⟩ := by decide +kernel

end Length

end MarkupEdit.Style
