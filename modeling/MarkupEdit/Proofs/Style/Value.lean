import MarkupEdit.Style.Key

/-!
# Values behind a stem

Some stems take values of several kinds: lengths, colours and images. What stands in brackets behind
such a stem decides which group the class is in.

* `isNumeric`, `isImage`, `isColorText`: what a value looks like.
* `groupOfValue?_numeric`, `groupOfValue?_image`, `groupOfValue?_color`: **the group of such a value
  in brackets.**
* `ConflictGroup.isSteady`: groups that take all values behind their stems.
-/

namespace MarkupEdit.Style

open MarkupEdit.Text

/-- Whether a value starts like a numeral. -/
def isNumeric (w : List Char) : Bool :=
  (w.head?.map (fun c => isAsciiDigit c || c == '.')).getD false

/-- Whether a value is the address of an image or a gradient. -/
def isImage (w : List Char) : Bool := startsWithAny ["url("] w || hasPart "gradient(".toList w

/-- Whether a value is a word or starts as colours do. -/
def isColorText (w : List Char) : Bool := isSmallWord w || startsWithAny bracketedColorStarts w

/-! ## Values in brackets -/

variable {s value w : List Char} {name : String} {group : ConflictGroup}

theorem isSome_dropStart?_iff : (dropStart? s w).isSome ↔ s <+: w := by
  rw [Option.isSome_iff_exists]
  simp only [dropStart?_eq_some_iff]
  exact ⟨fun ⟨rest, h⟩ => ⟨rest, h.symm⟩, fun ⟨rest, h⟩ => ⟨rest, h.symm⟩⟩

theorem hasPart_iff : hasPart s w ↔ s <:+: w := by
  induction w with
  | nil =>
    rw [hasPart, splitAt?, List.infix_nil]
    cases s <;> simp
  | cons c w ih =>
    rw [hasPart, splitAt?, List.infix_cons_iff, ← isSome_dropStart?_iff, ← ih, hasPart]
    cases dropStart? s (c :: w) <;> simp

/-- The closing bracket takes no part in the start of a text without one. -/
theorem isSome_dropStart?_close (h : ']' ∉ s) :
    (dropStart? s (w ++ [']'])).isSome = (dropStart? s w).isSome := by
  rw [Bool.eq_iff_iff, isSome_dropStart?_iff, isSome_dropStart?_iff, List.prefix_concat_iff]
  refine or_iff_right ?_
  rintro rfl
  exact h (List.mem_append_right _ (List.mem_singleton_self _))

theorem hasPart_close (hs : s ≠ []) (h : ']' ∉ s) : hasPart s (w ++ [']']) = hasPart s w := by
  rw [Bool.eq_iff_iff, hasPart_iff, hasPart_iff, List.infix_concat_iff]
  refine or_iff_right ?_
  rw [List.suffix_concat_iff]
  rintro (rfl | ⟨t, rfl, -⟩)
  · exact hs rfl
  · exact h (List.mem_append_right _ (List.mem_singleton_self _))

theorem startsWithAny_close {starts : List String} (h : ∀ start ∈ starts, ']' ∉ start.toList) :
    startsWithAny starts (w ++ [']']) = startsWithAny starts w := by
  rw [Bool.eq_iff_iff, startsWithAny, startsWithAny, List.any_eq_true, List.any_eq_true]
  refine exists_congr fun start => and_congr_right fun hstart => ?_
  rw [isSome_dropStart?_close (h start hstart)]

theorem isBracketedColor_close : isBracketedColor (w ++ [']']) = isColorText w := by
  have hword : dropEnd? [']'] (w ++ [']']) = some w := dropEnd?_eq_some_iff.mpr rfl
  have hstarts : ∀ start ∈ bracketedColorStarts, ']' ∉ start.toList := by decide +kernel
  rw [isBracketedColor, hword, startsWithAny_close hstarts]
  rfl

theorem isImage_close : isImage (w ++ [']']) = isImage w := by
  have hstarts : ∀ start ∈ ["url("], ']' ∉ start.toList := by decide +kernel
  rw [isImage, startsWithAny_close hstarts, hasPart_close (by decide +kernel) (by decide +kernel),
    isImage]

/-- The group of a value in brackets, if it is taken for a length or an image. -/
theorem bracketedGroup?_close (hw : w ≠ []) :
    bracketedGroup? name ('[' :: (w ++ [']'])) =
      if isNumeric w then lengthGroup? name
      else if isImage w then imageGroup? name
      else none := by
  rw [bracketedGroup?, ← isImage_close]
  cases w with
  | nil => exact absurd rfl hw
  | cons c w => rfl

/-- A length in brackets behind a stem for colours. -/
theorem groupOfValue?_numeric (hw : w ≠ []) (hnumeric : isNumeric w)
    (hgroup : lengthGroup? group.name = some name) :
    groupOfValue? group ('[' :: (w ++ [']'])) = some name := by
  rw [groupOfValue?, bracketedGroup?_close hw, if_pos hnumeric, hgroup]

/-- An image in brackets behind a stem for colours. -/
theorem groupOfValue?_image (hw : w ≠ []) (hnumeric : isNumeric w = false) (himage : isImage w)
    (hgroup : imageGroup? group.name = some name) :
    groupOfValue? group ('[' :: (w ++ [']'])) = some name := by
  rw [groupOfValue?, bracketedGroup?_close hw, if_neg (ne_true_of_eq_false hnumeric),
    if_pos himage, hgroup]

/-- A colour in brackets behind a stem for colours. -/
theorem groupOfValue?_color (hw : w ≠ []) (hnumeric : isNumeric w = false)
    (himage : isImage w = false ∨ imageGroup? group.name = none) (hcolor : isColorText w)
    (hgroup : colorGroup? group.name = none) :
    groupOfValue? group ('[' :: (w ++ [']'])) = some group.name := by
  have hbracketed : bracketedGroup? group.name ('[' :: (w ++ [']'])) = none := by
    rw [bracketedGroup?_close hw, if_neg (ne_true_of_eq_false hnumeric)]
    rcases himage with h | h
    · rw [if_neg (ne_true_of_eq_false h)]
    · rw [h, ite_self]
  have hcolor : isColor ('[' :: (w ++ [']'])) = true := isBracketedColor_close.trans hcolor
  rw [groupOfValue?, hbracketed, hgroup]
  simp only [hcolor, Bool.not_true, Bool.and_false]
  rfl

/-- A colour with a name behind a stem for colours. -/
theorem groupOfValue?_named (hvalue : value.head? ≠ some '[') (hcolor : isColor value)
    (hgroup : colorGroup? group.name = none) :
    groupOfValue? group value = some group.name := by
  have hbracketed : bracketedGroup? group.name value = none := by
    rw [bracketedGroup?]
    rintro inside rfl
    exact hvalue rfl
  rw [groupOfValue?, hbracketed, hgroup]
  simp only [hcolor, Bool.not_true, Bool.and_false]
  rfl

/-- Whether all values behind the stems of a group belong to that group. -/
def ConflictGroup.isSteady (group : ConflictGroup) : Bool :=
  (lengthGroup? group.name).isNone && (imageGroup? group.name).isNone &&
    (colorGroup? group.name).isNone && group.category != .color

theorem groupOfValue?_of_isSteady (h : group.isSteady) :
    groupOfValue? group value = some group.name := by
  simp only [ConflictGroup.isSteady, Bool.and_eq_true, Option.isNone_iff_eq_none, bne_iff_ne] at h
  obtain ⟨⟨⟨hlength, himage⟩, hcolor⟩, hcategory⟩ := h
  have hbracketed : bracketedGroup? group.name value = none := by
    unfold bracketedGroup?
    split
    · rw [hlength, himage, ite_self, ite_self]
    · rfl
  rw [groupOfValue?, hbracketed, hcolor]
  simp only [beq_eq_false_iff_ne.mpr hcategory, Bool.false_and]
  rfl

end MarkupEdit.Style
