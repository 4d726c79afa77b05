import MarkupEdit.Text.Point

/-!
# Slices

Parts of a text between two bytes of its UTF-8 form. A text can be cut only between characters; a
slice that would have to cut a character is empty.

* `IsBoundary`: a byte offset that lies between two characters or at an end.
* `slice`: the part of a text between two byte offsets.
* `slice_of_append`: what a slice of a concatenation is.
* `slice_append`: slices that meet make up one slice.
-/

namespace MarkupEdit.Text

/-- The text behind its first `n` bytes, if they are whole characters. -/
def dropBytes? : Nat → List Char → Option (List Char)
  | 0, s => some s
  | _ + 1, [] => none
  | n + 1, c :: s => if c.utf8Size ≤ n + 1 then dropBytes? (n + 1 - c.utf8Size) s else none

/-- The first `n` bytes of a text, if they are whole characters. -/
def takeBytes? : Nat → List Char → Option (List Char)
  | 0, _ => some []
  | _ + 1, [] => none
  | n + 1, c :: s =>
    if c.utf8Size ≤ n + 1 then (takeBytes? (n + 1 - c.utf8Size) s).map (c :: ·) else none

/-- The part of a text between two byte offsets, if both are between characters. -/
def slice (s : List Char) (start stop : Nat) : String :=
  if stop ≤ start then ""
  else String.ofList (((dropBytes? start s).bind (takeBytes? (stop - start))).getD [])

/-- Some start of the text has exactly `n` bytes. -/
def IsBoundary (s : List Char) (n : Nat) : Prop := ∃ l r, s = l ++ r ∧ byteSize l = n

theorem byteSize_eq_zero {s : List Char} (h : byteSize s = 0) : s = [] := by
  cases s with
  | nil => rfl
  | cons c s =>
    have := c.utf8Size_pos
    rw [byteSize_cons] at h
    omega

/-- Dropping as many bytes as the first part has leaves the second. -/
theorem dropBytes?_append (l r : List Char) : dropBytes? (byteSize l) (l ++ r) = some r := by
  induction l with
  | nil => cases r <;> rfl
  | cons c l ih =>
    have hc := c.utf8Size_pos
    obtain ⟨n, hn⟩ : ∃ n, byteSize (c :: l) = n + 1 := ⟨byteSize (c :: l) - 1, by
      rw [byteSize_cons]; omega⟩
    rw [hn, List.cons_append, dropBytes?]
    rw [byteSize_cons] at hn
    rw [if_pos (by omega), show n + 1 - c.utf8Size = byteSize l by omega, ih]

/-- Taking as many bytes as the first part has gives that part. -/
theorem takeBytes?_append (l r : List Char) : takeBytes? (byteSize l) (l ++ r) = some l := by
  induction l with
  | nil => cases r <;> rfl
  | cons c l ih =>
    have hc := c.utf8Size_pos
    obtain ⟨n, hn⟩ : ∃ n, byteSize (c :: l) = n + 1 := ⟨byteSize (c :: l) - 1, by
      rw [byteSize_cons]; omega⟩
    rw [hn, List.cons_append, takeBytes?]
    rw [byteSize_cons] at hn
    rw [if_pos (by omega), show n + 1 - c.utf8Size = byteSize l by omega, ih, Option.map_some]

theorem eq_append_of_dropBytes? {n : Nat} {s r : List Char} (h : dropBytes? n s = some r) :
    ∃ l, s = l ++ r ∧ byteSize l = n := by
  induction s generalizing n with
  | nil =>
    cases n with
    | zero => exact ⟨[], by simpa [dropBytes?] using h, rfl⟩
    | succ n => simp [dropBytes?] at h
  | cons c s ih =>
    cases n with
    | zero => exact ⟨[], by simpa [dropBytes?] using h, rfl⟩
    | succ n =>
      rw [dropBytes?] at h
      split at h
      · next hc =>
        obtain ⟨l, rfl, hl⟩ := ih h
        exact ⟨c :: l, rfl, by rw [byteSize_cons]; omega⟩
      · simp at h

theorem isBoundary_iff {s : List Char} {n : Nat} :
    IsBoundary s n ↔ (dropBytes? n s).isSome = true := by
  constructor
  · rintro ⟨l, r, rfl, rfl⟩
    rw [dropBytes?_append]
    rfl
  · intro h
    obtain ⟨r, hr⟩ := Option.isSome_iff_exists.mp h
    obtain ⟨l, hs, hl⟩ := eq_append_of_dropBytes? hr
    exact ⟨l, r, hs, hl⟩

instance (s : List Char) (n : Nat) : Decidable (IsBoundary s n) :=
  decidable_of_iff _ isBoundary_iff.symm

theorem isBoundary_zero (s : List Char) : IsBoundary s 0 := ⟨[], s, rfl, rfl⟩

theorem isBoundary_size (s : List Char) : IsBoundary s (byteSize s) := ⟨s, [], by simp, rfl⟩

theorem IsBoundary.le_size {s : List Char} {n : Nat} (h : IsBoundary s n) : n ≤ byteSize s := by
  obtain ⟨l, r, rfl, rfl⟩ := h
  rw [byteSize_append]
  omega

/-- A text is cut in one way only after a number of bytes. -/
theorem append_inj_of_byteSize {l l' r r' : List Char} (h : l ++ r = l' ++ r')
    (hl : byteSize l = byteSize l') : l = l' ∧ r = r' := by
  have h₁ := dropBytes?_append l r
  have h₂ := takeBytes?_append l r
  rw [h, hl] at h₁ h₂
  rw [dropBytes?_append] at h₁
  rw [takeBytes?_append] at h₂
  exact ⟨(Option.some.inj h₂).symm, (Option.some.inj h₁).symm⟩

/-- Two boundaries cut a text in three. -/
theorem IsBoundary.between {s : List Char} {a b : Nat} (ha : IsBoundary s a) (hb : IsBoundary s b)
    (hab : a ≤ b) : ∃ l m r, s = l ++ (m ++ r) ∧ byteSize l = a ∧ byteSize (l ++ m) = b := by
  obtain ⟨l, x, rfl, hl⟩ := ha
  obtain ⟨l', r, hs, hl'⟩ := hb
  rcases List.append_eq_append_iff.mp hs with ⟨m, rfl, rfl⟩ | ⟨m, rfl, rfl⟩
  · exact ⟨l, m, r, rfl, hl, hl'⟩
  · -- the second cut lies in front of the first, so nothing is between them
    have hm : m = [] := byteSize_eq_zero (by rw [byteSize_append] at hl; omega)
    subst hm
    exact ⟨l', [], x, by simp, by simpa using hl, by simpa using hl'⟩

theorem slice_of_append (l m r : List Char) :
    slice (l ++ (m ++ r)) (byteSize l) (byteSize (l ++ m)) = String.ofList m := by
  unfold slice
  split
  · next h =>
    rw [byteSize_eq_zero (s := m) (by rw [byteSize_append] at h; omega)]
  · rw [dropBytes?_append, byteSize_append, Nat.add_sub_cancel_left, Option.bind_some,
      takeBytes?_append, Option.getD_some]

@[simp] theorem slice_self (s : List Char) (a : Nat) : slice s a a = "" := if_pos (Nat.le_refl a)

/-- The slice from end to end is the text. -/
theorem slice_all (s : List Char) : slice s 0 (byteSize s) = String.ofList s := by
  simpa using slice_of_append [] s []

theorem slice_append {s : List Char} {a b c : Nat} (ha : IsBoundary s a) (hb : IsBoundary s b)
    (hc : IsBoundary s c) (hab : a ≤ b) (hbc : b ≤ c) :
    slice s a b ++ slice s b c = slice s a c := by
  obtain ⟨l, m, r, rfl, rfl, rfl⟩ := ha.between hb hab
  obtain ⟨l', m', r', hs, hl', rfl⟩ := hb.between hc hbc
  rw [← List.append_assoc] at hs
  obtain ⟨rfl, rfl⟩ := append_inj_of_byteSize hs hl'.symm
  have h₁ := slice_of_append l m (m' ++ r')
  have h₂ := slice_of_append (l ++ m) m' r'
  have h₃ := slice_of_append l (m ++ m') r'
  simp only [List.append_assoc] at h₁ h₂ h₃ ⊢
  rw [h₁, h₂, h₃, String.ofList_append]

/-- A slice has as many bytes as its ends are apart. -/
theorem byteSize_slice {s : List Char} {a b : Nat} (ha : IsBoundary s a) (hb : IsBoundary s b)
    (hab : a ≤ b) : byteSize (slice s a b).toList = b - a := by
  obtain ⟨l, m, r, rfl, rfl, rfl⟩ := ha.between hb hab
  rw [slice_of_append, String.toList_ofList, byteSize_append]
  omega

end MarkupEdit.Text
