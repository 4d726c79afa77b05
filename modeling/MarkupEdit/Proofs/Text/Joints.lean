import MarkupEdit.Proofs.Text.Trimming
import MarkupEdit.Proofs.Text.Words

/-!
# Words at a joint

Where two texts meet, a word at the end of the first may go on at the start of the second. Blanks between
the texts keep the two words apart, so cutting the blanks changes the words exactly if the texts join, and
then there is one word less. What is lost at one joint does not come back at another.

* `joins`: whether two texts join.
* `length_blankWords_append`: **the number of words on both sides of a joint.**
* `blankWords_cut_iff`: when blanks can be cut out of a text and its words stay.
* `blankWords_cuts_iff`: the same of blanks in two places.
-/

namespace MarkupEdit.Text

variable {s t u v x y m : List Char} {c : Char}

/-- Whether a word at the end of a text goes on at the start of another text. -/
def joins (s t : List Char) : Bool :=
  s.getLast?.any (fun c => !isBlank c) && t.head?.any (fun c => !isBlank c)

theorem joins_cons_cons (c d : Char) (s t : List Char) : joins (c :: d :: s) t = joins (d :: s) t := by
  rw [joins, joins, List.getLast?_cons_cons]

theorem blankWords_append_of_not_joins (h : joins s t = false) :
    blankWords (s ++ t) = blankWords s ++ blankWords t := by
  rcases s.eq_nil_or_concat' with rfl | ⟨s, c, rfl⟩
  · rfl
  rcases t with _ | ⟨d, t⟩
  · rw [List.append_nil]
    exact (List.append_nil _).symm
  by_cases hc : isBlank c = true
  · have hlast : blankWords (s ++ [c]) = blankWords s :=
      blankWords_append_blank s fun e he => List.mem_singleton.mp he ▸ hc
    rw [hlast, List.append_assoc, List.singleton_append, blankWords_append hc]
  · have hd : isBlank d = true := by simpa [joins, hc] using h
    have hfirst : blankWords (d :: t) = blankWords t :=
      blankWords_blank_append (s := [d]) (fun e he => List.mem_singleton.mp he ▸ hd) t
    rw [hfirst, blankWords_append hd]

/-- A character in front of a text makes a word of its own, or belongs to the first one, or to none. -/
theorem length_blankWords_cons (c : Char) (s : List Char) :
    (blankWords (c :: s)).length =
      (blankWords s).length + (if isBlank c || s.head?.any (fun d => !isBlank d) then 0 else 1) := by
  by_cases hc : isBlank c = true
  · have hfirst : blankWords (c :: s) = blankWords s :=
      blankWords_blank_append (s := [c]) (fun e he => List.mem_singleton.mp he ▸ hc) s
    simp [hfirst, hc]
  rw [Bool.not_eq_true] at hc
  obtain ⟨piece, rest, hs⟩ := List.exists_cons_of_ne_nil (splitAtEach_ne_nil isBlank s)
  have hpiece : piece.isEmpty = !s.head?.any (fun d => !isBlank d) := by
    cases s with
    | nil =>
      cases hs
      rfl
    | cons d s =>
      cases hd : isBlank d with
      | true =>
        rw [splitAtEach_cons_of_pos hd] at hs
        cases hs
        simp [hd]
      | false =>
        obtain ⟨piece', rest', hs'⟩ := List.exists_cons_of_ne_nil (splitAtEach_ne_nil isBlank s)
        rw [splitAtEach_cons_of_neg hd hs'] at hs
        cases hs
        simp [hd]
  rw [blankWords, splitAtEach_cons_of_neg hc hs, blankWords, hs, hc, Bool.false_or]
  simp only [List.filter_cons, hpiece]
  cases s.head?.any (fun d => !isBlank d) <;> simp

/-- **The number of words on both sides of a joint.** -/
theorem length_blankWords_append (s t : List Char) :
    (blankWords (s ++ t)).length + (if joins s t then 1 else 0) =
      (blankWords s).length + (blankWords t).length := by
  induction s with
  | nil => exact Nat.add_comm _ _
  | cons c s ih =>
    cases s with
    | nil =>
      have hnone : (blankWords []).length = 0 := rfl
      rw [List.singleton_append, length_blankWords_cons, length_blankWords_cons, hnone]
      cases hc : isBlank c <;> cases ht : t.head?.any (fun d => !isBlank d) <;>
        simp [joins, hc, ht] <;> omega
    | cons d s =>
      have hcons := length_blankWords_cons c (d :: (s ++ t))
      have hcons' := length_blankWords_cons c (d :: s)
      rw [List.head?_cons] at hcons hcons'
      rw [joins_cons_cons, List.cons_append, List.cons_append, hcons, hcons']
      rw [List.cons_append] at ih
      omega

/-- Blanks between two texts keep their words apart. -/
theorem blankWords_append_blank_append (hx : AllBlank x) (hne : x ≠ []) (u v : List Char) :
    blankWords (u ++ (x ++ v)) = blankWords u ++ blankWords v := by
  obtain ⟨c, x, rfl⟩ := List.exists_cons_of_ne_nil hne
  rw [List.cons_append, blankWords_append (hx c List.mem_cons_self),
    blankWords_blank_append fun d hd => hx d (List.mem_cons_of_mem _ hd)]

/-! ## Cutting blanks out of a text -/

/-- **Blanks can be cut out of a text if the texts around them do not join.** Else a word is lost. -/
theorem blankWords_cut_iff (hx : AllBlank x) (u v : List Char) :
    blankWords (u ++ (x ++ v)) = blankWords (u ++ v) ↔ x = [] ∨ joins u v = false := by
  by_cases hne : x = []
  · exact iff_of_true (by rw [hne, List.nil_append]) (.inl hne)
  have hlength := length_blankWords_append u v
  rw [blankWords_append_blank_append hx hne]
  cases hjoins : joins u v with
  | false => exact iff_of_true (blankWords_append_of_not_joins hjoins).symm (.inr rfl)
  | true =>
    refine iff_of_false (fun heq => ?_) (by simp [hne])
    rw [← List.length_append, heq, hjoins, if_pos rfl] at hlength
    omega

theorem length_blankWords_cut_le (hx : AllBlank x) (u v : List Char) :
    (blankWords (u ++ v)).length ≤ (blankWords (u ++ (x ++ v))).length := by
  by_cases hne : x = []
  · rw [hne, List.nil_append]
  have hlength := length_blankWords_append u v
  rw [blankWords_append_blank_append hx hne, List.length_append]
  omega

/-- If the number of the words stays, so do the words. -/
theorem blankWords_cut_of_length_le (hx : AllBlank x)
    (h : (blankWords (u ++ (x ++ v))).length ≤ (blankWords (u ++ v)).length) :
    blankWords (u ++ (x ++ v)) = blankWords (u ++ v) := by
  by_cases hne : x = []
  · rw [hne, List.nil_append]
  have hlength := length_blankWords_append u v
  rw [blankWords_append_blank_append hx hne, List.length_append] at h
  rw [blankWords_cut_iff hx]
  refine .inr (Bool.eq_false_iff.mpr fun hjoins => ?_)
  rw [if_pos hjoins] at hlength
  omega

/-- **Blanks can be cut out in two places if the texts around them join in neither.** -/
theorem blankWords_cuts_iff (hx : AllBlank x) (hy : AllBlank y) (u m v : List Char) :
    blankWords (u ++ (x ++ (m ++ (y ++ v)))) = blankWords (u ++ (m ++ v)) ↔
      (x = [] ∨ joins u (m ++ (y ++ v)) = false) ∧ (y = [] ∨ joins (u ++ m) v = false) := by
  have hfirst := length_blankWords_cut_le hx u (m ++ (y ++ v))
  have hsecond := length_blankWords_cut_le hy (u ++ m) v
  rw [← blankWords_cut_iff hx, ← blankWords_cut_iff hy]
  simp only [List.append_assoc] at hsecond ⊢
  constructor
  · intro heq
    -- no cut gives back a word that the other one takes
    have hlength := congrArg List.length heq
    have hx' := blankWords_cut_of_length_le hx (u := u) (v := m ++ (y ++ v)) (by omega)
    exact ⟨hx', hx'.symm.trans heq⟩
  · rintro ⟨hx', hy'⟩
    rw [hx', hy']

end MarkupEdit.Text
