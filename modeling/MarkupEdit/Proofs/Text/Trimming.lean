import Mathlib.Data.List.DropRight
import Mathlib.Data.List.TakeWhile
import MarkupEdit.Text.Blank

/-!
# Trimmed texts

What trimming cuts from a text is blank, and what it leaves does not start or end with a blank.

* `AllBlank`: characters that are all blank.
* `exists_blank_dropBlank`, `exists_dropBlankEnd_blank`: a text is what trimming leaves of it, and the
  blanks at its end.
* `head?_dropBlank`, `getLast?_dropBlankEnd`: **what is left has no blank at this end.**
* `dropBlank_of_trim`, `dropBlankEnd_of_trim`: a text that trimming leaves as it is.
* `dropBlank_dropWhileEnd`: cuts at the two ends do not touch each other.
* `trim_eq_self_iff`: **a text is trimmed exactly if no blank is at an end of it**; `trim_trim`.
* `TrimsTo`: a text and what is left of it when blanks are cut from its ends.
-/

namespace MarkupEdit.Text

variable {s t : List Char} {c : Char}

/-- Characters that are all blank. -/
def AllBlank (s : List Char) : Prop := ∀ c ∈ s, isBlank c = true

theorem allBlank_iff {s : String} : allBlank s = true ↔ ∀ c ∈ s.toList, isBlank c = true :=
  List.all_eq_true

theorem allBlank_nil : AllBlank [] := fun _ hc => absurd hc List.not_mem_nil

theorem AllBlank.append (hs : AllBlank s) (ht : AllBlank t) : AllBlank (s ++ t) := by
  intro c hc
  rcases List.mem_append.mp hc with hc | hc
  · exact hs c hc
  · exact ht c hc

theorem AllBlank.dropBlank (h : AllBlank s) : dropBlank s = [] := List.dropWhile_eq_nil_iff.mpr h

/-- **A text is what is left of it, behind blanks.** -/
theorem exists_blank_dropBlank (s : List Char) :
    ∃ x, AllBlank x ∧ s = x ++ dropBlank s := by
  refine ⟨s.takeWhile isBlank, ?_, ?_⟩
  · intro c hc
    exact List.mem_takeWhile_imp hc
  · exact (List.takeWhile_append_dropWhile (p := isBlank)).symm

/-- A text is what is left of it, in front of blanks. -/
theorem exists_dropBlankEnd_blank (s : List Char) :
    ∃ x, AllBlank x ∧ s = dropBlankEnd s ++ x := by
  obtain ⟨x, hx, hs⟩ := exists_blank_dropBlank s.reverse
  refine ⟨x.reverse, fun c hc => hx c (List.mem_reverse.mp hc), ?_⟩
  have hreverse := congrArg List.reverse hs
  rwa [List.reverse_reverse, List.reverse_append] at hreverse

/-- **What is left has no blank at its start.** -/
theorem head?_dropBlank (h : (dropBlank s).head? = some c) : isBlank c = false := by
  have hnot := List.head?_dropWhile_not isBlank s
  rw [← dropBlank, h] at hnot
  simpa using hnot

/-- What is left has no blank at its end. -/
theorem getLast?_dropBlankEnd (h : (dropBlankEnd s).getLast? = some c) : isBlank c = false := by
  rw [dropBlankEnd, dropWhileEnd, List.getLast?_reverse] at h
  exact head?_dropBlank h

theorem dropWhileEnd_sublist (p : Char → Bool) (s : List Char) : (dropWhileEnd p s).Sublist s :=
  (List.rdropWhile_prefix p (l := s)).sublist

theorem length_dropBlankEnd_le (s : List Char) : (dropBlankEnd s).length ≤ s.length :=
  (dropWhileEnd_sublist isBlank s).length_le

/-- Trimming that cuts nothing cuts nothing at the start. -/
theorem dropBlank_of_trim (h : trim s = s) : dropBlank s = s := by
  have hle := length_dropBlankEnd_le (dropBlank s)
  have hsub : (dropBlank s).Sublist s := List.dropWhile_sublist _
  have hlength := congrArg List.length h
  rw [trim] at hlength
  have hsublength := hsub.length_le
  exact hsub.eq_of_length (by omega)

/-- And nothing at the end. -/
theorem dropBlankEnd_of_trim (h : trim s = s) : dropBlankEnd s = s := by
  rwa [trim, dropBlank_of_trim h] at h

/-- What is taken ends where the first character comes that is not. -/
theorem takeWhile_append_of_head {p : Char → Bool} (hs : ∀ c ∈ s, p c = true)
    (ht : ∀ c, t.head? = some c → p c = false) : (s ++ t).takeWhile p = s := by
  have hstop : t.takeWhile p = [] := by
    cases t with
    | nil => rfl
    | cons c t => simp [ht c rfl]
  rw [List.takeWhile_append_of_pos hs, hstop, List.append_nil]

/-- The blanks in front of what starts with no blank. -/
theorem takeWhile_isBlank (hs : AllBlank s) (ht : ∀ c, t.head? = some c → isBlank c = false) :
    (s ++ t).takeWhile isBlank = s := takeWhile_append_of_head hs ht

/-! ## Cuts at both ends -/

theorem dropBlank_dropBlank (s : List Char) : dropBlank (dropBlank s) = dropBlank s :=
  List.dropWhile_idempotent isBlank s

theorem dropBlankEnd_dropBlankEnd (s : List Char) : dropBlankEnd (dropBlankEnd s) = dropBlankEnd s :=
  List.rdropWhile_idempotent isBlank s

theorem dropBlankEnd_eq_reverse (s : List Char) : dropBlankEnd s = (dropBlank s.reverse).reverse :=
  rfl

theorem AllBlank.dropBlankEnd (h : AllBlank s) : dropBlankEnd s = [] := by
  rw [dropBlankEnd_eq_reverse, AllBlank.dropBlank fun c hc => h c (List.mem_reverse.mp hc)]
  rfl

theorem dropBlank_of_head? (h : ∀ c, s.head? = some c → isBlank c = false) : dropBlank s = s := by
  cases s with
  | nil => rfl
  | cons c s => exact List.dropWhile_cons_of_neg (Bool.eq_false_iff.mp (h c rfl))

theorem dropWhileEnd_concat (p : Char → Bool) (s : List Char) (c : Char) :
    dropWhileEnd p (s ++ [c]) = if p c = true then dropWhileEnd p s else s ++ [c] :=
  List.rdropWhile_concat p s c

/-- **What is cut from the end and what is cut from the start do not touch each other**, if only blanks
are cut. -/
theorem dropBlank_dropWhileEnd {p : Char → Bool} (hp : ∀ c, p c = true → isBlank c = true)
    (s : List Char) : dropBlank (dropWhileEnd p s) = dropWhileEnd p (dropBlank s) := by
  induction s using List.reverseRecOn with
  | nil => rfl
  | append_singleton s c ih =>
    have hdrop : dropBlank (s ++ [c]) =
        if (dropBlank s).isEmpty = true then dropBlank [c] else dropBlank s ++ [c] :=
      List.dropWhile_append
    rw [dropWhileEnd_concat, hdrop]
    by_cases hc : p c = true
    · have hblank : dropBlank [c] = [] := List.dropWhile_cons_of_pos (hp c hc)
      rw [if_pos hc, ih, hblank]
      split
      · next hempty => rw [List.isEmpty_iff.mp hempty]
      · rw [dropWhileEnd_concat, if_pos hc]
    · rw [if_neg hc, hdrop]
      split
      · by_cases hblank : isBlank c = true
        · rw [show dropBlank [c] = [] from List.dropWhile_cons_of_pos hblank]
          rfl
        · rw [show dropBlank [c] = [c] from List.dropWhile_cons_of_neg hblank]
          exact ((dropWhileEnd_concat p [] c).trans (if_neg hc)).symm
      · rw [dropWhileEnd_concat, if_neg hc]

/-- Blanks that are cut twice at the end are cut once. -/
theorem dropBlankEnd_dropWhileEnd {p : Char → Bool} (hp : ∀ c, p c = true → isBlank c = true)
    (s : List Char) : dropBlankEnd (dropWhileEnd p s) = dropBlankEnd s := by
  induction s using List.reverseRecOn with
  | nil => rfl
  | append_singleton s c ih =>
    rw [dropWhileEnd_concat]
    split
    · next hc => rw [ih, dropBlankEnd, dropBlankEnd, dropWhileEnd_concat, if_pos (hp c hc)]
    · rfl

theorem dropWhileEnd_dropBlankEnd {p : Char → Bool} (hp : ∀ c, p c = true → isBlank c = true)
    (s : List Char) : dropWhileEnd p (dropBlankEnd s) = dropBlankEnd s := by
  induction s using List.reverseRecOn with
  | nil => rfl
  | append_singleton s c ih =>
    rw [dropBlankEnd, dropWhileEnd_concat]
    split
    · exact ih
    · next hc => rw [dropWhileEnd_concat, if_neg fun h => hc (hp c h)]

/-! ## Trimming -/

/-- **A text is trimmed exactly if no blank is at an end of it.** -/
theorem trim_eq_self_iff : trim s = s ↔
    (∀ c, s.head? = some c → isBlank c = false) ∧ ∀ c, s.getLast? = some c → isBlank c = false := by
  constructor
  · intro h
    refine ⟨fun c hc => ?_, fun c hc => ?_⟩
    · rw [← dropBlank_of_trim h] at hc
      exact head?_dropBlank hc
    · rw [← dropBlankEnd_of_trim h] at hc
      exact getLast?_dropBlankEnd hc
  · rintro ⟨hhead, hlast⟩
    rw [trim, dropBlank_of_head? hhead]
    refine List.rdropWhile_eq_self_iff.mpr fun hne => ?_
    rw [hlast _ (List.getLast?_eq_getLast_of_ne_nil hne)]
    exact Bool.false_ne_true

theorem trim_sublist (s : List Char) : (trim s).Sublist s :=
  (dropWhileEnd_sublist isBlank _).trans (List.dropWhile_sublist isBlank)

/-- Trimming twice is trimming. -/
theorem trim_trim (s : List Char) : trim (trim s) = trim s := by
  have hcut : dropBlank (dropBlankEnd (dropBlank s)) = dropBlankEnd (dropBlank (dropBlank s)) :=
    dropBlank_dropWhileEnd (fun _ h => h) _
  rw [trim, trim, hcut, dropBlank_dropBlank, dropBlankEnd_dropBlankEnd]

/-- Blanks in front of a text are trimmed away. -/
theorem trim_blank_append {x : List Char} (hx : AllBlank x) (s : List Char) :
    trim (x ++ s) = trim s := by
  rw [trim, trim, dropBlank, List.dropWhile_append_of_pos hx]
  rfl

/-- Nothing is left of blank text, and of no other. -/
theorem trim_eq_nil_iff : trim s = [] ↔ AllBlank s := by
  constructor
  · intro h
    obtain ⟨x, hx, hs⟩ := exists_blank_dropBlank s
    obtain ⟨y, hy, ht⟩ := exists_dropBlankEnd_blank (dropBlank s)
    rw [← trim, h, List.nil_append] at ht
    rw [hs, ht]
    exact hx.append hy
  · intro h
    rw [trim, h.dropBlank]
    rfl

/-- A text and what is left of it when blanks are cut from its ends. -/
def TrimsTo (s t : List Char) : Prop := ∃ x y, AllBlank x ∧ AllBlank y ∧ s = x ++ (t ++ y)

theorem TrimsTo.trans {r : List Char} (h : TrimsTo r s) (h' : TrimsTo s t) : TrimsTo r t := by
  obtain ⟨x, y, hx, hy, rfl⟩ := h
  obtain ⟨x', y', hx', hy', rfl⟩ := h'
  exact ⟨x ++ x', y' ++ y, hx.append hx', hy'.append hy, by simp only [List.append_assoc]⟩

end MarkupEdit.Text
