import MarkupEdit.Proofs.Text.Trimming
import MarkupEdit.Proofs.Text.Words
import MarkupEdit.Tree.Literal

/-!
# What text between tags shows

A line shows itself, without the blanks that it has at a line break, and lines that show something are
glued together with single spaces. A blank at an end of a text is at no line break, or it makes up a line
with nothing in it. So it is only shown as what it is, and a text without it shows the rest.

* `glue`: two texts with a space between them, if there is something to keep apart.
* `shownLines`: what some lines show, read line by line.
* `dropBlank_visibleChars`, `dropBlankEnd_visibleChars`: **a trimmed text shows what the text shows,
  trimmed.**
* `exists_blank_visibleChars`, `exists_visibleChars_blank`: the same by what is cut.
-/

namespace MarkupEdit.Tree

open MarkupEdit.Text

variable {s u v line : List Char} {lines rest : List (List Char)} {isFirst isLast : Bool} {c : Char}

/-! ## Glue -/

/-- Two texts with a space between them, if both have something in them. -/
def glue (u v : List Char) : List Char :=
  if u = [] then v else if v = [] then u else u ++ ' ' :: v

theorem glue_nil_left (v : List Char) : glue [] v = v := rfl

theorem glue_nil_right (u : List Char) : glue u [] = u := by
  unfold glue
  split
  · next hu => exact hu.symm
  · rfl

theorem glue_of_ne_nil (hu : u ≠ []) (hv : v ≠ []) : glue u v = u ++ ' ' :: v := by
  rw [glue, if_neg hu, if_neg hv]

theorem reverse_glue (u v : List Char) : (glue u v).reverse = glue v.reverse u.reverse := by
  by_cases hu : u = []
  · rw [hu, glue_nil_left, List.reverse_nil, glue_nil_right]
  by_cases hv : v = []
  · rw [hv, glue_nil_right, List.reverse_nil, glue_nil_left]
  rw [glue_of_ne_nil hu hv, glue_of_ne_nil (by simpa using hv) (by simpa using hu)]
  simp

/-- Blanks in front of a glued text are blanks in front of its first part. -/
theorem dropBlank_glue (hv : dropBlank v = v) : dropBlank (glue u v) = glue (dropBlank u) v := by
  by_cases hu : u = []
  · rw [hu, glue_nil_left, hv]
    rfl
  by_cases hv' : v = []
  · rw [hv', glue_nil_right, glue_nil_right]
  rw [glue_of_ne_nil hu hv', dropBlank, List.dropWhile_append, ← dropBlank]
  split
  · next hempty =>
    rw [List.isEmpty_iff.mp hempty, glue_nil_left]
    exact hv
  · next hempty => rw [glue_of_ne_nil (by simpa using hempty) hv']

/-- Blanks behind a glued text are blanks behind its last part. -/
theorem dropBlankEnd_glue (hu : dropBlankEnd u = u) :
    dropBlankEnd (glue u v) = glue u (dropBlankEnd v) := by
  have hu' : dropBlank u.reverse = u.reverse := by
    rw [dropBlankEnd_eq_reverse] at hu
    rw [← List.reverse_inj, hu, List.reverse_reverse]
  rw [dropBlankEnd_eq_reverse, reverse_glue, dropBlank_glue hu', reverse_glue, List.reverse_reverse]
  rfl

/-- Texts with single spaces between them are glued together, if each has something in it. -/
theorem intercalate_cons_eq_glue (hline : line ≠ []) (hrest : ∀ l ∈ rest, l ≠ []) :
    [' '].intercalate (line :: rest) = glue line ([' '].intercalate rest) := by
  cases rest with
  | nil => rw [List.intercalate_singleton, List.intercalate_nil, glue_nil_right]
  | cons next rest =>
    have hne : [' '].intercalate (next :: rest) ≠ [] := by
      have hnext := hrest next List.mem_cons_self
      cases rest with
      | nil => simpa using hnext
      | cons => simp [hnext]
    rw [List.intercalate_cons_cons, glue_of_ne_nil hline hne]
    simp

/-! ## Lines -/

/-- What a line shows, by whether no line is in front of it and none behind it. -/
def shownLine (isFirst isLast : Bool) (line : List Char) : List Char :=
  let line := dropWhileEnd (· == '\r') line
  let line := if isFirst then line else dropBlank line
  if isLast then line else dropBlankEnd line

/-- What some lines show, at the start of a text or not, and at its end or not. -/
def shownLines (isFirst isLast : Bool) : List (List Char) → List Char
  | [] => []
  | line :: rest =>
    glue (shownLine isFirst (isLast && rest.isEmpty) line) (shownLines false isLast rest)

theorem visibleChars_eq (s : List Char) :
    visibleChars s = shownLines true true (splitAtEach (· == '\n') s) := by
  have hlines : ∀ (lines : List (List Char)) (isFirst : Bool),
      [' '].intercalate ((visibleLines isFirst lines).filter (fun line => !line.isEmpty)) =
        shownLines isFirst true lines := by
    intro lines
    induction lines with
    | nil => exact fun _ => rfl
    | cons line rest ih =>
      intro isFirst
      have hcons : visibleLines isFirst (line :: rest) =
          shownLine isFirst rest.isEmpty line :: visibleLines false rest := rfl
      rw [hcons, shownLines, Bool.true_and, ← ih false, List.filter_cons]
      by_cases hempty : shownLine isFirst rest.isEmpty line = []
      · simp only [hempty, List.isEmpty_nil, Bool.not_true, Bool.false_eq_true, if_false,
          glue_nil_left]
      · rw [if_pos (by simpa using hempty)]
        refine intercalate_cons_eq_glue hempty fun l hl => ?_
        simpa using (List.mem_filter.mp hl).2
  exact hlines _ true

/-! ## Lines and their blanks -/

theorem isBlank_of_eq_return (c : Char) (h : (c == '\r') = true) : isBlank c = true := by
  rw [beq_iff_eq.mp h]
  decide

theorem ne_break_of_not_isBlank (h : ¬ isBlank c = true) : (c == '\n') = false := by
  rw [beq_eq_false_iff_ne]
  rintro rfl
  exact h (by decide)

theorem shownLine_nil (isFirst isLast : Bool) : shownLine isFirst isLast [] = [] := by
  cases isFirst <;> cases isLast <;> rfl

/-- Behind a line break a line shows what it shows without the blanks in front. -/
theorem shownLine_not_first (isLast : Bool) (line : List Char) :
    shownLine false isLast line = shownLine true isLast (dropBlank line) := by
  have hcut := dropBlank_dropWhileEnd isBlank_of_eq_return line
  show (if isLast then dropBlank _ else dropBlankEnd (dropBlank _)) = _
  rw [hcut]
  rfl

/-- In front of a line break it shows what it shows without the blanks behind. -/
theorem shownLine_not_last (isFirst : Bool) (line : List Char) :
    shownLine isFirst false line = shownLine isFirst true (dropBlankEnd line) := by
  have hcut := dropBlankEnd_dropWhileEnd isBlank_of_eq_return line
  have hkeep := dropWhileEnd_dropBlankEnd isBlank_of_eq_return line
  cases isFirst with
  | true =>
    show dropBlankEnd (dropWhileEnd _ line) = dropWhileEnd _ (dropBlankEnd line)
    rw [hcut, hkeep]
  | false =>
    have happly : dropBlank (dropBlankEnd (dropWhileEnd (· == '\r') line)) =
        dropBlankEnd (dropBlank (dropWhileEnd (· == '\r') line)) :=
      dropBlank_dropWhileEnd (fun _ h => h) _
    show dropBlankEnd (dropBlank (dropWhileEnd _ line)) =
      dropBlank (dropWhileEnd _ (dropBlankEnd line))
    rw [← happly, hcut, hkeep]

theorem dropBlank_shownLine (isFirst isLast : Bool) (line : List Char) :
    dropBlank (shownLine isFirst isLast line) = shownLine false isLast line := by
  have hend : ∀ s : List Char, dropBlank (dropBlankEnd s) = dropBlankEnd (dropBlank s) :=
    dropBlank_dropWhileEnd fun _ h => h
  cases isFirst <;> cases isLast <;> simp [shownLine, hend, dropBlank_dropBlank]

theorem dropBlankEnd_shownLine (isFirst isLast : Bool) (line : List Char) :
    dropBlankEnd (shownLine isFirst isLast line) = shownLine isFirst false line := by
  cases isLast with
  | true => rfl
  | false => exact dropBlankEnd_dropBlankEnd _

/-! ## Texts and their blanks -/

theorem dropBlank_shownLines (isFirst isLast : Bool) (lines : List (List Char)) :
    dropBlank (shownLines isFirst isLast lines) = shownLines false isLast lines := by
  induction lines generalizing isFirst with
  | nil => rfl
  | cons line rest ih =>
    rw [shownLines, dropBlank_glue (ih false), dropBlank_shownLine]
    rfl

theorem dropBlankEnd_shownLines (isFirst isLast : Bool) (lines : List (List Char)) :
    dropBlankEnd (shownLines isFirst isLast lines) = shownLines isFirst false lines := by
  induction lines generalizing isFirst with
  | nil => rfl
  | cons line rest ih =>
    rw [shownLines, shownLines, Bool.false_and, ← ih]
    by_cases hempty : rest = []
    · rw [hempty]
      show dropBlankEnd (glue _ []) = glue _ []
      rw [glue_nil_right, glue_nil_right]
      exact dropBlankEnd_shownLine _ _ _
    · have hlast : (isLast && rest.isEmpty) = false := by simp [hempty]
      rw [hlast]
      exact dropBlankEnd_glue (dropBlankEnd_shownLine _ false _)

/-- A line that no blank is in front of shows the same at the start of a text. -/
theorem shownLines_of_head? (h : ∀ c, line.head? = some c → isBlank c = false) (isLast : Bool)
    (rest : List (List Char)) :
    shownLines false isLast (line :: rest) = shownLines true isLast (line :: rest) := by
  rw [shownLines, shownLines, shownLine_not_first, dropBlank_of_head? h]

/-- **Behind a line break a text shows what it shows without the blanks in front.** -/
theorem shownLines_dropBlank (isLast : Bool) (s : List Char) :
    shownLines false isLast (splitAtEach (· == '\n') s) =
      shownLines true isLast (splitAtEach (· == '\n') (dropBlank s)) := by
  induction s with
  | nil => exact shownLines_of_head? (fun _ h => by cases h) isLast []
  | cons c s ih =>
    obtain ⟨line, rest, hs⟩ := List.exists_cons_of_ne_nil (splitAtEach_ne_nil (· == '\n') s)
    by_cases hc : isBlank c = true
    · have hdrop : ∀ s, dropBlank (c :: s) = dropBlank s :=
        fun s => List.dropWhile_cons_of_pos hc
      rw [hdrop, ← ih]
      by_cases hbreak : (c == '\n') = true
      · -- a line with nothing in it
        rw [splitAtEach_cons_of_pos (p := (· == '\n')) hbreak, shownLines, shownLine_nil]
        rfl
      · rw [splitAtEach_cons_of_neg (p := (· == '\n')) (Bool.eq_false_iff.mpr hbreak) hs, hs,
          shownLines, shownLines, shownLine_not_first, shownLine_not_first, hdrop]
    · have hbreak := ne_break_of_not_isBlank hc
      have hkeep : dropBlank (c :: s) = c :: s := List.dropWhile_cons_of_neg hc
      rw [hkeep, splitAtEach_cons_of_neg (p := (· == '\n')) hbreak hs]
      refine shownLines_of_head? (fun d hd => ?_) isLast rest
      cases hd
      exact Bool.eq_false_iff.mpr hc

/-- Lines that differ in the last one show the same if that one does. -/
theorem shownLines_concat_congr {l l' : List Char} {isLast' : Bool}
    (h : ∀ isFirst, shownLine isFirst isLast l = shownLine isFirst isLast' l') (isFirst : Bool)
    (lines : List (List Char)) :
    shownLines isFirst isLast (lines ++ [l]) = shownLines isFirst isLast' (lines ++ [l']) := by
  induction lines generalizing isFirst with
  | nil =>
    show glue (shownLine isFirst (isLast && true) l) [] =
      glue (shownLine isFirst (isLast' && true) l') []
    rw [Bool.and_true, Bool.and_true, h]
  | cons line lines ih =>
    have hrest : ∀ l : List Char, (lines ++ [l]).isEmpty = false := by simp
    rw [List.cons_append, List.cons_append, shownLines, shownLines, ih, hrest, hrest,
      Bool.and_false, Bool.and_false]

/-- A line break at the end shows nothing in front of another one. -/
theorem shownLines_append_nil (isFirst : Bool) (lines : List (List Char)) :
    shownLines isFirst false (lines ++ [[]]) = shownLines isFirst false lines := by
  induction lines generalizing isFirst with
  | nil => cases isFirst <;> rfl
  | cons line lines ih =>
    rw [List.cons_append, shownLines, shownLines, ih]
    rfl

/-- **In front of a line break a text shows what it shows without the blanks behind.** -/
theorem shownLines_dropBlankEnd (isFirst : Bool) (s : List Char) :
    shownLines isFirst false (splitAtEach (· == '\n') s) =
      shownLines isFirst true (splitAtEach (· == '\n') (dropBlankEnd s)) := by
  induction s using List.reverseRecOn with
  | nil => cases isFirst <;> rfl
  | append_singleton s c ih =>
    have hconcat : ∀ t, dropBlankEnd (t ++ [c]) =
        if isBlank c = true then dropBlankEnd t else t ++ [c] := fun t => dropWhileEnd_concat _ t c
    by_cases hc : isBlank c = true
    · rw [hconcat, if_pos hc, ← ih]
      by_cases hbreak : (c == '\n') = true
      · rw [splitAtEach_append (p := (· == '\n')) hbreak]
        exact shownLines_append_nil isFirst _
      · obtain ⟨lines, line, hs, hline⟩ := exists_splitAtEach_concat (p := (· == '\n'))
          (Bool.eq_false_iff.mpr hbreak) s
        rw [hline, hs]
        refine shownLines_concat_congr (fun i => ?_) isFirst lines
        rw [shownLine_not_last, shownLine_not_last, hconcat, if_pos hc]
    · have hbreak := ne_break_of_not_isBlank hc
      obtain ⟨lines, line, -, hline⟩ := exists_splitAtEach_concat (p := (· == '\n')) hbreak s
      rw [hconcat, if_neg hc, hline]
      refine shownLines_concat_congr (fun i => ?_) isFirst lines
      rw [shownLine_not_last, hconcat, if_neg hc]

/-! ## Trimmed texts -/

/-- **A text without the blanks in front shows what the text shows, without the blanks in front.** -/
theorem dropBlank_visibleChars (s : List Char) :
    dropBlank (visibleChars s) = visibleChars (dropBlank s) := by
  rw [visibleChars_eq, visibleChars_eq, dropBlank_shownLines, shownLines_dropBlank]

/-- **A text without the blanks behind shows what the text shows, without the blanks behind.** -/
theorem dropBlankEnd_visibleChars (s : List Char) :
    dropBlankEnd (visibleChars s) = visibleChars (dropBlankEnd s) := by
  rw [visibleChars_eq, visibleChars_eq, dropBlankEnd_shownLines, shownLines_dropBlankEnd]

/-- What blank text shows is blank. -/
theorem allBlank_visibleChars (h : AllBlank s) : AllBlank (visibleChars s) := by
  have hdrop : dropBlank (visibleChars s) = [] := by
    rw [dropBlank_visibleChars, h.dropBlank]
    rfl
  exact List.dropWhile_eq_nil_iff.mp hdrop

/-- What is not shown of a text without the blanks in front is blank. -/
theorem exists_blank_visibleChars (s : List Char) :
    ∃ x, AllBlank x ∧ visibleChars s = x ++ visibleChars (dropBlank s) := by
  rw [← dropBlank_visibleChars]
  exact exists_blank_dropBlank _

/-- Nor of a text without the blanks behind. -/
theorem exists_visibleChars_blank (s : List Char) :
    ∃ y, AllBlank y ∧ visibleChars s = visibleChars (dropBlankEnd s) ++ y := by
  rw [← dropBlankEnd_visibleChars]
  exact exists_dropBlankEnd_blank _

end MarkupEdit.Tree
