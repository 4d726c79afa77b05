import MarkupEdit.Proofs.Text.References
import MarkupEdit.Proofs.Tree.VisibleText

/-!
# The words that text between tags shows

What a line loses at a line break is blank, and lines are glued with a blank between them. So what is read
of a text piece by piece between its blanks is read of what the text shows, and these are its words, before
and after its references are decoded. What a text shows is one line without a carriage return at its end,
and such a line shows itself.

* `CutAtBlanks.visibleChars`: **a list of pieces between blanks is kept by what a text shows.**
* `visibleChars_visibleChars`: what a text shows, shows itself.
* `visibleText_keeps_words`: a text is found by its words as it is written and as it shows.
-/

namespace MarkupEdit.Text.CutAtBlanks

open MarkupEdit.Tree

variable {α : Type} {list : List Char → List α}

/-! ## Pieces between blanks -/

theorem dropBlank (hlist : CutAtBlanks list) (s : List Char) : list (dropBlank s) = list s := by
  obtain ⟨x, hx, hs⟩ := exists_blank_dropBlank s
  calc list (Text.dropBlank s) = list (x ++ Text.dropBlank s) := (hlist.blank_append hx _).symm
    _ = list s := by rw [← hs]

theorem dropBlankEnd (hlist : CutAtBlanks list) (s : List Char) :
    list (dropBlankEnd s) = list s := by
  obtain ⟨x, hx, hs⟩ := exists_dropBlankEnd_blank s
  calc list (Text.dropBlankEnd s) = list (Text.dropBlankEnd s ++ x) := (hlist.append_blank _ hx).symm
    _ = list s := by rw [← hs]

/-- Characters that are blank may be cut from the end. -/
theorem dropWhileEnd (hlist : CutAtBlanks list) {p : Char → Bool}
    (hp : ∀ c, p c = true → isBlank c = true) (s : List Char) :
    list (dropWhileEnd p s) = list s := by
  rw [← hlist.dropBlankEnd, dropBlankEnd_dropWhileEnd hp, hlist.dropBlankEnd]

theorem glue (hlist : CutAtBlanks list) (u v : List Char) : list (glue u v) = list u ++ list v := by
  by_cases hu : u = []
  · rw [hu, glue_nil_left, hlist.nil, List.nil_append]
  by_cases hv : v = []
  · rw [hv, glue_nil_right, hlist.nil, List.append_nil]
  rw [glue_of_ne_nil hu hv, hlist.append (by decide)]

theorem shownLine (hlist : CutAtBlanks list) (isFirst isLast : Bool) (line : List Char) :
    list (shownLine isFirst isLast line) = list line := by
  have hreturn := hlist.dropWhileEnd isBlank_of_eq_return line
  cases isFirst <;> cases isLast <;>
    simp only [Tree.shownLine, if_true, Bool.false_eq_true, if_false, hlist.dropBlank,
      hlist.dropBlankEnd, hreturn]

theorem shownLines (hlist : CutAtBlanks list) (isFirst isLast : Bool) (lines : List (List Char)) :
    list (shownLines isFirst isLast lines) = lines.flatMap list := by
  induction lines generalizing isFirst with
  | nil => exact hlist.nil
  | cons line rest ih => rw [Tree.shownLines, hlist.glue, hlist.shownLine, ih, List.flatMap_cons]

/-- The pieces of the lines of a text are the pieces of the text. -/
theorem lines (hlist : CutAtBlanks list) (s : List Char) :
    (splitAtEach (· == '\n') s).flatMap list = list s := by
  obtain ⟨line, rest, hs⟩ := List.exists_cons_of_ne_nil (splitAtEach_ne_nil (· == '\n') s)
  have hrest : ∀ (line : List Char) (rest : List (List Char)),
      list (line ++ rest.flatMap (List.cons '\n')) = list line ++ rest.flatMap list := by
    intro line rest
    induction rest generalizing line with
    | nil => rw [List.flatMap_nil, List.flatMap_nil, List.append_nil, List.append_nil]
    | cons next rest ih =>
      rw [List.flatMap_cons, List.cons_append, hlist.append (by decide), ih, List.flatMap_cons]
  rw [hs, List.flatMap_cons, ← hrest, join_splitAtEach hs]

/-- **A list of pieces between blanks is kept by what a text shows.** -/
theorem visibleChars (hlist : CutAtBlanks list) (s : List Char) :
    list (visibleChars s) = list s := by
  rw [visibleChars_eq, hlist.shownLines, hlist.lines]

end MarkupEdit.Text.CutAtBlanks

namespace MarkupEdit.Tree

open MarkupEdit.Text MarkupEdit.Edit

variable {u v : List Char}

/-- The words of a text with its references decoded. -/
theorem cutAtBlanks_decodedWords :
    CutAtBlanks fun s => blankWords (decodeReferences s) where
  nil := by rw [decodeReferences]; rfl
  append h s t := by rw [decodeReferences_append_blank h, blankWords_append h]

/-! ## One line -/

/-- A text behind another keeps its end. -/
theorem dropWhileEnd_append {p : Char → Bool} (hv : v ≠ []) (h : dropWhileEnd p v = v) :
    dropWhileEnd p (u ++ v) = u ++ v := by
  have hlast := List.rdropWhile_eq_self_iff.mp h hv
  refine List.rdropWhile_eq_self_iff.mpr fun hne => ?_
  rwa [List.getLast_append_of_ne_nil hne hv]

/-- Glued texts have the end of the last one. -/
theorem dropWhileEnd_glue {p : Char → Bool} (hu : dropWhileEnd p u = u) (hv : dropWhileEnd p v = v) :
    dropWhileEnd p (glue u v) = glue u v := by
  by_cases hunil : u = []
  · rw [hunil, glue_nil_left, hv]
  by_cases hvnil : v = []
  · rw [hvnil, glue_nil_right, hu]
  rw [glue_of_ne_nil hunil hvnil, List.append_cons, dropWhileEnd_append hvnil hv]

/-- A line shows no carriage return at its end. -/
theorem dropWhileEnd_shownLine (isFirst isLast : Bool) (line : List Char) :
    dropWhileEnd (· == '\r') (shownLine isFirst isLast line) = shownLine isFirst isLast line := by
  have hagain : dropWhileEnd (· == '\r') (dropWhileEnd (· == '\r') line) =
      dropWhileEnd (· == '\r') line := List.rdropWhile_idempotent _ line
  cases isLast with
  | false => exact dropWhileEnd_dropBlankEnd isBlank_of_eq_return _
  | true =>
    cases isFirst with
    | true => exact hagain
    | false =>
      show dropWhileEnd _ (dropBlank _) = dropBlank _
      rw [← dropBlank_dropWhileEnd isBlank_of_eq_return, hagain]

theorem dropWhileEnd_shownLines (isFirst isLast : Bool) (lines : List (List Char)) :
    dropWhileEnd (· == '\r') (shownLines isFirst isLast lines) = shownLines isFirst isLast lines := by
  induction lines generalizing isFirst with
  | nil => rfl
  | cons line rest ih =>
    rw [shownLines]
    exact dropWhileEnd_glue (dropWhileEnd_shownLine _ _ _) (ih false)

theorem shownLine_sublist (isFirst isLast : Bool) (line : List Char) :
    (shownLine isFirst isLast line).Sublist line := by
  have hreturn : (dropWhileEnd (· == '\r') line).Sublist line := dropWhileEnd_sublist _ line
  have hstart : ∀ s : List Char, (dropBlank s).Sublist s := fun s => List.dropWhile_sublist isBlank
  have hend : ∀ s : List Char, (dropBlankEnd s).Sublist s := dropWhileEnd_sublist isBlank
  cases isFirst with
  | true =>
    cases isLast with
    | true => exact hreturn
    | false => exact (hend _).trans hreturn
  | false =>
    cases isLast with
    | true => exact (hstart _).trans hreturn
    | false => exact (hend _).trans ((hstart _).trans hreturn)

/-- Lines show no line break. -/
theorem break_not_mem_shownLines {lines : List (List Char)} (h : ∀ line ∈ lines, '\n' ∉ line)
    (isFirst isLast : Bool) : '\n' ∉ shownLines isFirst isLast lines := by
  induction lines generalizing isFirst with
  | nil => exact List.not_mem_nil
  | cons line rest ih =>
    have hline : '\n' ∉ shownLine isFirst (isLast && rest.isEmpty) line := fun hmem =>
      h line List.mem_cons_self ((shownLine_sublist _ _ line).mem hmem)
    have hrest := ih (fun line hl => h line (List.mem_cons_of_mem _ hl)) false
    rw [shownLines, glue]
    split
    · exact hrest
    split
    · exact hline
    · simp only [List.mem_append, List.mem_cons, not_or]
      exact ⟨hline, by decide, hrest⟩

/-- **What a text shows, shows itself.** -/
theorem visibleChars_visibleChars (s : List Char) :
    visibleChars (visibleChars s) = visibleChars s := by
  have hbreak : '\n' ∉ visibleChars s := by
    rw [visibleChars_eq]
    refine break_not_mem_shownLines (fun line hline hmem => ?_) true true
    exact absurd (forall_of_mem_splitAtEach hline '\n' hmem) (by decide)
  have hreturn : dropWhileEnd (· == '\r') (visibleChars s) = visibleChars s := by
    rw [visibleChars_eq]
    exact dropWhileEnd_shownLines true true _
  have hline : ∀ c ∈ visibleChars s, (c == '\n') = false := by
    intro c hc
    refine beq_false_of_ne fun heq => hbreak ?_
    rwa [heq] at hc
  -- it is one line, the first and the last
  rw [visibleChars_eq (visibleChars s), splitAtEach_of_forall hline]
  exact (glue_nil_right _).trans hreturn

/-- **A text is found by its words as it is written and as it shows**, whether its references are
decoded or not, and what it shows, shows itself. -/
theorem visibleText_keeps_words (text : String) :
    normalized (visibleText text) = normalized text ∧
      normalized (String.ofList (decodeReferences (visibleText text).toList)) =
        normalized (String.ofList (decodeReferences text.toList)) ∧
      visibleText (visibleText text) = visibleText text := by
  refine ⟨normalized_congr ?_, normalized_congr ?_, ?_⟩
  · rw [visibleText, String.toList_ofList]
    exact cutAtBlanks_blankWords.visibleChars _
  · rw [visibleText, String.toList_ofList, String.toList_ofList, String.toList_ofList]
    exact cutAtBlanks_decodedWords.visibleChars _
  · rw [visibleText, visibleText, String.toList_ofList, visibleChars_visibleChars]

end MarkupEdit.Tree
