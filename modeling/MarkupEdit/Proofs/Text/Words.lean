import Mathlib.Data.List.Basic
import MarkupEdit.Edit.Element
import MarkupEdit.Text.Point

/-!
# Words

A text is cut at its blanks, and its words are the pieces that have something in them. Words with
single spaces between them are the words of the text that they make, so there is one such text for
each text, and it is not longer.

* `splitAtEach_append`: the pieces on both sides of a cut; `join_splitAtEach`: the text that they make.
* `splitAtEach_intercalate`: pieces are read back from the text that they make.
* `CutAtBlanks`: lists that a text makes piece by piece between its blanks; its words are one.
* `blankWords_blank_append`, `blankWords_append_blank`: blanks around a text change nothing.
* `blankWords_intercalate`: **words are read back from the text that they make.**
* `normalized_eq_iff`: texts with the same words are the same once their blanks are single spaces.
* `normalized_normalized`: a text with single spaces for its blanks has no others.
* `length_normalized_le`: it is not longer than the text that it is made from.
-/

namespace MarkupEdit.Text

variable {p : Char → Bool} {s w : List Char} {ws : List (List Char)} {c : Char}

/-! ## Pieces -/

theorem splitAtEach_cons_of_pos (h : p c = true) (s : List Char) :
    splitAtEach p (c :: s) = [] :: splitAtEach p s := by
  rw [splitAtEach, if_pos h]

theorem splitAtEach_cons_of_neg (h : p c = false) {piece : List Char} {rest : List (List Char)}
    (hs : splitAtEach p s = piece :: rest) : splitAtEach p (c :: s) = (c :: piece) :: rest := by
  rw [splitAtEach, if_neg (Bool.eq_false_iff.mp h), hs]

/-- **The pieces on both sides of a cut.** -/
theorem splitAtEach_append (h : p c = true) (s t : List Char) :
    splitAtEach p (s ++ c :: t) = splitAtEach p s ++ splitAtEach p t := by
  induction s with
  | nil => exact splitAtEach_cons_of_pos h t
  | cons d s ih =>
    cases hd : p d with
    | true =>
      rw [List.cons_append, splitAtEach_cons_of_pos hd, splitAtEach_cons_of_pos hd, ih]
      rfl
    | false =>
      obtain ⟨piece, rest, hs⟩ := List.exists_cons_of_ne_nil (splitAtEach_ne_nil p s)
      rw [hs] at ih
      rw [List.cons_append, splitAtEach_cons_of_neg hd ih, splitAtEach_cons_of_neg hd hs]
      rfl

/-- A character behind a text is behind the last piece of it, if it makes no cut. -/
theorem exists_splitAtEach_concat (h : p c = false) (s : List Char) :
    ∃ pieces last, splitAtEach p s = pieces ++ [last] ∧
      splitAtEach p (s ++ [c]) = pieces ++ [last ++ [c]] := by
  induction s with
  | nil => exact ⟨[], [], rfl, splitAtEach_cons_of_neg h rfl⟩
  | cons d s ih =>
    obtain ⟨pieces, last, hs, hconcat⟩ := ih
    cases hd : p d with
    | true =>
      refine ⟨[] :: pieces, last, ?_, ?_⟩
      · rw [splitAtEach_cons_of_pos hd, hs, List.cons_append]
      · rw [List.cons_append, splitAtEach_cons_of_pos hd, hconcat, List.cons_append]
    | false =>
      cases pieces with
      | nil =>
        exact ⟨[], d :: last, splitAtEach_cons_of_neg hd hs, splitAtEach_cons_of_neg hd hconcat⟩
      | cons piece pieces =>
        exact ⟨(d :: piece) :: pieces, last, splitAtEach_cons_of_neg hd hs,
          splitAtEach_cons_of_neg hd hconcat⟩

theorem splitAtEach_of_forall (h : ∀ c ∈ s, p c = false) : splitAtEach p s = [s] := by
  induction s with
  | nil => rfl
  | cons c s ih =>
    exact splitAtEach_cons_of_neg (h c List.mem_cons_self)
      (ih fun d hd => h d (List.mem_cons_of_mem _ hd))

theorem forall_of_mem_splitAtEach (h : w ∈ splitAtEach p s) : ∀ c ∈ w, p c = false := by
  induction s generalizing w with
  | nil =>
    rw [splitAtEach, List.mem_singleton] at h
    rw [h]
    exact fun _ hc => absurd hc List.not_mem_nil
  | cons d s ih =>
    cases hd : p d with
    | true =>
      rw [splitAtEach_cons_of_pos hd] at h
      rcases List.mem_cons.mp h with rfl | h
      · exact fun _ hc => absurd hc List.not_mem_nil
      · exact ih h
    | false =>
      obtain ⟨piece, rest, hs⟩ := List.exists_cons_of_ne_nil (splitAtEach_ne_nil p s)
      rw [splitAtEach_cons_of_neg hd hs] at h
      rcases List.mem_cons.mp h with rfl | h
      · intro c hc
        rcases List.mem_cons.mp hc with rfl | hc
        · exact hd
        · exact ih (hs ▸ List.mem_cons_self) c hc
      · exact ih (hs ▸ List.mem_cons_of_mem _ h)

/-- The pieces of a text are made of its characters. -/
theorem mem_of_mem_splitAtEach (h : w ∈ splitAtEach p s) (hc : c ∈ w) : c ∈ s := by
  induction s generalizing w with
  | nil =>
    rw [splitAtEach, List.mem_singleton] at h
    rwa [h] at hc
  | cons d s ih =>
    cases hd : p d with
    | true =>
      rw [splitAtEach_cons_of_pos hd] at h
      rcases List.mem_cons.mp h with rfl | h
      · exact absurd hc List.not_mem_nil
      · exact List.mem_cons_of_mem _ (ih h hc)
    | false =>
      obtain ⟨piece, rest, hs⟩ := List.exists_cons_of_ne_nil (splitAtEach_ne_nil p s)
      rw [splitAtEach_cons_of_neg hd hs] at h
      rcases List.mem_cons.mp h with rfl | h
      · rcases List.mem_cons.mp hc with rfl | hc
        · exact List.mem_cons_self
        · exact List.mem_cons_of_mem _ (ih (hs ▸ List.mem_cons_self) hc)
      · exact List.mem_cons_of_mem _ (ih (hs ▸ List.mem_cons_of_mem _ h) hc)

/-- The pieces between the places of a character make up the text, with the character in front of each
but the first. -/
theorem join_splitAtEach {piece : List Char} {rest : List (List Char)}
    (h : splitAtEach (· == c) s = piece :: rest) : piece ++ rest.flatMap (List.cons c) = s := by
  induction s generalizing piece rest with
  | nil =>
    cases h
    rfl
  | cons d s ih =>
    obtain ⟨first, others, hs⟩ := List.exists_cons_of_ne_nil (splitAtEach_ne_nil (· == c) s)
    cases hd : d == c with
    | true =>
      rw [splitAtEach_cons_of_pos (p := (· == c)) hd] at h
      cases h
      rw [List.nil_append, hs, List.flatMap_cons, List.cons_append, ih hs, beq_iff_eq.mp hd]
    | false =>
      rw [splitAtEach_cons_of_neg (p := (· == c)) hd hs] at h
      cases h
      rw [List.cons_append, ih hs]

/-- **Pieces without a character are read back from the text that they make with it.** -/
theorem splitAtEach_intercalate {pieces : List (List Char)} (hne : pieces ≠ [])
    (h : ∀ piece ∈ pieces, c ∉ piece) :
    splitAtEach (· == c) ([c].intercalate pieces) = pieces := by
  induction pieces with
  | nil => exact absurd rfl hne
  | cons piece rest ih =>
    have hpiece : splitAtEach (· == c) piece = [piece] := by
      refine splitAtEach_of_forall fun d hd => beq_false_of_ne fun heq => ?_
      rw [heq] at hd
      exact h piece List.mem_cons_self hd
    cases rest with
    | nil => rw [List.intercalate_singleton, hpiece]
    | cons next rest =>
      have hrest := ih (List.cons_ne_nil _ _) fun p hp => h p (List.mem_cons_of_mem _ hp)
      rw [List.intercalate_cons_cons, List.append_assoc, List.singleton_append,
        splitAtEach_append (p := (· == c)) (beq_self_eq_true c), hpiece, hrest]
      rfl

/-- A text has as many characters as its pieces and the cuts between them. -/
theorem total_splitAtEach (p : Char → Bool) (s : List Char) :
    total (·.length + 1) (splitAtEach p s) = s.length + 1 := by
  induction s with
  | nil => rfl
  | cons c s ih =>
    cases hc : p c with
    | true =>
      rw [splitAtEach_cons_of_pos hc, total_cons, ih, List.length_nil, List.length_cons]
      omega
    | false =>
      obtain ⟨piece, rest, hs⟩ := List.exists_cons_of_ne_nil (splitAtEach_ne_nil p s)
      rw [hs, total_cons] at ih
      rw [splitAtEach_cons_of_neg hc hs, total_cons, List.length_cons, List.length_cons]
      omega

theorem total_le_of_sublist {α : Type} {measure : α → Nat} {l l' : List α} (h : l.Sublist l') :
    total measure l ≤ total measure l' := by
  induction h with
  | slnil => exact Nat.le_refl _
  | cons a _ ih => exact Nat.le_trans ih (Nat.le_add_left _ _)
  | cons_cons a _ ih => exact Nat.add_le_add_left ih _

/-! ## Lists that are cut at blanks -/

/-- What a text lists piece by piece, where a blank always ends a piece and adds nothing. -/
structure CutAtBlanks {α : Type} (list : List Char → List α) : Prop where
  nil : list [] = []
  append {c : Char} (h : isBlank c = true) (s t : List Char) :
    list (s ++ c :: t) = list s ++ list t

namespace CutAtBlanks

variable {α : Type} {list : List Char → List α}

/-- Blanks in front of a text add nothing. -/
theorem blank_append (hlist : CutAtBlanks list) (h : ∀ c ∈ s, isBlank c = true) (t : List Char) :
    list (s ++ t) = list t := by
  induction s with
  | nil => rfl
  | cons c s ih =>
    have hcut : list (c :: (s ++ t)) = list [] ++ list (s ++ t) :=
      hlist.append (h c List.mem_cons_self) [] (s ++ t)
    rw [List.cons_append, hcut, hlist.nil, ih fun d hd => h d (List.mem_cons_of_mem _ hd)]
    rfl

/-- Nor do blanks behind it. -/
theorem append_blank (hlist : CutAtBlanks list) (s : List Char) {t : List Char}
    (h : ∀ c ∈ t, isBlank c = true) : list (s ++ t) = list s := by
  cases t with
  | nil => rw [List.append_nil]
  | cons c t =>
    have hrest := hlist.blank_append (fun d hd => h d (List.mem_cons_of_mem _ hd)) []
    rw [List.append_nil, hlist.nil] at hrest
    rw [hlist.append (h c List.mem_cons_self), hrest, List.append_nil]

end CutAtBlanks

/-! ## Words -/

/-- A word has something in it, and no blanks. -/
def IsWord (w : List Char) : Prop := w ≠ [] ∧ ∀ c ∈ w, isBlank c = false

theorem isWord_of_mem (h : w ∈ blankWords s) : IsWord w := by
  obtain ⟨hmem, hne⟩ := List.mem_filter.mp h
  refine ⟨fun hnil => ?_, forall_of_mem_splitAtEach hmem⟩
  rw [hnil] at hne
  cases hne

theorem blankWords_append (h : isBlank c = true) (s t : List Char) :
    blankWords (s ++ c :: t) = blankWords s ++ blankWords t := by
  rw [blankWords, splitAtEach_append h, List.filter_append]
  rfl

theorem cutAtBlanks_blankWords : CutAtBlanks blankWords := ⟨rfl, blankWords_append⟩

/-- Blanks in front of a text change nothing about its words. -/
theorem blankWords_blank_append (h : ∀ c ∈ s, isBlank c = true) (t : List Char) :
    blankWords (s ++ t) = blankWords t := cutAtBlanks_blankWords.blank_append h t

/-- Nor do blanks behind it. -/
theorem blankWords_append_blank (s : List Char) {t : List Char} (h : ∀ c ∈ t, isBlank c = true) :
    blankWords (s ++ t) = blankWords s := cutAtBlanks_blankWords.append_blank s h

theorem blankWords_of_isWord (h : IsWord w) : blankWords w = [w] := by
  have hempty : (!w.isEmpty) = true := by
    rw [Bool.not_eq_true', List.isEmpty_eq_false_iff]
    exact h.1
  rw [blankWords, splitAtEach_of_forall h.2]
  exact List.filter_cons_of_pos hempty

/-- The words of texts with single spaces between them are the words of each. -/
theorem blankWords_intercalate_eq_flatMap (ws : List (List Char)) :
    blankWords ([' '].intercalate ws) = ws.flatMap blankWords := by
  induction ws with
  | nil => rfl
  | cons w ws ih =>
    cases ws with
    | nil => rw [List.intercalate_singleton, List.flatMap_cons, List.flatMap_nil, List.append_nil]
    | cons v ws =>
      rw [List.intercalate_cons_cons, List.append_assoc, List.singleton_append,
        blankWords_append (by decide), ih]
      rfl

/-- **Words are read back from the text that they make.** -/
theorem blankWords_intercalate (h : ∀ w ∈ ws, IsWord w) :
    blankWords ([' '].intercalate ws) = ws := by
  rw [blankWords_intercalate_eq_flatMap]
  exact (List.flatMap_congr fun w hw => blankWords_of_isWord (h w hw)).trans
    (List.flatMap_singleton' ws)

/-- A character of the text that words make is in one of the words or between them. -/
theorem mem_intercalate {d : Char} (h : c ∈ [d].intercalate ws) : c = d ∨ ∃ w ∈ ws, c ∈ w := by
  induction ws with
  | nil => exact absurd h List.not_mem_nil
  | cons w ws ih =>
    cases ws with
    | nil =>
      rw [List.intercalate_singleton] at h
      exact .inr ⟨w, List.mem_cons_self, h⟩
    | cons v ws =>
      rw [List.intercalate_cons_cons, List.append_assoc, List.mem_append, List.mem_append,
        List.mem_singleton] at h
      rcases h with h | h | h
      · exact .inr ⟨w, List.mem_cons_self, h⟩
      · exact .inl h
      · exact (ih h).imp_right fun ⟨u, hu, hcu⟩ => ⟨u, List.mem_cons_of_mem _ hu, hcu⟩

theorem length_intercalate_le (c : Char) (ws : List (List Char)) :
    ([c].intercalate ws).length ≤ total (·.length + 1) ws - 1 := by
  induction ws with
  | nil => exact Nat.zero_le _
  | cons w ws ih =>
    cases ws with
    | nil => rw [List.intercalate_singleton]; simp
    | cons v ws =>
      rw [total_cons] at ih
      rw [List.intercalate_cons_cons, List.length_append, List.length_append,
        List.length_singleton, total_cons, total_cons]
      omega

end MarkupEdit.Text

namespace MarkupEdit.Edit

open MarkupEdit.Text

theorem toList_normalized (s : String) :
    (normalized s).toList = [' '].intercalate (blankWords s.toList) := by
  rw [normalized, String.toList_intercalate, words, List.map_map]
  have hlist : String.toList ∘ String.ofList = id := funext fun l => String.toList_ofList
  rw [hlist, List.map_id]
  rfl

/-- Texts with the same words are the same once their blanks are single spaces. -/
theorem normalized_congr {s t : String} (h : blankWords s.toList = blankWords t.toList) :
    normalized s = normalized t := by
  rw [← String.toList_inj, toList_normalized, toList_normalized, h]

/-- A text has the words that it has with single spaces for its blanks. -/
theorem blankWords_normalized (s : String) :
    blankWords (normalized s).toList = blankWords s.toList := by
  rw [toList_normalized, blankWords_intercalate fun w hw => isWord_of_mem hw]

/-- Texts that are the same once their blanks are single spaces have the same words. -/
theorem normalized_eq_iff {s t : String} :
    normalized s = normalized t ↔ blankWords s.toList = blankWords t.toList := by
  refine ⟨fun h => ?_, normalized_congr⟩
  rw [← blankWords_normalized s, h, blankWords_normalized t]

/-- **A text with single spaces for its blanks stays as it is.** -/
theorem normalized_normalized (s : String) : normalized (normalized s) = normalized s :=
  normalized_congr (blankWords_normalized s)

theorem length_normalized_le (s : String) : (normalized s).toList.length ≤ s.toList.length := by
  have hsublist : (blankWords s.toList).Sublist (splitAtEach isBlank s.toList) :=
    List.filter_sublist
  have hle : total (·.length + 1) (blankWords s.toList) ≤
      total (·.length + 1) (splitAtEach isBlank s.toList) := total_le_of_sublist hsublist
  have hlength := length_intercalate_le ' ' (blankWords s.toList)
  rw [total_splitAtEach] at hle
  rw [toList_normalized]
  omega

end MarkupEdit.Edit
