import Mathlib.Order.Bounds.Basic
import MarkupEdit.Proofs.Text.Columns

/-!
# The offset of a column

A line and a column in UTF-16 units always mean an offset if the line exists: the first one in the line
with as many units in front of it, or the end of the line if there are fewer. A column in the middle of
a character means the offset behind it.

* `exists_isLine`: the lines of a text are as many as its line breaks, and one more.
* `utf16PrefixBytes_isLeast`: the prefix of a line that a column stands for.
* `offsetOf?_isLeast`: **the offset of a line and a column.**
* `offsetOf?_mono`, `offsetOf?_eq_none_iff`: greater columns, and lines that do not exist.
-/

namespace MarkupEdit.Text

variable {s front line rest : List Char} {number column column' offset offset' : Nat}

/-! ## Lines -/

theorem OpensLine.cons (h : OpensLine front) (hne : front ≠ []) (c : Char) :
    OpensLine (c :: front) := by
  rcases h with rfl | ⟨before, rfl⟩
  · exact absurd rfl hne
  · exact .inr ⟨c :: before, rfl⟩

/-- One more character in front of a text leaves a line as it is, or makes the first one longer. -/
theorem IsLine.cons (h : IsLine s front line rest) {c : Char} (hc : c ≠ '\n') :
    ∃ front' line', IsLine (c :: s) front' line' rest ∧ front'.count '\n' = front.count '\n' := by
  have hs := h.eq
  by_cases hfront : front = []
  · refine ⟨[], c :: line, ⟨?_, .inl rfl, ?_, h.closes⟩, by rw [hfront]⟩
    · rw [hs, hfront]
      rfl
    · intro hmem
      rcases List.mem_cons.mp hmem with heq | hmem
      · exact hc heq.symm
      · exact h.unbroken hmem
  · refine ⟨c :: front, line, ⟨?_, OpensLine.cons h.opens hfront c, h.unbroken, h.closes⟩, ?_⟩
    · rw [hs]
      rfl
    · rw [List.count_cons_of_ne hc]

/-- Behind one more line break every line is the next one. -/
theorem IsLine.cons_break (h : IsLine s front line rest) :
    IsLine ('\n' :: s) ('\n' :: front) line rest := by
  refine ⟨by rw [h.eq]; rfl, ?_, h.unbroken, h.closes⟩
  by_cases hfront : front = []
  · rw [hfront]
    exact .inr ⟨[], rfl⟩
  · exact OpensLine.cons h.opens hfront '\n'

/-- **A text has a line behind any number of its line breaks.** -/
theorem exists_isLine (hnumber : number ≤ s.count '\n') :
    ∃ front line rest, IsLine s front line rest ∧ front.count '\n' = number := by
  induction s generalizing number with
  | nil =>
    have hzero : number = 0 := by simpa using hnumber
    exact ⟨[], [], [], ⟨rfl, .inl rfl, by simp, by simp⟩, by simp [hzero]⟩
  | cons c s ih =>
    by_cases hc : c = '\n'
    · subst hc
      cases number with
      | zero => exact ⟨[], [], '\n' :: s, ⟨rfl, .inl rfl, by simp, by simp⟩, rfl⟩
      | succ number =>
        have hle : number ≤ s.count '\n' := by
          rw [List.count_cons_self] at hnumber
          omega
        obtain ⟨front, line, rest, hline, hcount⟩ := ih hle
        exact ⟨'\n' :: front, line, rest, hline.cons_break, by rw [List.count_cons_self, hcount]⟩
    · have hle : number ≤ s.count '\n' := by
        simpa [List.count_cons, hc] using hnumber
      obtain ⟨front, line, rest, hline, hcount⟩ := ih hle
      obtain ⟨front', line', hline', hcount'⟩ := hline.cons hc
      exact ⟨front', line', rest, hline', by rw [hcount', hcount]⟩

/-! ## From a position to an offset -/

/-- The boundaries in a line with as many UTF-16 units in front of them in the line, and its end. -/
def reaching (front line : List Char) (column : Nat) : Set Nat :=
  {offset | ∃ before after, line = before ++ after ∧ offset = byteSize (front ++ before) ∧
    (column ≤ total utf16Size before ∨ after = [])}

theorem reaching_anti (h : column ≤ column') :
    reaching front line column' ⊆ reaching front line column := by
  rintro offset ⟨before, after, hline, hoffset, hreach⟩
  exact ⟨before, after, hline, hoffset, hreach.imp_left (Nat.le_trans h)⟩

/-- **The prefix of a line for a column** is the shortest with as many units, or the whole line. -/
theorem utf16PrefixBytes_isLeast (hline : '\n' ∉ line) (column : Nat) :
    IsLeast (reaching [] line column) (utf16PrefixBytes column line) := by
  induction line generalizing column with
  | nil =>
    refine ⟨⟨[], [], rfl, rfl, .inr rfl⟩, ?_⟩
    intro offset _
    exact Nat.zero_le offset
  | cons c line ih =>
    obtain ⟨hc, hline⟩ := not_or.mp (mt List.mem_cons.mpr hline)
    by_cases hzero : column = 0
    · have hstep : utf16PrefixBytes column (c :: line) = 0 := by simp [utf16PrefixBytes, hzero]
      rw [hstep]
      refine ⟨⟨[], c :: line, rfl, rfl, .inl (by omega)⟩, ?_⟩
      intro offset _
      exact Nat.zero_le offset
    · -- the first character counts, and what is left of the column is looked for behind it
      have hstep : utf16PrefixBytes column (c :: line) =
          c.utf8Size + utf16PrefixBytes (column - utf16Size c) line := by
        simp [utf16PrefixBytes, hzero, Ne.symm hc]
      obtain ⟨⟨before, after, hsplit, hsize, hreach⟩, hleast⟩ := ih hline (column - utf16Size c)
      have hunits : ∀ t : List Char, total utf16Size (c :: t) = utf16Size c + total utf16Size t :=
        fun _ => rfl
      rw [hstep]
      refine ⟨⟨c :: before, after, by rw [hsplit, List.cons_append], ?_, ?_⟩, ?_⟩
      · rw [hsize]
        rfl
      · refine hreach.imp_left fun hle => ?_
        have := hunits before
        omega
      · rintro offset ⟨before', after', hsplit', rfl, hreach'⟩
        cases before' with
        | nil =>
          -- nothing is in front of the line, and more than nothing behind
          rcases hreach' with hle | hnil
          · have hnone : total utf16Size [] = 0 := rfl
            omega
          · rw [hnil] at hsplit'
            cases hsplit'
        | cons d before' =>
          obtain ⟨rfl, htail⟩ := List.cons.inj hsplit'
          have hmem : byteSize before' ∈ reaching [] line (column - utf16Size c) := by
            refine ⟨before', after', htail, rfl, hreach'.imp_left fun hle => ?_⟩
            have := hunits before'
            omega
          have hle := hleast hmem
          rw [List.nil_append, byteSize_cons]
          omega

/-- **A column of a line means the least boundary that reaches it**, or the end of the line. -/
theorem offsetOf?_isLeast (h : IsLine s front line rest) (column : Nat) :
    ∃ offset, (LineIndex.ofText s).offsetOf? s (front.count '\n' + 1) column = some offset ∧
      IsLeast (reaching front line column) offset := by
  obtain ⟨⟨before, after, hsplit, hsize, hreach⟩, hleast⟩ :=
    utf16PrefixBytes_isLeast h.unbroken column
  refine ⟨_, offsetOf?_of_isLine h column, ⟨before, after, hsplit, ?_, hreach⟩, ?_⟩
  · rw [hsize, List.nil_append, byteSize_append]
  · rintro offset ⟨before', after', hsplit', rfl, hreach'⟩
    have hle := hleast ⟨before', after', hsplit', rfl, hreach'⟩
    rw [List.nil_append] at hle
    rw [byteSize_append]
    omega

/-- A column in the middle of a character means the offset behind it. -/
example : (LineIndex.ofText "é😀x".toList).offsetOf? "é😀x".toList 1 2 = some 6 := by decide

/-- **Only a line that does not exist has no offsets.** -/
theorem offsetOf?_eq_none_iff (s : List Char) (number column : Nat) :
    (LineIndex.ofText s).offsetOf? s number column = none ↔
      ¬ (1 ≤ number ∧ number ≤ s.count '\n' + 1) := by
  cases number with
  | zero => simp [LineIndex.offsetOf?]
  | succ number =>
    have hlength : (LineIndex.ofText s).starts.length = s.count '\n' + 1 := by
      rw [LineIndex.ofText, List.length_cons, length_startsBehindBreaks]
    simp only [LineIndex.offsetOf?, LineIndex.lineRange?, Option.map_eq_none_iff,
      List.getElem?_eq_none_iff, hlength]
    omega

/-- A line that has an offset exists. -/
theorem exists_isLine_of_offsetOf?
    (h : (LineIndex.ofText s).offsetOf? s number column = some offset) :
    ∃ front line rest, IsLine s front line rest ∧ front.count '\n' + 1 = number := by
  have hsome : ¬ (LineIndex.ofText s).offsetOf? s number column = none := by
    rw [h]
    exact Option.some_ne_none offset
  rw [offsetOf?_eq_none_iff, not_not] at hsome
  have hnumber : number - 1 ≤ s.count '\n' := by omega
  obtain ⟨front, line, rest, hline, hcount⟩ := exists_isLine hnumber
  exact ⟨front, line, rest, hline, by omega⟩

/-- **A greater column means no smaller offset.** -/
theorem offsetOf?_mono (hcolumns : column ≤ column')
    (h : (LineIndex.ofText s).offsetOf? s number column = some offset)
    (h' : (LineIndex.ofText s).offsetOf? s number column' = some offset') : offset ≤ offset' := by
  obtain ⟨front, line, rest, hline, rfl⟩ := exists_isLine_of_offsetOf? h
  obtain ⟨o, ho, -, hleast⟩ := offsetOf?_isLeast hline column
  obtain ⟨o', ho', hmem, -⟩ := offsetOf?_isLeast hline column'
  rw [h, Option.some.injEq] at ho
  rw [h', Option.some.injEq] at ho'
  subst ho ho'
  exact hleast (reaching_anti hcolumns hmem)

end MarkupEdit.Text
