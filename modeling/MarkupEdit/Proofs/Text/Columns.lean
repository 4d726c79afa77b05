import Mathlib.Data.List.TakeWhile
import MarkupEdit.Text.Lines

/-!
# Lines and columns of offsets

An offset between two characters has a line and, counted from the start of that line, a column. From
both the offset is found again.

* `OpensLine`, `IsLine`: what a line starts behind, and a line of a text.
* `lineOf_ofText`: the line of an offset is the number of line breaks in front of it.
* `starts_ofText`: where that line starts.
* `offsetOf?_of_isLine`: the offset of a column is looked for in the line alone.
* `offsetOf?_ofText`: **the line and the column of an offset lead back to it.**
* `count_le_byteSize`, `utf16_le_byteSize`: neither is greater than the number of bytes.
-/

namespace MarkupEdit.Text

variable {l r front line rest : List Char} {a b : Nat}

/-! ## Starts of lines -/

theorem startsBehindBreaks_append (a : Nat) (l r : List Char) :
    startsBehindBreaks a (l ++ r) =
      startsBehindBreaks a l ++ startsBehindBreaks (a + byteSize l) r := by
  induction l generalizing a with
  | nil => rfl
  | cons c l ih =>
    rw [List.cons_append, startsBehindBreaks, startsBehindBreaks, byteSize_cons, ← Nat.add_assoc, ih]
    split <;> rfl

theorem length_startsBehindBreaks (a : Nat) (l : List Char) :
    (startsBehindBreaks a l).length = l.count '\n' := by
  induction l generalizing a with
  | nil => rfl
  | cons c l ih =>
    rw [startsBehindBreaks, List.count_cons]
    split
    · rw [List.length_cons, ih]
    · exact ih _

theorem startsBehindBreaks_of_notMem (a : Nat) (h : '\n' ∉ l) : startsBehindBreaks a l = [] := by
  rw [← List.length_eq_zero_iff, length_startsBehindBreaks, List.count_eq_zero_of_not_mem h]

/-- A line starts behind a line break, so behind the start of the text, and not behind its end. -/
theorem bounds_of_mem (h : b ∈ startsBehindBreaks a l) : a < b ∧ b ≤ a + byteSize l := by
  induction l generalizing a with
  | nil => cases h
  | cons c l ih =>
    have hsize := c.utf8Size_pos
    rw [startsBehindBreaks] at h
    rw [byteSize_cons]
    split at h
    · rcases List.mem_cons.mp h with rfl | h
      · omega
      · have := ih h
        omega
    · have := ih h
      omega

/-- What a line starts behind: nothing, or a line break. -/
def OpensLine (front : List Char) : Prop := front = [] ∨ ∃ before, front = before ++ ['\n']

/-- Every text is what its last line starts behind, and that line. -/
theorem exists_lastLine (l : List Char) :
    ∃ front line, l = front ++ line ∧ OpensLine front ∧ '\n' ∉ line := by
  induction l with
  | nil => exact ⟨[], [], rfl, .inl rfl, List.not_mem_nil⟩
  | cons c l ih =>
    obtain ⟨front, line, rfl, hfront, hline⟩ := ih
    rcases hfront with rfl | ⟨before, rfl⟩
    · -- the first line goes on, unless the character ends a line
      by_cases hc : c = '\n'
      · subst hc
        exact ⟨['\n'], line, rfl, .inr ⟨[], rfl⟩, hline⟩
      · refine ⟨[], c :: line, rfl, .inl rfl, fun h => ?_⟩
        rcases List.mem_cons.mp h with h | h
        · exact hc h.symm
        · exact hline h
    · exact ⟨c :: (before ++ ['\n']), line, rfl, .inr ⟨c :: before, rfl⟩, hline⟩

theorem starts_ofText (h : '\n' ∉ line) :
    (LineIndex.ofText (front ++ (line ++ rest))).starts =
      (0 :: startsBehindBreaks 0 front) ++ startsBehindBreaks (byteSize (front ++ line)) rest := by
  rw [LineIndex.ofText, ← List.append_assoc, startsBehindBreaks_append, startsBehindBreaks_append,
    startsBehindBreaks_of_notMem _ h, List.append_nil, Nat.zero_add, List.cons_append]

/-- The last line of a text starts where the text in front of it ends. -/
theorem getElem?_count (h : OpensLine front) :
    (0 :: startsBehindBreaks 0 front)[front.count '\n']? = some (byteSize front) := by
  rcases h with rfl | ⟨before, rfl⟩
  · rfl
  · have hcount : (before ++ ['\n']).count '\n' = (startsBehindBreaks 0 before).length + 1 := by
      rw [List.count_append, length_startsBehindBreaks]
      rfl
    rw [hcount, List.getElem?_cons_succ, startsBehindBreaks_append,
      List.getElem?_append_right (Nat.le_refl _), Nat.sub_self, byteSize_append, Nat.zero_add]
    rfl

theorem getElem?_starts (hfront : OpensLine front) (hline : '\n' ∉ line) :
    (LineIndex.ofText (front ++ (line ++ rest))).starts[front.count '\n']? =
      some (byteSize front) := by
  rw [starts_ofText hline, List.getElem?_append_left, getElem?_count hfront]
  rw [List.length_cons, length_startsBehindBreaks]
  exact Nat.lt_succ_self _

/-! ## From an offset to its line and back -/

/-- **The line of an offset is the number of line breaks in front of it.** -/
theorem lineOf_ofText (l r : List Char) :
    (LineIndex.ofText (l ++ r)).lineOf (byteSize l) = l.count '\n' := by
  have hstarts : (LineIndex.ofText (l ++ r)).starts =
      (0 :: startsBehindBreaks 0 l) ++ startsBehindBreaks (byteSize l) r := by
    have hempty : '\n' ∉ ([] : List Char) := List.not_mem_nil
    rw [← List.nil_append r, starts_ofText hempty, List.append_nil, List.nil_append]
  -- the lines that start up to the offset are those behind the breaks in front of it
  have hbefore : ∀ b ∈ 0 :: startsBehindBreaks 0 l, decide (b ≤ byteSize l) = true := by
    intro b hb
    rcases List.mem_cons.mp hb with rfl | hb
    · exact decide_eq_true (Nat.zero_le _)
    · have := bounds_of_mem hb
      exact decide_eq_true (by omega)
  have hbehind : (startsBehindBreaks (byteSize l) r).takeWhile (· ≤ byteSize l) = [] := by
    cases hr : startsBehindBreaks (byteSize l) r with
    | nil => rfl
    | cons b _ =>
      have := bounds_of_mem (hr ▸ List.mem_cons_self : b ∈ startsBehindBreaks (byteSize l) r)
      rw [List.takeWhile_cons, if_neg (by simpa using this.1)]
  rw [LineIndex.lineOf, hstarts, List.takeWhile_append_of_pos hbefore, hbehind, List.append_nil,
    List.length_cons, length_startsBehindBreaks, Nat.add_sub_cancel]

/-- What stands between two offsets. -/
theorem bytesBetween_append (l m r : List Char) :
    bytesBetween (byteSize l) (byteSize (l ++ m)) (l ++ (m ++ r)) = m := by
  induction l with
  | nil =>
    rw [List.nil_append, List.nil_append, byteSize_nil]
    induction m with
    | nil => cases r <;> rfl
    | cons c m ih =>
      have := c.utf8Size_pos
      rw [List.cons_append, bytesBetween, byteSize_cons, if_neg (by omega), if_pos rfl,
        Nat.add_sub_cancel_left, ih]
  | cons c l ih =>
    have := c.utf8Size_pos
    rw [List.cons_append, List.cons_append, bytesBetween, byteSize_cons, byteSize_cons,
      if_neg (by omega), if_neg (by omega), Nat.add_sub_cancel_left, Nat.add_sub_cancel_left, ih]

/-- As many units as a part of a line has lead behind it. -/
theorem utf16PrefixBytes_append (h : '\n' ∉ line) (rest : List Char) :
    utf16PrefixBytes (total utf16Size line) (line ++ rest) = byteSize line := by
  induction line with
  | nil => cases rest <;> rfl
  | cons c line ih =>
    obtain ⟨hc, hline⟩ := not_or.mp (mt List.mem_cons.mpr h)
    have hsize : 0 < utf16Size c := by
      unfold utf16Size
      split <;> decide
    rw [total_cons, List.cons_append, utf16PrefixBytes, byteSize_cons, if_neg,
      Nat.add_sub_cancel_left, ih hline]
    rw [Bool.or_eq_true, decide_eq_true_eq, beq_iff_eq, not_or]
    exact ⟨by omega, fun heq => hc heq.symm⟩

/-- A line of a text without its line break, between what it starts behind and what follows it. -/
structure IsLine (s front line rest : List Char) : Prop where
  eq : s = front ++ (line ++ rest)
  opens : OpensLine front
  unbroken : '\n' ∉ line
  closes : ∀ c ∈ rest.head?, c = '\n'

/-- A line ends at its line break, or at the end of the text. -/
theorem lineRange?_of_isLine {s : List Char} (h : IsLine s front line rest) :
    (LineIndex.ofText s).lineRange? (front.count '\n') =
      some (byteSize front, byteSize (front ++ (line ++ rest.take 1))) := by
  obtain ⟨rfl, hfront, hline, hclose⟩ := h
  have hnext : (LineIndex.ofText (front ++ (line ++ rest))).starts[front.count '\n' + 1]? =
      (startsBehindBreaks (byteSize (front ++ line)) rest)[0]? := by
    have hlength : (0 :: startsBehindBreaks 0 front).length = front.count '\n' + 1 := by
      rw [List.length_cons, length_startsBehindBreaks]
    rw [starts_ofText hline, List.getElem?_append_right (Nat.le_of_eq hlength), hlength,
      Nat.sub_self]
  rw [LineIndex.lineRange?, getElem?_starts hfront hline, hnext, Option.map_some]
  cases rest with
  | nil => rfl
  | cons c rest =>
    have hc : c = '\n' := hclose c rfl
    have hstart : (startsBehindBreaks (byteSize (front ++ line)) (c :: rest))[0]? =
        some (byteSize (front ++ line) + c.utf8Size) := by
      rw [hc]
      rfl
    rw [hstart]
    simp [Nat.add_assoc]

/-- Columns are counted up to the line break. -/
theorem utf16PrefixBytes_append_of_closes (units : Nat) (hclose : ∀ c ∈ rest.head?, c = '\n') :
    utf16PrefixBytes units (line ++ rest) = utf16PrefixBytes units line := by
  induction line generalizing units with
  | nil =>
    cases rest with
    | nil => rfl
    | cons c rest =>
      have hc : c = '\n' := hclose c rfl
      simp [utf16PrefixBytes, hc]
  | cons c line ih =>
    rw [List.cons_append, utf16PrefixBytes, utf16PrefixBytes, ih]

/-- **The offset of a column is looked for in the line alone.** -/
theorem offsetOf?_of_isLine {s : List Char} (h : IsLine s front line rest) (column : Nat) :
    (LineIndex.ofText s).offsetOf? s (front.count '\n' + 1) column =
      some (byteSize front + utf16PrefixBytes column line) := by
  have hrange := lineRange?_of_isLine h
  have hclose : ∀ c ∈ (rest.take 1).head?, c = '\n' := by
    rw [List.head?_take]
    simpa using h.closes
  have hbetween : bytesBetween (byteSize front) (byteSize (front ++ (line ++ rest.take 1))) s =
      line ++ rest.take 1 := by
    have hs : s = front ++ ((line ++ rest.take 1) ++ rest.drop 1) := by
      rw [List.append_assoc, List.take_append_drop, h.eq]
    rw [hs]
    exact bytesBetween_append front (line ++ rest.take 1) (rest.drop 1)
  rw [LineIndex.offsetOf?]
  dsimp only
  rw [hrange, Option.map_some]
  dsimp only
  rw [hbetween, utf16PrefixBytes_append_of_closes column hclose]

/-- A part of a line that starts with it goes on to its end. -/
theorem exists_isLine_append (hfront : OpensLine front) (hline : '\n' ∉ line)
    (rest : List Char) :
    ∃ tail rest', rest = tail ++ rest' ∧
      IsLine (front ++ (line ++ rest)) front (line ++ tail) rest' := by
  refine ⟨rest.takeWhile (· != '\n'), rest.dropWhile (· != '\n'),
    List.takeWhile_append_dropWhile.symm, ⟨?_, hfront, ?_, ?_⟩⟩
  · rw [List.append_assoc, List.takeWhile_append_dropWhile]
  · intro hmem
    rcases List.mem_append.mp hmem with hmem | hmem
    · exact hline hmem
    · have hne := List.mem_takeWhile_imp hmem
      simp at hne
  · intro c hc
    have hstop := List.head?_dropWhile_not (· != '\n') rest
    rw [Option.mem_def.mp hc] at hstop
    simpa using hstop

/-- **The line and the column of an offset lead back to it.** -/
theorem offsetOf?_ofText (hfront : OpensLine front) (hline : '\n' ∉ line) (rest : List Char) :
    (LineIndex.ofText (front ++ (line ++ rest))).offsetOf? (front ++ (line ++ rest))
        (front.count '\n' + 1) (total utf16Size line) =
      some (byteSize (front ++ line)) := by
  obtain ⟨tail, rest', -, hwhole⟩ := exists_isLine_append hfront hline rest
  rw [offsetOf?_of_isLine hwhole, utf16PrefixBytes_append hline, byteSize_append]

/-! ## How great they are -/

theorem count_le_byteSize (l : List Char) : l.count '\n' ≤ byteSize l := by
  induction l with
  | nil => exact Nat.le_refl _
  | cons c l ih =>
    have := c.utf8Size_pos
    rw [List.count_cons, byteSize_cons]
    split <;> omega

theorem utf16Size_le (c : Char) : utf16Size c ≤ c.utf8Size := by
  by_cases hc : c.toNat < 0x10000
  · rw [utf16Size, if_pos hc]
    exact c.utf8Size_pos
  · -- a character of two units has four bytes
    have hgreater : ∀ k : UInt32, k.toNat < 0x10000 → ¬ c.val ≤ k := by
      intro k hk hle
      exact hc (Nat.lt_of_le_of_lt (UInt32.le_iff_toNat_le.mp hle) hk)
    rw [utf16Size, if_neg hc, Char.utf8Size, if_neg (hgreater _ (by decide)),
      if_neg (hgreater _ (by decide)), if_neg (hgreater _ (by decide))]
    decide

theorem utf16_le_byteSize (l : List Char) : total utf16Size l ≤ byteSize l := by
  induction l with
  | nil => exact Nat.le_refl _
  | cons c l ih =>
    rw [total_cons, byteSize_cons]
    exact Nat.add_le_add (utf16Size_le c) ih

end MarkupEdit.Text
