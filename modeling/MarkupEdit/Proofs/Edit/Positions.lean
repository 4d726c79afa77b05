import Mathlib.Data.List.DropRight
import MarkupEdit.Edit.Engine
import MarkupEdit.Proofs.Text.LineOffsets

/-!
# Offsets and positions

A position is a line, counted from one, and a column in UTF-16 units. Every offset between two
characters has one, and as long as 32 bits can say it, it leads back to the offset.

* `startPosition_of_append`: the position of an offset.
* `offsetOf?_startPosition_of_append`: **it leads back to the offset.**
* `positions_exact`: **offsets and positions, both ways.**
-/

namespace MarkupEdit.Edit

open MarkupEdit.Text

variable {l front line : List Char}

/-- What a text holds behind its last line break. -/
def lastLine (l : List Char) : List Char := l.rtakeWhile (· != '\n')

theorem lastLine_append (hfront : OpensLine front) (hline : '\n' ∉ line) :
    lastLine (front ++ line) = line := by
  have hall : ∀ c ∈ line.reverse, (c != '\n') = true := by
    intro c hc
    have hne : c ≠ '\n' := fun heq => hline (heq ▸ List.mem_reverse.mp hc)
    simpa using hne
  have hstop : front.reverse.takeWhile (· != '\n') = [] := by
    rcases hfront with rfl | ⟨before, rfl⟩
    · rfl
    · simp
  rw [lastLine, List.rtakeWhile, List.reverse_append, List.takeWhile_append_of_pos hall, hstop,
    List.append_nil, List.reverse_reverse]

theorem toNat_ofNat_min {k : Nat} (h : k ≤ greatest32) :
    (UInt32.ofNat (min k greatest32)).toNat = k := by
  rw [Nat.min_eq_left h, UInt32.toNat_ofNat_of_lt' (Nat.lt_succ_of_le h)]

/-- **The position of an offset**, as far as 32 bits can say it. -/
theorem startPosition_of_append (l r : List Char) :
    startPosition (l ++ r) (LineIndex.ofText (l ++ r)) (byteSize l) =
      (UInt32.ofNat (min (l.count '\n' + 1) greatest32),
        UInt32.ofNat (min (utf16Length (lastLine l)) greatest32)) := by
  obtain ⟨front, line, rfl, hfront, hline⟩ := exists_lastLine l
  have hrow : (front ++ line).count '\n' = front.count '\n' := by
    rw [List.count_append, List.count_eq_zero_of_not_mem hline, Nat.add_zero]
  have hstart : (LineIndex.ofText (front ++ line ++ r)).starts[front.count '\n']? =
      some (byteSize front) := by
    rw [List.append_assoc]
    exact getElem?_starts hfront hline
  have hbetween : bytesBetween (byteSize front) (byteSize (front ++ line)) (front ++ line ++ r) =
      line := by
    rw [List.append_assoc]
    exact bytesBetween_append front line r
  rw [startPosition, lineOf_ofText, hrow, hstart, lastLine_append hfront hline]
  dsimp only
  rw [hbetween]

/-- **A position that 32 bits can say leads back to its offset.** -/
theorem offsetOf?_startPosition_of_append {l r : List Char} (hrow : l.count '\n' + 1 ≤ greatest32)
    (hcolumn : utf16Length (lastLine l) ≤ greatest32) :
    (LineIndex.ofText (l ++ r)).offsetOf? (l ++ r)
        (startPosition (l ++ r) (LineIndex.ofText (l ++ r)) (byteSize l)).1.toNat
        (startPosition (l ++ r) (LineIndex.ofText (l ++ r)) (byteSize l)).2.toNat =
      some (byteSize l) := by
  rw [startPosition_of_append]
  dsimp only
  rw [toNat_ofNat_min hrow, toNat_ofNat_min hcolumn]
  obtain ⟨front, line, rfl, hfront, hline⟩ := exists_lastLine l
  rw [lastLine_append hfront hline, List.count_append, List.count_eq_zero_of_not_mem hline,
    Nat.add_zero, List.append_assoc]
  exact offsetOf?_ofText hfront hline r

/-- **Offsets and positions agree both ways.** The line of an offset between two characters is the
number of line breaks in front of it, and its position leads back to it, as long as line and column fit
in 32 bits. In a line that exists every column means an offset: the least one in the line with as many
UTF-16 units in front of it in the line, or the end of the line in front of its line break. A greater
column means no smaller offset, and only where the line does not exist there is none. -/
theorem positions_exact (s : List Char) :
    (∀ l r, s = l ++ r →
      (LineIndex.ofText s).lineOf (byteSize l) = l.count '\n' ∧
      (l.count '\n' + 1 < UInt32.size → utf16Length (lastLine l) < UInt32.size →
        ∀ number column, startPosition s (LineIndex.ofText s) (byteSize l) = (number, column) →
          number.toNat = l.count '\n' + 1 ∧ column.toNat = utf16Length (lastLine l) ∧
            (LineIndex.ofText s).offsetOf? s number.toNat column.toNat = some (byteSize l))) ∧
    (∀ number, 1 ≤ number → number ≤ s.count '\n' + 1 →
      ∃ front line rest, IsLine s front line rest ∧ front.count '\n' + 1 = number ∧
        ∀ column, ∃ offset, (LineIndex.ofText s).offsetOf? s number column = some offset ∧
          IsLeast (reaching front line column) offset) ∧
    (∀ number column column' offset offset', column ≤ column' →
      (LineIndex.ofText s).offsetOf? s number column = some offset →
      (LineIndex.ofText s).offsetOf? s number column' = some offset' → offset ≤ offset') ∧
    ∀ number column, (LineIndex.ofText s).offsetOf? s number column = none ↔
      ¬ (1 ≤ number ∧ number ≤ s.count '\n' + 1) := by
  refine ⟨?_, ?_, ?_, offsetOf?_eq_none_iff s⟩
  · rintro l r rfl
    refine ⟨lineOf_ofText l r, ?_⟩
    intro hrow hcolumn number column hposition
    have hrow : l.count '\n' + 1 ≤ greatest32 := Nat.le_of_lt_succ hrow
    have hcolumn : utf16Length (lastLine l) ≤ greatest32 := Nat.le_of_lt_succ hcolumn
    have hback := offsetOf?_startPosition_of_append (r := r) hrow hcolumn
    rw [hposition] at hback
    rw [startPosition_of_append, Prod.mk.injEq] at hposition
    obtain ⟨rfl, rfl⟩ := hposition
    exact ⟨toNat_ofNat_min hrow, toNat_ofNat_min hcolumn, hback⟩
  · intro number hpos hle
    have hnumber : number - 1 ≤ s.count '\n' := by omega
    obtain ⟨front, line, rest, hline, hcount⟩ := exists_isLine hnumber
    have hsame : front.count '\n' + 1 = number := by omega
    refine ⟨front, line, rest, hline, hsame, ?_⟩
    intro column
    rw [← hsame]
    exact offsetOf?_isLeast hline column
  · intro number column column' offset offset' hcolumns h h'
    exact offsetOf?_mono hcolumns h h'

end MarkupEdit.Edit
