import MarkupEdit.Proofs.Text.Digits
import MarkupEdit.Proofs.Tree.Escapes

/-!
# Reading a literal

The text between the quotes of a literal is made of characters that stand for themselves and of escapes,
and each of them denotes a code point, or nothing at the end of a line. An escape can stand for any code
point: for a half of a surrogate pair too, which is no character. Escapes are read one by one, and one
that is half of a character gives the replacement character.

* `EscapeSequence`, `LiteralBody`: what stands behind a backslash and between quotes.
* `unescapeFrom_escapeSequence`: what is read of one escape.
* `unescape_of_literalBody`: **what is read of a literal.**
-/

namespace MarkupEdit.Tree

open MarkupEdit.Text

variable {isTemplate : Bool} {q c : Char} {w s digits : List Char} {values points : List Nat}
  {n : Nat}

/-! ## The grammar of literals -/

/-- The letters that stand for a control character behind a backslash. -/
def letterEscapes : List (Char × Nat) :=
  [('n', 10), ('t', 9), ('r', 13), ('b', 8), ('f', 12), ('v', 11)]

/-- The characters that do not stand for themselves behind a backslash. -/
def meaningBehindBackslash : List Char := "ntrbfvxu0123456789\n\r\u2028\u2029".toList

/-- **What stands behind a backslash**, and the code points that it denotes. Octal numbers are left out.
-/
inductive EscapeSequence : List Char → List Nat → Prop where
  | letter {c : Char} {n : Nat} (hc : (c, n) ∈ letterEscapes) : EscapeSequence [c] [n]
  | null : EscapeSequence ['0'] [0]
  | code {digits : List Char} {n : Nat} (hlength : digits.length = 2)
      (hn : Writes 16 digits n) : EscapeSequence ('x' :: digits) [n]
  | unit {digits : List Char} {n : Nat} (hlength : digits.length = 4)
      (hn : Writes 16 digits n) : EscapeSequence ('u' :: digits) [n]
  | point {digits : List Char} {n : Nat} (hn : Writes 16 digits n) (hlt : n < 0x110000) :
      EscapeSequence ('u' :: '\x7b' :: (digits ++ ['\x7d'])) [n]
  /-- A line break behind a backslash denotes nothing. -/
  | lineBreak {w : List Char} (hw : w ∈ [['\n'], ['\r'], ['\r', '\n'], ['\u2028'], ['\u2029']]) :
      EscapeSequence w []
  /-- Eight and nine are no octal digits. -/
  | digit {c : Char} (hc : c ∈ ['8', '9']) : EscapeSequence [c] [c.toNat]
  | itself {c : Char} (hc : c ∉ meaningBehindBackslash) : EscapeSequence [c] [c.toNat]

/-- **The text between the quotes of a literal**, and the code points that it denotes. A string is on one
line, and a template holds no substitution and no escaped digit but zero. A zero is not followed by a
digit, and a carriage return and a line feed are one line break. -/
inductive LiteralBody (isTemplate : Bool) (q : Char) : List Char → List Nat → Prop where
  | nil : LiteralBody isTemplate q [] []
  | plain {c : Char} {s : List Char} {points : List Nat} (hc : c ∉ ['\\', q, '\r'])
      (hline : c = '\n' → isTemplate) (hdollar : c = '$' → isTemplate → s.head? ≠ some '\x7b')
      (h : LiteralBody isTemplate q s points) : LiteralBody isTemplate q (c :: s) (c.toNat :: points)
  /-- A line break in a template is a line feed. -/
  | lineBreak {w s : List Char} {points : List Nat} (htemplate : isTemplate)
      (hw : w ∈ [['\r'], ['\r', '\n']]) (hreturn : w = ['\r'] → s.head? ≠ some '\n')
      (h : LiteralBody isTemplate q s points) : LiteralBody isTemplate q (w ++ s) (10 :: points)
  | escape {w s : List Char} {values points : List Nat} (hw : EscapeSequence w values)
      (hdigit : isTemplate → w ∉ [['8'], ['9']]) (hzero : w = ['0'] → ∀ d ∈ s.head?, d.isDigit = false)
      (hreturn : w = ['\r'] → s.head? ≠ some '\n') (h : LiteralBody isTemplate q s points) :
      LiteralBody isTemplate q ('\\' :: (w ++ s)) (values ++ points)

/-- An escape that does not depend on what it is in and what follows it. -/
theorem LiteralBody.escape_of_not_mem (hw : EscapeSequence w values)
    (hfree : w ∉ [['0'], ['8'], ['9'], ['\r']]) (h : LiteralBody isTemplate q s points) :
    LiteralBody isTemplate q ('\\' :: (w ++ s)) (values ++ points) := by
  simp only [List.mem_cons, List.not_mem_nil, or_false, not_or] at hfree
  obtain ⟨hzero, height, hnine, hreturn⟩ := hfree
  refine .escape hw (fun _ => ?_) (fun heq => absurd heq hzero) (fun heq => absurd heq hreturn) h
  simp only [List.mem_cons, List.not_mem_nil, or_false, not_or]
  exact ⟨height, hnine⟩

/-- **The text between the quotes of a string.** -/
abbrev StringBody (q : Char) : List Char → List Nat → Prop := LiteralBody false q

/-! ## Code points -/

/-- A code point that is half of a surrogate pair. -/
def IsSurrogate (n : Nat) : Prop := 0xd800 ≤ n ∧ n < 0xe000

instance : DecidablePred IsSurrogate := fun n => inferInstanceAs (Decidable (_ ≤ n ∧ n < _))

/-- The character that is read for a code point. -/
def pointChar (n : Nat) : Char := if IsSurrogate n then '\ufffd' else Char.ofNat n

/-- The code point of a character is in range, and no half of a surrogate pair. -/
theorem toNat_scalar (c : Char) : c.toNat < 0x110000 ∧ ¬ IsSurrogate c.toNat := by
  have hvalid := c.valid
  simp only [UInt32.isValidChar, Nat.isValidChar] at hvalid
  rw [IsSurrogate, Char.toNat]
  omega

theorem pointChar_toNat (c : Char) : pointChar c.toNat = c := by
  rw [pointChar, if_neg (toNat_scalar c).2, Char.ofNat_toNat]

/-- What is no half of a pair is the number of a character. -/
theorem scalar?_getD (hlt : n < 0x110000) : (scalar? n).getD '\ufffd' = pointChar n := by
  rw [scalar?, pointChar]
  by_cases hsurrogate : IsSurrogate n
  · have hnot : ¬ (n < 0xd800 || (0xe000 ≤ n && n < 0x110000)) = true := by
      obtain ⟨hlow, hhigh⟩ := hsurrogate
      simp only [Bool.or_eq_true, Bool.and_eq_true, decide_eq_true_eq]
      omega
    rw [if_pos hsurrogate, if_neg hnot]
    rfl
  · have hscalar : (n < 0xd800 || (0xe000 ≤ n && n < 0x110000)) = true := by
      rw [IsSurrogate] at hsurrogate
      simp only [Bool.or_eq_true, Bool.and_eq_true, decide_eq_true_eq]
      omega
    rw [if_neg hsurrogate, if_pos hscalar]
    rfl

theorem codePoint_of_writes (h : Writes 16 digits n) (hlt : n < 0x110000) :
    codePoint digits = pointChar n := by
  rw [codePoint, baseValue?_eq_some_iff.mpr (.inl h)]
  exact scalar?_getD hlt

theorem EscapeSequence.lt (h : EscapeSequence w values) : ∀ n ∈ values, n < 0x110000 := by
  have hsingle : ∀ {n : Nat}, n < 0x110000 → ∀ m ∈ [n], m < 0x110000 := by
    intro n hlt m hm
    rwa [List.mem_singleton.mp hm]
  cases h with
  | letter hc =>
    have hall : ∀ e ∈ letterEscapes, e.2 < 0x110000 := by decide
    exact hsingle (hall _ hc)
  | null => exact hsingle (by decide)
  | code hlength hn | unit hlength hn =>
    have hlt := hn.lt
    rw [hlength] at hlt
    exact hsingle (by omega)
  | point _ hlt => exact hsingle hlt
  | lineBreak => exact fun n hn => absurd hn List.not_mem_nil
  | digit | itself => exact hsingle (toNat_scalar _).1

theorem LiteralBody.lt (h : LiteralBody isTemplate q s points) : ∀ n ∈ points, n < 0x110000 := by
  induction h with
  | nil => exact fun n hn => absurd hn List.not_mem_nil
  | plain _ _ _ _ ih => exact List.forall_mem_cons.mpr ⟨(toNat_scalar _).1, ih⟩
  | lineBreak _ _ _ _ ih => exact List.forall_mem_cons.mpr ⟨by decide, ih⟩
  | escape hw _ _ _ _ ih =>
    intro n hn
    rcases List.mem_append.mp hn with hn | hn
    · exact hw.lt n hn
    · exact ih n hn

/-! ## Reading -/

theorem unescapeFrom_digits_two {rest : List Char} (hlength : digits.length = 2) :
    unescapeFrom .escaped ('x' :: (digits ++ rest)) =
      codePoint digits :: unescapeFrom .plain rest := by
  obtain ⟨a, b, rfl⟩ := List.length_eq_two.mp hlength
  rfl

theorem unescapeFrom_digits_four {rest : List Char} (hlength : digits.length = 4)
    (hbrace : ∀ c ∈ digits, c ≠ '\x7b') :
    unescapeFrom .escaped ('u' :: (digits ++ rest)) =
      codePoint digits :: unescapeFrom .plain rest := by
  match digits, hlength with
  | [a, b, c, d], _ =>
    have ha : ¬ (a == '\x7b') = true := by
      have hne := hbrace a List.mem_cons_self
      simpa using hne
    show unescapeFrom .unicode (a :: b :: c :: d :: rest) = _
    rw [unescapeFrom, if_neg ha]
    rfl

theorem unescapeFrom_braced {rest seen : List Char} (hbrace : ∀ c ∈ digits, c ≠ '\x7d') :
    unescapeFrom (.braced seen) (digits ++ '\x7d' :: rest) =
      codePoint (seen.reverse ++ digits) :: unescapeFrom .plain rest := by
  induction digits generalizing seen with
  | nil =>
    rw [List.nil_append, List.append_nil]
    rfl
  | cons c digits ih =>
    have hc : ¬ (c == '\x7d') = true := by
      have hne := hbrace c List.mem_cons_self
      simpa using hne
    rw [List.cons_append, unescapeFrom, if_neg hc,
      ih fun d hd => hbrace d (List.mem_cons_of_mem _ hd), List.reverse_cons, List.append_assoc]
    rfl

/-- Only a backslash begins an escape. -/
theorem unescapeFrom_backslash (s : List Char) :
    unescapeFrom .plain ('\\' :: s) = unescapeFrom .escaped s := rfl

/-- A line feed that does not come next is not skipped. -/
theorem unescapeFrom_lineEnd (h : s.head? ≠ some '\n') :
    unescapeFrom .lineEnd s = unescapeFrom .plain s := by
  cases s with
  | nil => rfl
  | cons c s =>
    have hc : ¬ (c == '\n') = true := by
      intro heq
      exact h (congrArg some (beq_iff_eq.mp heq))
    simp only [unescapeFrom, if_neg hc]

theorem unescapeFrom_letterEscape (hc : (c, n) ∈ letterEscapes) (s : List Char) :
    unescapeFrom .escaped (c :: s) = Char.ofNat n :: unescapeFrom .plain s := by
  have hcases := hc
  simp only [letterEscapes, List.mem_cons, Prod.mk.injEq, List.not_mem_nil, or_false] at hcases
  rcases hcases with ⟨rfl, rfl⟩ | ⟨rfl, rfl⟩ | ⟨rfl, rfl⟩ | ⟨rfl, rfl⟩ | ⟨rfl, rfl⟩ | ⟨rfl, rfl⟩ <;>
    rfl

/-- A character without another meaning stands for itself behind a backslash. -/
theorem unescapeFrom_itself (hc : c ∉ meaningBehindBackslash) (s : List Char) :
    unescapeFrom .escaped (c :: s) = c :: unescapeFrom .plain s := by
  have hne : ∀ d ∈ meaningBehindBackslash, ¬ (c == d) = true := by
    intro d hd heq
    exact hc (beq_iff_eq.mp heq ▸ hd)
  have hline : ¬ (c == '\n' || c == '\u2028' || c == '\u2029') = true := by
    have h₁ := hne '\n' (by decide)
    have h₂ := hne '\u2028' (by decide)
    have h₃ := hne '\u2029' (by decide)
    simp only [Bool.or_eq_true]
    tauto
  rw [unescapeFrom, if_neg (hne 'n' (by decide)), if_neg (hne 't' (by decide)),
    if_neg (hne 'r' (by decide)), if_neg (hne 'b' (by decide)), if_neg (hne 'f' (by decide)),
    if_neg (hne 'v' (by decide)), if_neg (hne '0' (by decide)), if_neg hline,
    if_neg (hne '\r' (by decide)), if_neg (hne 'x' (by decide)), if_neg (hne 'u' (by decide))]

/-- **One escape is read** as the characters of its code points. -/
theorem unescapeFrom_escapeSequence (hw : EscapeSequence w values)
    (hreturn : w = ['\r'] → s.head? ≠ some '\n') :
    unescapeFrom .plain ('\\' :: (w ++ s)) = values.map pointChar ++ unescapeFrom .plain s := by
  rw [unescapeFrom_backslash]
  have hlt := hw.lt
  cases hw with
  | @letter c n hc =>
    have hall : ∀ e ∈ letterEscapes, Char.ofNat e.2 = pointChar e.2 := by decide
    rw [List.singleton_append, unescapeFrom_letterEscape hc, hall _ hc]
    rfl
  | null => rfl
  | @code digits n hlength hn =>
    rw [List.cons_append, unescapeFrom_digits_two hlength,
      codePoint_of_writes hn (hlt n List.mem_cons_self)]
    rfl
  | @unit digits n hlength hn =>
    have hbrace : ∀ c ∈ digits, c ≠ '\x7b' := fun c hc => ne_of_mem_of_not_mem hc (hn.not_mem (by decide))
    rw [List.cons_append, unescapeFrom_digits_four hlength hbrace,
      codePoint_of_writes hn (hlt n List.mem_cons_self)]
    rfl
  | @point digits n hn hmax =>
    have hbraced : unescapeFrom .escaped ('u' :: '\x7b' :: (digits ++ '\x7d' :: s)) =
        codePoint digits :: unescapeFrom .plain s :=
      unescapeFrom_braced fun c hc => ne_of_mem_of_not_mem hc (hn.not_mem (by decide))
    rw [List.cons_append, List.cons_append, List.append_assoc, List.singleton_append, hbraced,
      codePoint_of_writes hn hmax]
    rfl
  | lineBreak hw =>
    simp only [List.mem_cons, List.not_mem_nil, or_false] at hw
    rcases hw with rfl | rfl | rfl | rfl | rfl
    · rfl
    · exact unescapeFrom_lineEnd (hreturn rfl)
    · rfl
    · rfl
    · rfl
  | @digit c hc =>
    rw [List.map_singleton, pointChar_toNat]
    simp only [List.mem_cons, List.not_mem_nil, or_false] at hc
    rcases hc with rfl | rfl <;> rfl
  | @itself c hc =>
    rw [List.singleton_append, unescapeFrom_itself hc, List.map_singleton, pointChar_toNat]
    rfl

/-- **What is read of a literal** are the characters of its code points. The line breaks of a template
have to be line feeds. -/
theorem unescape_of_literalBody (h : LiteralBody isTemplate q s points)
    (hreturn : isTemplate → '\r' ∉ s) : unescape s = points.map pointChar := by
  unfold unescape
  induction h with
  | nil => rfl
  | @plain c s points hc _ _ _ ih =>
    have hne : c ≠ '\\' := fun heq => hc (heq ▸ List.mem_cons_self)
    have hrest : isTemplate → '\r' ∉ s := fun ht hmem => hreturn ht (List.mem_cons_of_mem _ hmem)
    rw [unescapeFrom_plain_of_ne hne, ih hrest, List.map_cons, pointChar_toNat]
  | lineBreak htemplate hw =>
    refine absurd ?_ (hreturn htemplate)
    simp only [List.mem_cons, List.not_mem_nil, or_false] at hw
    rcases hw with rfl | rfl <;> exact List.mem_append_left _ List.mem_cons_self
  | @escape w s values points hw _ _ hbreak _ ih =>
    have hrest : isTemplate → '\r' ∉ s := by
      intro ht hmem
      exact hreturn ht (List.mem_cons_of_mem _ (List.mem_append_right _ hmem))
    rw [unescapeFrom_escapeSequence hw hbreak, ih hrest, List.map_append]

end MarkupEdit.Tree
