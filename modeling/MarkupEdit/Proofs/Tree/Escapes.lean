import MarkupEdit.Tree.Builder

/-!
# Literals are read as they were written

A text is written between quotes with escapes, and reading them gives the text again. In a template no
substitution comes out of it either.

* `IsQuote`: the marks that stand around a literal.
* `escape_cons_cases`: what is written for the first character of a text.
* `unescape_escape_append`, `unescape_escape`: **reading escapes undoes writing them.**
* `hasSubstitution_escape`: no substitution is in a template that was written.
* `staticValue?_stringLiteral`: **a literal stands for the text that it was made of.**
-/

namespace MarkupEdit.Tree

open MarkupEdit.Text

variable {q c : Char} {s : List Char}

/-- The marks that stand around a literal. -/
def IsQuote (q : Char) : Prop := q = '"' ∨ q = '\'' ∨ q = '`'

/-! ## Writing one character -/

/-- **A character is written as an escape, or as it is** if it has no meaning in a literal. -/
theorem escape_cons_cases (q c : Char) (s : List Char) :
    (c ∈ ['\\', '$', q] ∧ escape q (c :: s) = '\\' :: c :: escape q s) ∨
      (∃ letter, (c, letter) ∈ [('\n', 'n'), ('\r', 'r'), ('\t', 't')] ∧
        escape q (c :: s) = '\\' :: letter :: escape q s) ∨
      (∃ digit, (c, digit) ∈ [('\u2028', '8'), ('\u2029', '9')] ∧
        escape q (c :: s) = ['\\', 'u', '2', '0', '2', digit] ++ escape q s) ∨
      (c ≠ '\\' ∧ c ≠ q ∧ c ∉ ['\r', '\u2028', '\u2029'] ∧ (c = '\n' → q = '`') ∧
        ¬ (c = '$' ∧ q = '`' ∧ s.head? = some '\x7b') ∧ escape q (c :: s) = c :: escape q s) := by
  rw [escape]
  simp only [Bool.and_eq_true, beq_iff_eq, bne_iff_ne]
  split
  · next h => exact .inl ⟨by rw [h]; exact List.mem_cons_self, by rw [h]⟩
  next hbackslash =>
  split
  · next h => exact .inr (.inl ⟨'n', by rw [h.1]; decide, rfl⟩)
  next hline =>
  split
  · next h => exact .inr (.inl ⟨'r', by rw [h]; decide, rfl⟩)
  next hreturn =>
  split
  · next h => exact .inr (.inl ⟨'t', by rw [h.1]; decide, rfl⟩)
  split
  · next h => exact .inr (.inr (.inl ⟨'8', by rw [h]; decide, rfl⟩))
  next hlineSeparator =>
  split
  · next h => exact .inr (.inr (.inl ⟨'9', by rw [h]; decide, rfl⟩))
  next hparagraphSeparator =>
  split
  · next h =>
    exact .inl ⟨by rw [h.1.1]; exact List.mem_cons_of_mem _ List.mem_cons_self, by rw [h.1.1]⟩
  next hdollar =>
  split
  · next h =>
    exact .inl ⟨by rw [h]; exact List.mem_cons_of_mem _ (List.mem_cons_of_mem _ List.mem_cons_self),
      rfl⟩
  · next hquote =>
    refine .inr (.inr (.inr ⟨hbackslash, hquote, ?_, fun hc => ?_, ?_, rfl⟩))
    · simp only [List.mem_cons, List.not_mem_nil, or_false, not_or]
      exact ⟨hreturn, hlineSeparator, hparagraphSeparator⟩
    · exact Decidable.of_not_not fun hq => hline ⟨hc, hq⟩
    · exact fun ⟨hc, hq, hs⟩ => hdollar ⟨⟨hc, hq⟩, hs⟩

/-! ## Reading one escape -/

theorem unescapeFrom_plain_of_ne (h : c ≠ '\\') (s : List Char) :
    unescapeFrom .plain (c :: s) = c :: unescapeFrom .plain s := by
  rw [unescapeFrom, if_neg (by simpa using h)]

/-- A mark behind a backslash stands for itself. -/
theorem unescapeFrom_mark (hq : IsQuote q) (h : c ∈ ['\\', '$', q]) (s : List Char) :
    unescapeFrom .plain ('\\' :: c :: s) = c :: unescapeFrom .plain s := by
  simp only [List.mem_cons, List.not_mem_nil, or_false] at h
  rcases h with rfl | rfl | rfl
  · rfl
  · rfl
  · rcases hq with rfl | rfl | rfl <;> rfl

theorem unescapeFrom_letter {letter : Char}
    (h : (c, letter) ∈ [('\n', 'n'), ('\r', 'r'), ('\t', 't')]) (s : List Char) :
    unescapeFrom .plain ('\\' :: letter :: s) = c :: unescapeFrom .plain s := by
  simp only [List.mem_cons, List.not_mem_nil, or_false, Prod.mk.injEq] at h
  rcases h with ⟨rfl, rfl⟩ | ⟨rfl, rfl⟩ | ⟨rfl, rfl⟩ <;> rfl

theorem unescapeFrom_codePoint {digit : Char}
    (h : (c, digit) ∈ [('\u2028', '8'), ('\u2029', '9')]) (s : List Char) :
    unescapeFrom .plain (['\\', 'u', '2', '0', '2', digit] ++ s) = c :: unescapeFrom .plain s := by
  simp only [List.mem_cons, List.not_mem_nil, or_false, Prod.mk.injEq] at h
  rcases h with ⟨rfl, rfl⟩ | ⟨rfl, rfl⟩ <;> rfl

/-! ## Whole texts -/

/-- Reading goes on behind what was written, which ends with its last escape. -/
theorem unescape_escape_append (hq : IsQuote q) (s rest : List Char) :
    unescape (escape q s ++ rest) = s ++ unescape rest := by
  rw [unescape, unescape]
  induction s with
  | nil => rfl
  | cons c s ih =>
    rcases escape_cons_cases q c s with
      ⟨hc, hwritten⟩ | ⟨letter, hc, hwritten⟩ | ⟨digit, hc, hwritten⟩ | ⟨hc, -, -, -, -, hwritten⟩
    · rw [hwritten, List.cons_append, List.cons_append, unescapeFrom_mark hq hc, ih, List.cons_append]
    · rw [hwritten, List.cons_append, List.cons_append, unescapeFrom_letter hc, ih, List.cons_append]
    · rw [hwritten, List.append_assoc, unescapeFrom_codePoint hc, ih, List.cons_append]
    · rw [hwritten, List.cons_append, unescapeFrom_plain_of_ne hc, ih, List.cons_append]

/-- **Reading escapes undoes writing them.** -/
theorem unescape_escape (hq : IsQuote q) (s : List Char) : unescape (escape q s) = s := by
  have happend := unescape_escape_append hq s []
  rw [List.append_nil] at happend
  rw [happend]
  exact List.append_nil s

theorem hasSubstitution_cons_of_ne (hc : c ≠ '\\') (hdollar : c = '$' → s.head? ≠ some '\x7b') :
    hasSubstitution (c :: s) = hasSubstitution s := by
  rw [hasSubstitution]
  · exact fun h _ => hc h
  · exact fun _ _ h _ => hc h
  · exact fun rest h hs => hdollar h (by rw [hs]; rfl)

theorem hasSubstitution_escaped (c : Char) (s : List Char) :
    hasSubstitution ('\\' :: c :: s) = hasSubstitution s := by
  rw [hasSubstitution]

/-- A brace is where it was before, if it is not escaped. -/
theorem head?_escape (h : (escape q s).head? = some '\x7b') : s.head? = some '\x7b' := by
  cases s with
  | nil => cases h
  | cons c s =>
    rcases escape_cons_cases q c s with
      ⟨-, hwritten⟩ | ⟨letter, -, hwritten⟩ | ⟨digit, -, hwritten⟩ | ⟨-, -, -, -, -, hwritten⟩ <;>
      rw [hwritten] at h
    · cases h
    · cases h
    · cases h
    · exact h

/-- **No substitution is in a template that was written.** -/
theorem hasSubstitution_escape (s : List Char) : hasSubstitution (escape '`' s) = false := by
  induction s with
  | nil => rfl
  | cons c s ih =>
    rcases escape_cons_cases '`' c s with
      ⟨-, hwritten⟩ | ⟨letter, -, hwritten⟩ | ⟨digit, hc, hwritten⟩ |
        ⟨hc, -, -, -, hdollar, hwritten⟩
    · rw [hwritten, hasSubstitution_escaped, ih]
    · rw [hwritten, hasSubstitution_escaped, ih]
    · have hdigit : digit = '8' ∨ digit = '9' := by
        simp only [List.mem_cons, List.not_mem_nil, or_false, Prod.mk.injEq] at hc
        exact hc.imp And.right And.right
      rw [hwritten]
      rcases hdigit with rfl | rfl <;> exact ih
    · rw [hwritten, hasSubstitution_cons_of_ne hc fun h hhead =>
        hdollar ⟨h, rfl, head?_escape hhead⟩, ih]

/-! ## Literals -/

theorem betweenQuotes?_append (q : Char) (s : List Char) :
    betweenQuotes? (q :: (s ++ [q])) = some s := by
  rw [betweenQuotes?, List.getLast?_append, List.getLast?_singleton, Option.some_or]
  dsimp only
  rw [if_pos (beq_self_eq_true q), List.dropLast_concat]

theorem staticValue?_withField (n : Node) (field : String) :
    (n.withField field).staticValue? = n.staticValue? := rfl

theorem staticValue?_withLeading (n : Node) (leading : String) :
    (n.withLeading leading).staticValue? = n.staticValue? := rfl

/-- **A literal stands for the text that it was made of.** -/
theorem staticValue?_stringLiteral (hq : IsQuote q) (value : String) :
    (Node.stringLiteral value q).staticValue? = some value := by
  have hinner := betweenQuotes?_append q (escape q value.toList)
  have hvalue : String.ofList (unescape (escape q value.toList)) = value := by
    rw [unescape_escape hq, String.ofList_toList]
  rw [Node.staticValue?, Node.stringLiteral, Node.leaf]
  dsimp only
  rw [String.toList_ofList, hinner]
  dsimp only
  rw [hvalue]
  rcases hq with rfl | rfl | rfl
  · rfl
  · rfl
  · rw [hasSubstitution_escape]
    rfl

end MarkupEdit.Tree
