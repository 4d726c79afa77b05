import MarkupEdit.Proofs.Tree.Escapes

/-!
# Literals stay closed

A literal ends at the first mark like the one that it begins with, unless that mark is escaped. What is
written between the two marks holds no other such mark, no line break outside templates, and no
substitution in one, and it ends with its last escape. So a reader that comes to the literal stops at its
closing mark, whatever stands behind it.

* `escapesNext`: whether the character behind a text is escaped.
* `OnlyEscaped`: a text stands in another one only behind a backslash that escapes it.
* `StaysClosed`, `staysClosed_escape`: **nothing in what is written between marks closes the literal,
  breaks its line or opens a substitution.**
* `cutLiteral?`: where a reader finds the end of a literal; `cutLiteral?_of_staysClosed`.
* `stringLiteral_closed`: **a literal stands for its text, and ends where it was closed.**
-/

namespace MarkupEdit.Tree

open MarkupEdit.Text

variable {q c : Char} {s body mark : List Char}

/-! ## Escaped characters -/

/-- Whether the character behind a text is escaped: the text ends in a backslash that is not. -/
def escapesNext (s : List Char) : Bool := s.foldl (fun escaped c => c == '\\' && !escaped) false

theorem escapesNext_concat (s : List Char) (c : Char) :
    escapesNext (s ++ [c]) = (c == '\\' && !escapesNext s) := by
  rw [escapesNext, List.foldl_append]
  rfl

theorem escapesNext_cons_of_ne (hc : c ≠ '\\') (s : List Char) : escapesNext (c :: s) = escapesNext s := by
  rw [escapesNext, List.foldl_cons, beq_false_of_ne hc]
  rfl

/-- A backslash and the character that it escapes leave nothing behind. -/
theorem escapesNext_escaped (c : Char) (s : List Char) :
    escapesNext ('\\' :: c :: s) = escapesNext s := by
  have hflag : (c == '\\' && !('\\' == '\\' && !false)) = false := Bool.and_false _
  rw [escapesNext, List.foldl_cons, List.foldl_cons, hflag]
  rfl

/-- Wherever one text stands in another, it is escaped. -/
def OnlyEscaped (mark body : List Char) : Prop :=
  ∀ front behind, body = front ++ (mark ++ behind) → escapesNext front = true

theorem onlyEscaped_nil (hne : mark ≠ []) : OnlyEscaped mark [] := by
  intro front behind h
  exact absurd (List.append_eq_nil_iff.mp (List.append_eq_nil_iff.mp h.symm).2).1 hne

theorem OnlyEscaped.cons (hc : c ≠ '\\') (hmark : ¬ mark <+: c :: s) (h : OnlyEscaped mark s) :
    OnlyEscaped mark (c :: s) := by
  intro front behind heq
  cases front with
  | nil => exact absurd ⟨behind, heq.symm⟩ hmark
  | cons d front =>
    obtain ⟨rfl, hs⟩ := List.cons.inj heq
    rw [escapesNext_cons_of_ne hc]
    exact h front behind hs

theorem OnlyEscaped.escaped (hmark : ¬ mark <+: '\\' :: c :: s) (h : OnlyEscaped mark s) :
    OnlyEscaped mark ('\\' :: c :: s) := by
  intro front behind heq
  match front with
  | [] => exact absurd ⟨behind, heq.symm⟩ hmark
  | [d] =>
    obtain ⟨rfl, -⟩ := List.cons.inj heq
    rfl
  | d :: e :: front =>
    obtain ⟨rfl, hrest⟩ := List.cons.inj heq
    obtain ⟨rfl, hs⟩ := List.cons.inj hrest
    rw [escapesNext_escaped]
    exact h front behind hs

/-! ## What is written -/

/-- The characters that end a line. -/
def lineBreaks : List Char := ['\n', '\r', '\u2028', '\u2029']

/-- A text that can stand between the marks of a literal: nothing in it closes the literal, breaks its
line or opens a substitution, and nothing behind it is escaped. -/
structure StaysClosed (q : Char) (body : List Char) : Prop where
  mark : OnlyEscaped [q] body
  /-- Only a template holds line feeds. -/
  lineFeed : '\n' ∈ body → q = '`'
  lineBreak : ∀ c ∈ lineBreaks, c ≠ '\n' → c ∉ body
  substitution : q = '`' → OnlyEscaped ['$', '\x7b'] body
  ending : escapesNext body = false

theorem staysClosed_nil (q : Char) : StaysClosed q [] where
  mark := onlyEscaped_nil (List.cons_ne_nil _ _)
  lineFeed h := nomatch h
  lineBreak _ _ _ h := nomatch h
  substitution _ := onlyEscaped_nil (List.cons_ne_nil _ _)
  ending := rfl

/-- A character without a meaning goes in front as it is. -/
theorem StaysClosed.cons (hbackslash : c ≠ '\\') (hmark : c ≠ q) (hline : c = '\n' → q = '`')
    (hbreak : c ∈ lineBreaks → c = '\n')
    (hdollar : ¬ (c = '$' ∧ q = '`' ∧ s.head? = some '\x7b')) (h : StaysClosed q s) :
    StaysClosed q (c :: s) where
  mark := by
    refine h.mark.cons hbackslash fun hprefix => hmark ?_
    exact (List.cons_prefix_cons.mp hprefix).1.symm
  lineFeed hmem := by
    rcases List.mem_cons.mp hmem with heq | hmem
    · exact hline heq.symm
    · exact h.lineFeed hmem
  lineBreak d hd hne hmem := by
    rcases List.mem_cons.mp hmem with rfl | hmem
    · exact hne (hbreak hd)
    · exact h.lineBreak d hd hne hmem
  substitution hq := by
    refine (h.substitution hq).cons hbackslash ?_
    rintro ⟨behind, heq⟩
    obtain ⟨rfl, rfl⟩ := List.cons.inj heq
    exact hdollar ⟨rfl, hq, rfl⟩
  ending := by rw [escapesNext_cons_of_ne hbackslash, h.ending]

/-- The digits of an escape go in front as they are. -/
theorem StaysClosed.digit (hq : IsQuote q) (hc : c ∈ ['0', '2', '8', '9']) (h : StaysClosed q s) :
    StaysClosed q (c :: s) := by
  have hmark : c ≠ q := by
    rintro rfl
    rcases hq with rfl | rfl | rfl <;> exact absurd hc (by decide)
  have hplain : c ∉ '\\' :: '$' :: lineBreaks := by
    simp only [List.mem_cons, List.not_mem_nil, or_false] at hc
    rcases hc with rfl | rfl | rfl | rfl <;> decide
  simp only [List.mem_cons (a := c), not_or] at hplain
  obtain ⟨hbackslash, hdollar, hbreak⟩ := hplain
  exact h.cons hbackslash hmark (fun hfeed => absurd (hfeed ▸ List.mem_cons_self) hbreak)
    (fun hmem => absurd hmem hbreak) fun hopens => hdollar hopens.1

/-- Any character but a line break goes in front behind a backslash. -/
theorem StaysClosed.escaped (hq : IsQuote q) (hc : c ∉ lineBreaks) (h : StaysClosed q s) :
    StaysClosed q ('\\' :: c :: s) where
  mark := by
    refine h.mark.escaped fun hprefix => ?_
    obtain rfl : q = '\\' := (List.cons_prefix_cons.mp hprefix).1
    rcases hq with hq | hq | hq <;> cases hq
  lineFeed hmem := by
    rcases List.mem_cons.mp hmem with heq | hmem
    · cases heq
    rcases List.mem_cons.mp hmem with rfl | hmem
    · exact absurd (by decide) hc
    · exact h.lineFeed hmem
  lineBreak d hd hne hmem := by
    rcases List.mem_cons.mp hmem with rfl | hmem
    · exact absurd hd (by decide)
    rcases List.mem_cons.mp hmem with rfl | hmem
    · exact hc hd
    · exact h.lineBreak d hd hne hmem
  substitution hq := by
    refine (h.substitution hq).escaped ?_
    rintro ⟨behind, heq⟩
    exact absurd (List.cons.inj heq).1 (by decide)
  ending := by rw [escapesNext_escaped, h.ending]

/-- **Nothing in what is written between marks closes the literal, breaks its line or opens a
substitution.** -/
theorem staysClosed_escape (hq : IsQuote q) (s : List Char) : StaysClosed q (escape q s) := by
  have hquote : q ∉ lineBreaks := by rcases hq with rfl | rfl | rfl <;> decide
  induction s with
  | nil => exact staysClosed_nil q
  | cons c s ih =>
    rcases escape_cons_cases q c s with
      ⟨hc, hwritten⟩ | ⟨letter, hc, hwritten⟩ | ⟨digit, hc, hwritten⟩ |
        ⟨hbackslash, hmark, hbreak, hline, hdollar, hwritten⟩ <;> rw [hwritten]
    · have hmark : c ∉ lineBreaks := by
        simp only [List.mem_cons, List.not_mem_nil, or_false] at hc
        rcases hc with rfl | rfl | rfl
        · decide
        · decide
        · exact hquote
      exact ih.escaped hq hmark
    · have hletter : letter ∉ lineBreaks := by
        simp only [List.mem_cons, Prod.mk.injEq, List.not_mem_nil, or_false] at hc
        rcases hc with ⟨-, rfl⟩ | ⟨-, rfl⟩ | ⟨-, rfl⟩ <;> decide
      exact ih.escaped hq hletter
    · have hdigit : digit ∈ ['0', '2', '8', '9'] := by
        simp only [List.mem_cons, Prod.mk.injEq, List.not_mem_nil, or_false] at hc
        rcases hc with ⟨-, rfl⟩ | ⟨-, rfl⟩ <;> decide
      have hdigits := (((ih.digit hq hdigit).digit hq (c := '2') (by decide)).digit hq (c := '0')
        (by decide)).digit hq (c := '2') (by decide)
      exact hdigits.escaped hq (by decide)
    · refine ih.cons hbackslash hmark hline ?_ fun h => hdollar ⟨h.1, h.2.1, head?_escape h.2.2⟩
      intro hc
      rcases List.mem_cons.mp hc with hfeed | hc
      · exact hfeed
      · exact absurd hc hbreak

/-! ## Finding the end -/

/-- The text of a literal and what is behind it, read from behind its first mark on; none if a line break
or a substitution comes before the mark that closes it, or if there is none. -/
def cutLiteral? (q : Char) (escaped : Bool) : List Char → Option (List Char × List Char)
  | [] => none
  | c :: s =>
    if escaped then (cutLiteral? q false s).map (fun (body, rest) => (c :: body, rest))
    else if c == q then some ([], s)
    else if q != '`' && lineBreaks.contains c then none
    else if q == '`' && c == '$' && s.head? == some '\x7b' then none
    else (cutLiteral? q (c == '\\') s).map (fun (body, rest) => (c :: body, rest))

/-- **A literal ends at its closing mark**, whatever is behind it. -/
theorem cutLiteral?_of_staysClosed (h : StaysClosed q body) (rest : List Char) :
    cutLiteral? q false (body ++ q :: rest) = some (body, rest) := by
  -- the reader is somewhere in the text, and knows whether the next character is escaped
  have hfrom : ∀ tail front, body = front ++ tail →
      cutLiteral? q (escapesNext front) (tail ++ q :: rest) = some (tail, rest) := by
    intro tail
    induction tail with
    | nil =>
      intro front hfront
      rw [List.append_nil] at hfront
      rw [← hfront, h.ending, List.nil_append, cutLiteral?, if_neg Bool.false_ne_true,
        if_pos (beq_self_eq_true q)]
    | cons c tail ih =>
      intro front hfront
      have hnext := ih (front ++ [c]) (by rw [hfront, List.append_assoc, List.singleton_append])
      rw [escapesNext_concat] at hnext
      cases hescaped : escapesNext front with
      | true =>
        rw [hescaped, Bool.not_true, Bool.and_false] at hnext
        rw [List.cons_append, cutLiteral?, if_pos rfl, hnext, Option.map_some]
      | false =>
        rw [hescaped, Bool.not_false, Bool.and_true] at hnext
        have hmark : ¬ (c == q) = true := by
          intro heq
          have hguard := h.mark front tail (by rw [hfront, ← beq_iff_eq.mp heq]; rfl)
          rw [hescaped] at hguard
          cases hguard
        have hline : ¬ (q != '`' && lineBreaks.contains c) = true := by
          intro hbreak
          obtain ⟨htemplate, hc⟩ := Bool.and_eq_true_iff.mp hbreak
          have hmem : c ∈ body := by
            rw [hfront]
            exact List.mem_append_right _ List.mem_cons_self
          by_cases hfeed : c = '\n'
          · exact bne_iff_ne.mp htemplate (h.lineFeed (hfeed ▸ hmem))
          · exact h.lineBreak c (List.contains_iff_mem.mp hc) hfeed hmem
        have hdollar : ¬ (q == '`' && c == '$' && (tail ++ q :: rest).head? == some '\x7b') = true := by
          intro hopens
          simp only [Bool.and_eq_true, beq_iff_eq] at hopens
          obtain ⟨⟨rfl, rfl⟩, hbrace⟩ := hopens
          cases tail with
          | nil => exact absurd (Option.some.inj hbrace) (by decide)
          | cons d tail =>
            obtain rfl : d = '\x7b' := Option.some.inj hbrace
            have hguard := h.substitution rfl front tail hfront
            rw [hescaped] at hguard
            cases hguard
        rw [List.cons_append, cutLiteral?, if_neg Bool.false_ne_true, if_neg hmark, if_neg hline,
          if_neg hdollar, hnext, Option.map_some]
  exact hfrom body [] rfl

/-! ## Literals -/

/-- **A literal stands for its text, and ends where it was closed.** What is written between its marks is
read as the text, and reading goes on behind it with no escape open. It holds no mark, no line break and
no substitution that is not escaped, so that nothing behind the literal is taken for a part of it, nor a
part of it for what is behind. -/
theorem stringLiteral_closed (hq : IsQuote q) (value : String) :
    (Node.stringLiteral value q).text =
      some (String.ofList (q :: (escape q value.toList ++ [q]))) ∧
    (Node.stringLiteral value q).staticValue? = some value ∧
    unescape (escape q value.toList) = value.toList ∧
    (∀ rest, unescape (escape q value.toList ++ rest) = value.toList ++ unescape rest) ∧
    StaysClosed q (escape q value.toList) ∧
    ∀ rest, cutLiteral? q false (escape q value.toList ++ q :: rest) =
      some (escape q value.toList, rest) := by
  have hclosed := staysClosed_escape hq value.toList
  exact ⟨rfl, staticValue?_stringLiteral hq value, unescape_escape hq _, unescape_escape_append hq _,
    hclosed, cutLiteral?_of_staysClosed hclosed⟩

/-- A template with a backslash, a substitution, a mark and a line separator in its text. -/
theorem stringLiteral_closed_template :
    (Node.stringLiteral "\\$\x7b`\u2028" '`').text = some "`\\\\\\$\x7b\\`\\u2028`" ∧
      (Node.stringLiteral "\\$\x7b`\u2028" '`').staticValue? = some "\\$\x7b`\u2028" ∧
      StaysClosed '`' "\\\\\\$\x7b\\`\\u2028".toList ∧
      ∀ rest, cutLiteral? '`' false ("\\\\\\$\x7b\\`\\u2028".toList ++ '`' :: rest) =
        some ("\\\\\\$\x7b\\`\\u2028".toList, rest) := by
  have hwritten : escape '`' "\\$\x7b`\u2028".toList = "\\\\\\$\x7b\\`\\u2028".toList := by
    decide +kernel
  obtain ⟨htext, hvalue, -, -, hclosed, hcut⟩ :=
    stringLiteral_closed (.inr (.inr rfl)) "\\$\x7b`\u2028"
  rw [hwritten] at htext hclosed hcut
  exact ⟨htext, hvalue, hclosed, hcut⟩

end MarkupEdit.Tree
