import MarkupEdit.Proofs.Tree.StringGrammar

/-!
# What a literal denotes

The value of a literal are the units of 16 bits of its code points, so that two escapes can make up one
character. What is read of a literal has its value, unless a half of a surrogate pair is written as an
escape: then the replacement character is read in its place.

* `units`: the value that some code points make up.
* `units_injOn`: units of 16 bits determine their characters.
* `unescape_eq_value_iff`: **what is read is the value, unless an escape is half of a character.**
* `unescape_pair`: a character in two escapes.
* `stringUnits_eq_iff`: **when the text that is read of a literal has its value.**
* `literalDenotes_stringLiteral`: **a literal that is written denotes the text that it was made of.**
-/

namespace MarkupEdit.Tree

open MarkupEdit.Text

variable {q : Char} {body : List Char} {points points' : List Nat} {m n : Nat}

/-! ## Values -/

/-- The units of 16 bits for a code point: those above them all take two. -/
def unitsOf (n : Nat) : List Nat :=
  if n < 0x10000 then [n] else [0xd800 + (n - 0x10000) / 0x400, 0xdc00 + (n - 0x10000) % 0x400]

/-- The value that some code points make up. -/
def units (points : List Nat) : List Nat := points.flatMap unitsOf

/-- The value of a string. -/
def stringUnits (s : String) : List Nat := units (s.toList.map Char.toNat)

theorem toNat_pointChar (hlt : n < 0x110000) :
    (pointChar n).toNat = if IsSurrogate n then 0xfffd else n := by
  rw [pointChar]
  split
  · rfl
  · next hnot =>
    have hvalid : n.isValidChar := by
      rw [IsSurrogate] at hnot
      rw [Nat.isValidChar]
      omega
    rw [Char.ofNat, dif_pos hvalid]
    rfl

/-- **What is read has the value that was denoted** exactly if no half of a surrogate pair is in it. -/
theorem units_eq_iff (hlt : ∀ n ∈ points, n < 0x110000) :
    units ((points.map pointChar).map Char.toNat) = units points ↔
      ∀ n ∈ points, ¬ IsSurrogate n := by
  induction points with
  | nil => exact iff_of_true rfl fun n hn => absurd hn List.not_mem_nil
  | cons n points ih =>
    have hrest := ih fun m hm => hlt m (List.mem_cons_of_mem _ hm)
    have hchar := toNat_pointChar (hlt n List.mem_cons_self)
    have hcons : ∀ (m : Nat) (rest : List Nat), units (m :: rest) = unitsOf m ++ units rest :=
      fun m rest => rfl
    rw [List.map_cons, List.map_cons, hcons, hcons, hchar, List.forall_mem_cons, ← hrest]
    by_cases hsurrogate : IsSurrogate n
    · -- the replacement character is one unit, and so is the half that it stands for
      obtain ⟨hlow, hhigh⟩ := hsurrogate
      have hunit : unitsOf n = [n] := if_pos (by omega)
      rw [if_pos ⟨hlow, hhigh⟩, hunit]
      refine iff_of_false ?_ fun h => h.1 ⟨hlow, hhigh⟩
      intro heq
      have hhead : 0xfffd = n := (List.cons.inj heq).1
      omega
    · rw [if_neg hsurrogate, List.append_right_inj]
      exact ⟨fun h => ⟨hsurrogate, h⟩, fun h => h.2⟩

/-- The first units tell the first code point, if none of them is half of a surrogate pair. -/
theorem unitsOf_append_inj {a b : List Nat} (hm : m < 0x110000 ∧ ¬ IsSurrogate m)
    (hn : n < 0x110000 ∧ ¬ IsSurrogate n) (h : unitsOf m ++ a = unitsOf n ++ b) :
    m = n ∧ a = b := by
  obtain ⟨hm, hm'⟩ := hm
  obtain ⟨hn, hn'⟩ := hn
  simp only [IsSurrogate] at hm' hn'
  unfold unitsOf at h
  split at h <;> split at h
  · exact List.cons.inj h
  · -- a code point of its own is no high half
    have hhigh := (List.cons.inj h).1
    omega
  · have hhigh := (List.cons.inj h).1
    omega
  · obtain ⟨hhigh, hrest⟩ := List.cons.inj h
    obtain ⟨hlow, hrest⟩ := List.cons.inj hrest
    exact ⟨by omega, hrest⟩

/-- **Units of 16 bits determine their characters.** -/
theorem units_injOn (hpoints : ∀ n ∈ points, n < 0x110000 ∧ ¬ IsSurrogate n)
    (hpoints' : ∀ n ∈ points', n < 0x110000 ∧ ¬ IsSurrogate n)
    (h : units points = units points') : points = points' := by
  have hcons : ∀ (k : Nat) (rest : List Nat), units (k :: rest) = unitsOf k ++ units rest :=
    fun k rest => rfl
  have hne : ∀ (k : Nat) (rest : List Nat), units (k :: rest) ≠ [] := by
    intro k rest hnil
    rw [hcons, unitsOf] at hnil
    split at hnil <;> simp at hnil
  induction points generalizing points' with
  | nil =>
    cases points' with
    | nil => rfl
    | cons n points' => exact absurd h.symm (hne n points')
  | cons m points ih =>
    cases points' with
    | nil => exact absurd h (hne m points)
    | cons n points' =>
      obtain ⟨hm, hrest⟩ := List.forall_mem_cons.mp hpoints
      obtain ⟨hn, hrest'⟩ := List.forall_mem_cons.mp hpoints'
      obtain ⟨hfirst, htail⟩ := unitsOf_append_inj hm hn h
      rw [hfirst, ih hrest hrest' htail]

/-! ## Strings -/

/-- **What is read of a string is its value**, for every string whose value is a text, exactly if no
escape in it is half of a surrogate pair. In place of each half that is written as an escape the
replacement character is read, and in place of any other code point its character. -/
theorem unescape_eq_value_iff {value : String} (h : StringBody q body points)
    (hvalue : units points = stringUnits value) :
    unescape body = points.map pointChar ∧
      (unescape body = value.toList ↔ ∀ n ∈ points, ¬ IsSurrogate n) := by
  have hread := unescape_of_literalBody h (by simp)
  refine ⟨hread, ?_, ?_⟩
  · intro heq
    rw [← units_eq_iff h.lt, ← hread, heq, hvalue, stringUnits]
  · intro hnone
    have hchars : ∀ n ∈ value.toList.map Char.toNat, n < 0x110000 ∧ ¬ IsSurrogate n := by
      intro n hn
      obtain ⟨c, -, rfl⟩ := List.mem_map.mp hn
      exact toNat_scalar c
    have hpoints : points = value.toList.map Char.toNat :=
      units_injOn (fun n hn => ⟨h.lt n hn, hnone n hn⟩) hchars hvalue
    have hback : pointChar ∘ Char.toNat = id := funext pointChar_toNat
    rw [hread, hpoints, List.map_map, hback, List.map_id]

/-- A character of two bytes and escapes: two digits, digits in braces, an eight, a line break of two
characters, and a zero at the end. -/
def escapedBody : List Char := "é\\x41\\u\x7b1F600\x7d\\8\\\r\n\\0".toList

theorem unescape_eq_value_iff_escaped :
    StringBody '"' escapedBody [0xe9, 0x41, 0x1f600, 0x38, 0] ∧
      units [0xe9, 0x41, 0x1f600, 0x38, 0] = stringUnits "éA😀8\x00" ∧
      unescape escapedBody = [0xe9, 0x41, 0x1f600, 0x38, 0].map pointChar ∧
      (unescape escapedBody = "éA😀8\x00".toList ↔
        ∀ n ∈ [0xe9, 0x41, 0x1f600, 0x38, 0], ¬ IsSurrogate n) := by
  have hbody : StringBody '"' escapedBody [0xe9, 0x41, 0x1f600, 0x38, 0] := by
    have hzero : StringBody '"' ('\\' :: (['0'] ++ [])) [0] :=
      .escape .null (by simp) (by simp) (by simp) .nil
    have hline : StringBody '"' ('\\' :: (['\r', '\n'] ++ ['\\', '0'])) [0] :=
      .escape_of_not_mem (.lineBreak (by decide)) (by simp) hzero
    have hdigit : StringBody '"' ('\\' :: (['8'] ++ "\\\r\n\\0".toList)) [0x38, 0] :=
      .escape (.digit (by decide)) (by simp) (by simp) (by simp) hline
    have hface : StringBody '"' ('\\' :: ('u' :: '\x7b' :: ("1F600".toList ++ ['\x7d']) ++
        "\\8\\\r\n\\0".toList)) [0x1f600, 0x38, 0] :=
      .escape_of_not_mem (.point (foldlM_eq_some_iff (by simp) |>.mp rfl) (by decide)) (by simp)
        hdigit
    have hletter : StringBody '"' ('\\' :: ('x' :: ['4', '1'] ++
        "\\u\x7b1F600\x7d\\8\\\r\n\\0".toList)) [0x41, 0x1f600, 0x38, 0] :=
      .escape_of_not_mem (.code rfl (foldlM_eq_some_iff (by simp) |>.mp rfl)) (by simp) hface
    exact .plain (by decide) (by decide) (by simp) hletter
  have hvalue : units [0xe9, 0x41, 0x1f600, 0x38, 0] = stringUnits "éA😀8\x00" := by decide
  exact ⟨hbody, hvalue, unescape_eq_value_iff hbody hvalue⟩

/-- A character in two escapes, each of which is half of a surrogate pair. -/
theorem stringBody_pair : StringBody '"' "\\uD83D\\uDE00".toList [0xd83d, 0xde00] := by
  have hlow : StringBody '"' ('\\' :: ('u' :: ['D', 'E', '0', '0'] ++ [])) [0xde00] :=
    .escape_of_not_mem (.unit rfl (foldlM_eq_some_iff (by simp) |>.mp rfl)) (by simp) .nil
  have hhigh : StringBody '"' ('\\' :: ('u' :: ['D', '8', '3', 'D'] ++ "\\uDE00".toList))
      [0xd83d, 0xde00] :=
    .escape_of_not_mem (.unit rfl (foldlM_eq_some_iff (by simp) |>.mp rfl)) (by simp) hlow
  exact hhigh

/-- **A character in two escapes is lost.** Its halves make up the value of the string, and each of them
is read as the replacement character. -/
theorem unescape_pair :
    StringBody '"' "\\uD83D\\uDE00".toList [0xd83d, 0xde00] ∧
      units [0xd83d, 0xde00] = stringUnits "😀" ∧
      unescape "\\uD83D\\uDE00".toList = "\ufffd\ufffd".toList ∧
      unescape "\\uD83D\\uDE00".toList ≠ "😀".toList := by
  exact ⟨stringBody_pair, by decide, by decide, by decide⟩

/-! ## Writing -/

/-- A text is written without line breaks, and in a template without substitutions. -/
theorem literalBody_escape (hq : IsQuote q) (s : List Char) :
    LiteralBody (q == '`') q (escape q s) (s.map Char.toNat) := by
  induction s with
  | nil => exact .nil
  | cons c s ih =>
    rcases escape_cons_cases q c s with
      ⟨hc, hwritten⟩ | ⟨letter, hc, hwritten⟩ | ⟨digit, hc, hwritten⟩ |
        ⟨hbackslash, hquote, hreturn, hline, hdollar, hwritten⟩
    · have hmark : c ∉ meaningBehindBackslash ∧ [c] ∉ [['0'], ['8'], ['9'], ['\r']] := by
        simp only [List.mem_cons, List.not_mem_nil, or_false] at hc
        rcases hc with rfl | rfl | rfl
        · decide
        · decide
        · rcases hq with rfl | rfl | rfl <;> decide
      rw [hwritten]
      exact .escape_of_not_mem (.itself hmark.1) hmark.2 ih
    · have hletter : (letter, c.toNat) ∈ letterEscapes ∧
          [letter] ∉ [['0'], ['8'], ['9'], ['\r']] := by
        simp only [List.mem_cons, Prod.mk.injEq, List.not_mem_nil, or_false] at hc
        rcases hc with ⟨rfl, rfl⟩ | ⟨rfl, rfl⟩ | ⟨rfl, rfl⟩ <;> decide
      rw [hwritten]
      exact .escape_of_not_mem (.letter hletter.1) hletter.2 ih
    · have hnumber : Writes 16 ['2', '0', '2', digit] c.toNat := by
        refine foldlM_eq_some_iff (by simp) |>.mp ?_
        simp only [List.mem_cons, Prod.mk.injEq, List.not_mem_nil, or_false] at hc
        rcases hc with ⟨rfl, rfl⟩ | ⟨rfl, rfl⟩ <;> decide
      rw [hwritten]
      exact .escape_of_not_mem (.unit rfl hnumber) (by simp) ih
    · have hplain : c ∉ ['\\', q, '\r'] := by
        simp only [List.mem_cons, List.not_mem_nil, or_false, not_or] at hreturn ⊢
        exact ⟨hbackslash, hquote, hreturn.1⟩
      rw [hwritten]
      refine .plain hplain (fun hc => beq_iff_eq.mpr (hline hc)) (fun hc hq hhead => ?_) ih
      exact hdollar ⟨hc, beq_iff_eq.mp hq, head?_escape hhead⟩

/-! ## Literals -/

/-- A literal that denotes some code points. -/
def LiteralDenotes (node : Node) (points : List Nat) : Prop :=
  ∃ q body, IsQuote q ∧ node.kind = (if q == '`' then .templateString else .string) ∧
    node.text = some (String.ofList (q :: (body ++ [q]))) ∧ LiteralBody (q == '`') q body points

/-- A template with a carriage return, which is no line feed. -/
def HoldsReturn (node : Node) : Prop :=
  node.kind = .templateString ∧ ∃ text, node.text = some text ∧ '\r' ∈ text.toList

/-- **The text that is read of a literal has its value** exactly if no half of a surrogate pair is in
it. -/
theorem stringUnits_eq_iff {node : Node} {text : String} (h : LiteralDenotes node points)
    (hreturn : ¬ HoldsReturn node) (hread : node.staticValue? = some text) :
    stringUnits text = units points ↔ ∀ n ∈ points, ¬ IsSurrogate n := by
  obtain ⟨q, body, hq, hkind, hbody, hdenotes⟩ := h
  have hplain : (q == '`') = true → '\r' ∉ body := by
    intro hq hmem
    refine hreturn ⟨by rw [hkind, if_pos hq], _, hbody, ?_⟩
    rw [String.toList_ofList]
    exact List.mem_cons_of_mem _ (List.mem_append_left _ hmem)
  have htext : text.toList = points.map pointChar := by
    rw [Node.staticValue?, hbody] at hread
    dsimp only at hread
    rw [String.toList_ofList, betweenQuotes?_append] at hread
    dsimp only at hread
    split at hread
    · cases hread
      rw [String.toList_ofList, unescape_of_literalBody hdenotes hplain]
    · cases hread
  rw [stringUnits, htext]
  exact units_eq_iff hdenotes.lt

/-- **A literal that is written denotes the text that it was made of.** -/
theorem literalDenotes_stringLiteral (hq : IsQuote q) (value : String) :
    LiteralDenotes (Node.stringLiteral value q) (value.toList.map Char.toNat) :=
  ⟨q, escape q value.toList, hq, rfl, rfl, literalBody_escape hq value.toList⟩

end MarkupEdit.Tree
