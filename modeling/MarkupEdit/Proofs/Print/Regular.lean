import MarkupEdit.Proofs.Print.Parts
import MarkupEdit.Proofs.Tree.Conversion

/-!
# Regular trees

Where the elements that are returned stand in parentheses already, with no comments beside them, what is
printed of a tree is all the source but its blanks. So only the separators can be wrong. Behind a line
comment there is a line break, unless the comment stands in a part of a tag that is written as it is in
the source. There nothing ends the line, and the comment takes what stands behind it in the tag.

* `written_regular`: what is written of a regular node is its source.
* `ink_pretty`: **a tree is printed with the ink of its source, and the lines end behind line comments.**
* `tagParts_swallowed`: a line comment in a tag takes the rest of the tag.
-/

namespace MarkupEdit.Print

open MarkupEdit.Text MarkupEdit.Tree

variable {n : Node} {l : List Node}

/-! ## Regular nodes -/

/-- The parts of a statement that returns an element in parentheses. -/
theorem exists_of_inParentheses (h : inParentheses l = true)
    (hmarkup : (returnedMarkup? l).isSome = true) :
    ∃ word value rest front e back, l = word :: value :: rest ∧ word.isToken "return" = true ∧
      value.isNamed = true ∧ value.kind.isElement = false ∧ value.namedChildren = [e] ∧
      e.kind.isElement = true ∧ value.children = [front, e, back] ∧ front.isToken "(" = true ∧
      back.isToken ")" = true := by
  unfold inParentheses at h
  split at h
  · next word value rest =>
    simp only [Bool.and_eq_true, beq_iff_eq] at h
    obtain ⟨⟨hword, hkind⟩, h⟩ := h
    split at h
    · next front inner back hchildren =>
      obtain ⟨hfront, hback⟩ := Bool.and_eq_true_iff.mp h
      have hnamed : value.isNamed = true := by rw [Node.isNamed, hkind]; rfl
      have hfind : (word :: value :: rest).find? Node.isNamed = some value := by
        rw [List.find?_cons_of_neg (by rw [isNamed_of_isToken hword]; exact Bool.false_ne_true),
          List.find?_cons_of_pos hnamed]
      rw [returnedMarkup?, hfind, Option.bind_some] at hmarkup
      obtain ⟨e, he⟩ := Option.isSome_iff_exists.mp hmarkup
      rcases markupOf?_cases he with ⟨helement, -⟩ | ⟨hother, -, hinner, helement⟩
      · rw [hkind] at helement
        cases helement
      have hsame : inner = e := by
        rw [Node.namedChildren, hchildren, List.filter_cons, isNamed_of_isToken hfront,
          List.filter_cons, List.filter_cons, isNamed_of_isToken hback] at hinner
        cases hnamed' : inner.isNamed <;> rw [hnamed'] at hinner <;> cases hinner
        rfl
      exact ⟨word, value, rest, front, e, back, rfl, hword, hnamed, hother, hinner, helement,
        hsame ▸ hchildren, hfront, hback⟩
    · cases h
  · cases h

theorem ne_comment_of_isToken {text : String} (h : n.isToken text = true) :
    (n.kind != .comment) = true := by
  rw [(Node.isToken_iff.mp h).1]
  rfl

theorem holdsOne_of_children {front e back : Node} (hchildren : n.children = [front, e, back])
    (hfront : front.isToken "(" = true) (hback : back.isToken ")" = true)
    (helement : e.kind.isElement = true) : holdsOne n.children = true := by
  have hfilter : n.children.filter (·.kind != .comment) = [front, e, back] := by
    rw [hchildren]
    refine List.filter_eq_self.mpr (List.forall_mem_cons.mpr ⟨ne_comment_of_isToken hfront, ?_⟩)
    exact List.forall_mem_cons.mpr ⟨bne_iff_ne.mpr (ne_comment_of_isElement helement),
      List.forall_mem_singleton.mpr (ne_comment_of_isToken hback)⟩
  rw [holdsOne, hfilter]
  exact Bool.and_eq_true_iff.mpr ⟨hfront, hback⟩

/-- A setting in which no comment is passed over. -/
def Setting.isOpen (s : Setting) : Bool := s != .returned && s != .value && s != .enclosed

theorem Setting.ne_of_isOpen {s : Setting} (h : s.isOpen = true) : s ≠ .returned ∧ s ≠ .enclosed := by
  constructor <;> rintro rfl <;> cases h

/-- Only a statement that returns an element passes comments over. -/
theorem Setting.isOpen_inside {s : Setting} (hs : s.isOpen = true) {kind : Kind} {children : List Node}
    (hinside : s.inside kind children ≠ .returned) : (s.inside kind children).isOpen = true := by
  cases s with
  | plain =>
    change ofKind kind children ≠ .returned at hinside
    show (ofKind kind children).isOpen = true
    unfold ofKind at hinside ⊢
    split
    · split
      · next hmarkup => exact absurd (if_pos hmarkup) hinside
      · rfl
    all_goals rfl
  | tagPart | attributePart =>
    rw [inside]
    repeat' split
    all_goals rfl
  | verbatim => rfl
  | returned | value | enclosed => cases hs

theorem writtenAll_of_forall {s : Setting} (hs : s ≠ .returned)
    (h : ∀ c ∈ l, writtenInk (lexemes s c) = inkOf c) :
    writtenInk (lexemesAll s l) = inkOfAll l := by
  induction l with
  | nil => rfl
  | cons n rest ih =>
    rw [written_cons hs, h n List.mem_cons_self, ih fun c hc => h c (List.mem_cons_of_mem _ hc),
      inkOfAll_cons]

theorem inkOf_of_isToken {text : String} (h : Shaped n) (htoken : n.isToken text = true) :
    inkOf n = ink text.toList := inkOf_of_text h (Node.isToken_iff.mp htoken).2

theorem written_of_isToken {text : String} (s : Setting) (h : Shaped n)
    (htoken : n.isToken text = true) : writtenInk (lexemes s n) = inkOf n := by
  rw [writtenInk_eq false, pieces_of_isToken htoken, inkOf_of_text h (Node.isToken_iff.mp htoken).2]
  exact List.append_nil _

/-- A statement that returns an element in parentheses is written as it is. -/
theorem written_inParentheses (h : ∀ c ∈ l, c.Throughout Shaped) (hparens : inParentheses l = true)
    (hmarkup : (returnedMarkup? l).isSome = true)
    (hplain : ∀ c ∈ l, writtenInk (lexemes .plain c) = inkOf c)
    (hinside : ∀ c ∈ l, ∀ e ∈ c.children, writtenInk (lexemes .plain e) = inkOf e) :
    writtenInk (lexemesAll .returned l) = inkOfAll l := by
  obtain ⟨word, value, rest, front, e, back, rfl, hword, hnamed, hother, hinner, helement, hchildren,
    hfront, hback⟩ := exists_of_inParentheses hparens hmarkup
  have hvalue := h value (List.mem_cons_of_mem _ List.mem_cons_self)
  have hwritten : writtenInk (lexemes .value value) = inkOf value := by
    have hmem : ∀ c ∈ [front, e, back], c ∈ value.children := fun c hc => hchildren ▸ hc
    have he : e ∈ value.children := hmem e (by simp)
    rw [writtenInk_eq false,
      pieces_value hvalue (holdsOne_of_children hchildren hfront hback helement) hinner helement,
      Piece.texts_append, Piece.texts_append, inkOfTexts_append, inkOfTexts_append, ← writtenInk_eq,
      hinside value (List.mem_cons_of_mem _ List.mem_cons_self) e he,
      inkOf_of_branch hvalue (hvalue.self.text_of_mem he), hchildren, inkOfAll_cons, inkOfAll_cons,
      inkOfAll_cons, inkOf_of_isToken (hvalue.child (hmem front (by simp))).self hfront,
      inkOf_of_isToken (hvalue.child (hmem back (by simp))).self hback]
    rfl
  rw [lexemesAll, if_neg (by simp [isNamed_of_isToken hword]), writtenInk_append, lexemesAll,
    if_pos (by rw [hnamed]; rfl), if_neg (by rw [hother]; exact Bool.false_ne_true), writtenInk_append,
    written_of_isToken _ (h word List.mem_cons_self).self hword, hwritten,
    writtenAll_of_forall (by decide) fun c hc =>
      hplain c (List.mem_cons_of_mem _ (List.mem_cons_of_mem _ hc)),
    inkOfAll_cons, inkOfAll_cons]

/-- **What is written of a regular node is its source.** -/
theorem written_regular (s : Setting) (hs : s.isOpen = true) (n : Node)
    (h : n.Throughout Regular) : writtenInk (lexemes s n) = inkOf n := by
  have hshaped := h.mono fun _ hm => hm.toShaped
  cases htext : n.text with
  | some text =>
    rw [writtenInk_eq false, pieces_of_text htext (role_ne_passedOver (Setting.ne_of_isOpen hs)),
      inkOf_of_text hshaped.self htext]
    exact List.append_nil _
  | none =>
    rw [lexemes_of_branch s htext, inkOf_of_branch hshaped htext]
    by_cases hinside : s.inside n.kind n.children = .returned
    · obtain ⟨hkind, hmarkup⟩ := Setting.inside_eq_returned hinside
      rw [hinside]
      refine written_inParentheses (fun c hc => hshaped.child hc) (h.self.parenthesised hkind hmarkup)
        hmarkup (fun c hc => ?_) fun c hc e he => ?_
      · have := sizeOf_child_lt hc
        exact written_regular .plain rfl c (h.child hc)
      · have := sizeOf_child_lt hc
        have := sizeOf_child_lt he
        exact written_regular .plain rfl e ((h.child hc).child he)
    · refine writtenAll_of_forall hinside fun c hc => ?_
      have := sizeOf_child_lt hc
      exact written_regular _ (Setting.isOpen_inside hs hinside) c (h.child hc)
termination_by sizeOf n
decreasing_by all_goals omega

/-- **A tree is printed with the ink of its source.** If there is no line comment in a part of a tag that
is written as it stands in the source, the line ends behind every line comment, so that no comment takes
what stands behind it. -/
theorem ink_pretty (tree : SourceTree) (h : tree.root.Throughout Regular)
    (hbefore : ink tree.before.toList = []) (hafter : ink tree.after.toList = []) :
    ink (pretty tree).toList = ink tree.toSource.toList ∧
      (tree.root.Throughout LineFree → ∀ front x back, lexemes .plain tree.root = front ++ x :: back →
        x.isLineComment = true →
          EndsLine (writtenTexts front) x.text (writtenTexts back) (pretty tree).toList) := by
  have hshaped := h.mono fun _ hm => hm.toShaped
  have hroot : ink tree.root.full.toList = inkOf tree.root := by
    rw [Node.full, String.toList_append, ink_append, h.self.leading, List.nil_append]
    rfl
  refine ⟨?_, fun hfree front x back => endsLine_pretty tree hshaped hfree⟩
  calc ink (pretty tree).toList = writtenInk (lexemes .plain tree.root) := written_pretty tree hshaped
    _ = inkOf tree.root := written_regular .plain rfl tree.root h
    _ = ink tree.toSource.toList := by
      rw [SourceTree.toSource, String.toList_append, String.toList_append, ink_append, ink_append,
        hbefore, hafter, hroot, List.nil_append, List.append_nil]

/-- An element with a line comment in its tag. -/
def commentText : String := "<p // c\n a/>;"

/-- The nodes of `commentText`. -/
def commentNode : Node :=
  Sketch.program [Sketch.statement (Sketch.bareTag "p"
    [(Node.leaf .comment "// c").withLeading " ",
      ((Node.branch .jsxAttribute [.leaf .propertyIdentifier "a"]).withField
        "attribute").withLeading "\n "])]

/-- The tree of `commentText`. -/
def commentTree : SourceTree := .sketch commentText commentNode

theorem readFrom_comment : commentTree.ReadFrom commentText :=
  readFrom_sketch (by decide) (by decide)

/-- Two elements with a line comment between them. -/
def remarkText : String := "<p/>; // c\n<q/>;"

/-- The nodes of `remarkText`. -/
def remarkNode : Node :=
  Sketch.program [Sketch.statement (Sketch.bareTag "p" []),
    (Node.leaf .comment "// c").withLeading " ",
    (Sketch.statement (Sketch.bareTag "q" [])).withLeading "\n"]

/-- The tree of `remarkText`. -/
def remarkTree : SourceTree := .sketch remarkText remarkNode

theorem readFrom_remark : remarkTree.ReadFrom remarkText :=
  readFrom_sketch (by decide) (by decide)

theorem ink_pretty_comment :
    (commentTree.ReadFrom commentText ∧ commentTree.root.Throughout Regular ∧
      ink commentTree.before.toList = [] ∧ ink commentTree.after.toList = [] ∧
      ink (pretty commentTree).toList = "<p//ca/>;".toList) ∧
    (remarkTree.ReadFrom remarkText ∧ remarkTree.root.Throughout Regular ∧
      ink remarkTree.before.toList = [] ∧ ink remarkTree.after.toList = [] ∧
      remarkTree.root.Throughout LineFree ∧
      EndsLine ["<", "p", "/>", ";"] "// c" ["<", "q", "/>", ";"] (pretty remarkTree).toList) := by
  have hregular : commentTree.root.Throughout Regular := .of_preorder (by decide +kernel)
  have hbefore : ink commentTree.before.toList = [] := by decide +kernel
  have hafter : ink commentTree.after.toList = [] := by decide +kernel
  have hink : ink commentTree.toSource.toList = "<p//ca/>;".toList := by decide +kernel
  have hregular' : remarkTree.root.Throughout Regular := .of_preorder (by decide +kernel)
  have hbefore' : ink remarkTree.before.toList = [] := by decide +kernel
  have hafter' : ink remarkTree.after.toList = [] := by decide +kernel
  have hfree : remarkTree.root.Throughout LineFree := .of_preorder (by decide +kernel)
  refine ⟨⟨readFrom_comment, hregular, hbefore, hafter, ?_⟩,
    ⟨readFrom_remark, hregular', hbefore', hafter', hfree, ?_⟩⟩
  · exact (ink_pretty commentTree hregular hbefore hafter).1.trans hink
  · exact (ink_pretty remarkTree hregular' hbefore' hafter').2 hfree
      (["<", "p", "/>", ";"].map (Lexeme.mk · .code)) ⟨"// c", .comment⟩
      (["<", "q", "/>", ";"].map (Lexeme.mk · .code)) (by decide +kernel) rfl

/-! ## A comment in a tag -/

/-- From one sheet to another the line goes on, unless a line break is due. -/
def OnLine (sheet sheet' : Sheet) : Prop :=
  sheet.breakDue = false → sheet'.breakDue = false ∧
    ∃ added, sheet'.written = added ++ sheet.written ∧ '\n' ∉ added

theorem OnLine.refl (sheet : Sheet) : OnLine sheet sheet := fun h => ⟨h, [], rfl, List.not_mem_nil⟩

theorem OnLine.trans {s s' s'' : Sheet} (h : OnLine s s') (h' : OnLine s' s'') : OnLine s s'' := by
  intro hdue
  obtain ⟨hdue', added, hadded, hline⟩ := h hdue
  obtain ⟨hdue'', added', hadded', hline'⟩ := h' hdue'
  refine ⟨hdue'', added' ++ added, by rw [hadded', hadded, List.append_assoc], fun hmem => ?_⟩
  exact (List.mem_append.mp hmem).elim hline' hline

theorem onLine_raw (sheet : Sheet) {text : String} (h : '\n' ∉ text.toList) :
    OnLine sheet (sheet.raw text) := by
  intro hdue
  have hbreak : sheet.breakIfDue = sheet := by rw [Sheet.breakIfDue, hdue]; rfl
  unfold Sheet.raw
  dsimp only
  rw [hbreak]
  split
  · refine ⟨hdue, text.toList.reverse ++ [' '], ?_, ?_⟩
    · rw [List.append_assoc]
      rfl
    · simpa using h
  · exact ⟨hdue, text.toList.reverse, rfl, fun hmem => h (List.mem_reverse.mp hmem)⟩

/-- A leaf on one line. -/
def isFlat (n : Node) : Bool := n.text.any fun text => !text.toList.contains '\n'

/-- A part of a tag on one line: a leaf, or an attribute of leaves. -/
def isFlatPart (n : Node) : Bool :=
  n.kind != .jsxExpression &&
    if n.kind == .jsxAttribute then
      n.children.all fun c => c.kind != .jsxElement && c.kind != .jsxExpression && isFlat c
    else isFlat n

theorem onLine_raw_of_isFlat (sheet : Sheet) (h : isFlat n = true) :
    OnLine sheet (sheet.raw (n.text.getD n.body)) := by
  cases htext : n.text with
  | none =>
    rw [isFlat, htext] at h
    cases h
  | some text =>
    rw [isFlat, htext] at h
    exact onLine_raw sheet (by simpa using h)

theorem onLine_attributeParts (ns : List Node) (h : ∀ c ∈ ns, c.kind ≠ .jsxElement ∧
    c.kind ≠ .jsxExpression ∧ isFlat c = true) (sheet : Sheet) :
    OnLine sheet (attributeParts ns sheet) := by
  induction ns generalizing sheet with
  | nil =>
    rw [attributeParts]
    exact .refl sheet
  | cons n rest ih =>
    obtain ⟨helement, hexpression, hflat⟩ := h n List.mem_cons_self
    rw [attributeParts, if_neg (by simpa using helement), if_neg (by simpa using hexpression)]
    exact (onLine_raw_of_isFlat sheet hflat).trans
      (ih (fun c hc => h c (List.mem_cons_of_mem _ hc)) _)

/-- **A tag is written on one line**, even if there is a line comment in it. -/
theorem onLine_tagParts (tag : Kind) (ns : List Node) (h : ∀ n ∈ ns, isFlatPart n = true)
    (sheet : Sheet) : OnLine sheet (tagParts tag ns sheet) := by
  induction ns generalizing sheet with
  | nil =>
    rw [tagParts]
    exact .refl sheet
  | cons n rest ih =>
    have hspace : OnLine sheet (sheet.raw " ") := onLine_raw sheet (by decide)
    have hrest := ih (fun c hc => h c (List.mem_cons_of_mem _ hc))
    have hn := h n List.mem_cons_self
    rw [isFlatPart, Bool.and_eq_true, bne_iff_ne] at hn
    obtain ⟨hexpression, hflat⟩ := hn
    rw [tagParts]
    refine OnLine.trans ?_ (hrest _)
    by_cases hattribute : (n.kind == .jsxAttribute) = true
    · rw [if_pos hattribute] at hflat ⊢
      refine hspace.trans (onLine_attributeParts n.children (fun c hc => ?_) _)
      have hc := List.all_eq_true.mp hflat c hc
      simpa [and_assoc] using hc
    · rw [if_neg hattribute] at hflat ⊢
      rw [if_neg (by simpa using hexpression)]
      split
      · have hflat' := onLine_raw_of_isFlat (sheet.raw " ") hflat
        cases htext : n.text with
        | none =>
          rw [isFlat, htext] at hflat
          cases hflat
        | some text =>
          rw [htext] at hflat'
          exact hspace.trans hflat'
      · exact onLine_raw_of_isFlat sheet hflat

theorem breakDue_raw (sheet : Sheet) (text : String) : (sheet.raw text).breakDue = false := by
  have hbreak : sheet.breakIfDue.breakDue = false := by
    unfold Sheet.breakIfDue
    split
    · rfl
    · next hdue => exact Bool.eq_false_iff.mpr hdue
  unfold Sheet.raw
  dsimp only
  split
  · exact hbreak
  · exact hbreak

/-- **A line comment in a tag takes the rest of the tag.** If that stands on one line, all of it is written
on the line of the comment. -/
theorem tagParts_swallowed (tag : Kind) {text : String} {rest : List Node} (hkind : n.kind = .comment)
    (htext : n.text = some text) (hshaped : ∀ c ∈ rest, c.Throughout Shaped)
    (hflat : ∀ c ∈ rest, isFlatPart c = true) (sheet : Sheet) :
    ∃ tail, (tagParts tag (n :: rest) sheet).text = (sheet.raw text).text ++ tail ∧ '\n' ∉ tail ∧
      ink tail = writtenInk (lexemesAll .tagPart rest) := by
  have htoken (t : String) : n.isToken t = false := by
    rw [Node.isToken, hkind]
    rfl
  -- the comment is written raw like a mark of the tag, and no break is due behind it
  have hparts : tagParts tag (n :: rest) sheet = tagParts tag rest (sheet.raw text) := by
    rw [tagParts, if_neg (by rw [hkind]; decide), if_neg (by rw [hkind]; decide),
      if_neg (by simp [htoken]), htext]
    rfl
  obtain ⟨-, added, hadded, hline⟩ := onLine_tagParts tag rest hflat _ (breakDue_raw sheet text)
  have hwrites := writes_tagParts tag rest (fun c hc => throughout_printable (hshaped c hc))
    (fun hstrict => absurd hstrict Bool.false_ne_true) (sheet.raw text)
  have htext : (tagParts tag rest (sheet.raw text)).text = (sheet.raw text).text ++ added.reverse := by
    rw [Sheet.text, hadded, List.reverse_append]
    rfl
  have hink := hwrites.ink
  rw [htext, ink_append, ← writtenInk_eq] at hink
  refine ⟨added.reverse, ?_, fun hmem => hline (List.mem_reverse.mp hmem), List.append_cancel_left hink⟩
  rw [hparts, htext]

end MarkupEdit.Print
