import MarkupEdit.Proofs.Edit.TextReading
import MarkupEdit.Proofs.Text.Trimming

/-!
# Setting a text twice

Setting the text that an element was just given changes nothing. The nodes for a text keep the blanks
that stood around the old content, and these blanks are found again around the new content: at the ends
of text between tags, or in front of a literal and in the text behind it.

* `ofContent_text`, `ofContent_literal`: the blanks around the new content.
* `textNodes_again`: **the nodes for a text are those for the text once more.**
* `setText_setText`: an element with a text stays as it is when it gets this text.
* `editText_editText`: **a text edit made twice is the edit made once.**
-/

namespace MarkupEdit.Edit

open MarkupEdit.Text MarkupEdit.Tree

variable {element new c : Node} {comments nodes : List Node} {text leading s : String}
  {edges : Edges}

/-! ## The blanks around the new content -/

theorem trim_of_needsLiteral (h : needsLiteral text = false) : trim text.toList = text.toList := by
  rw [needsLiteral, Bool.or_eq_false_iff, bne_eq_false_iff_eq] at h
  have hlist := congrArg String.toList h.2
  rwa [trimmed, String.toList_ofList] at hlist

/-- The blanks in front of a text that starts with none. -/
theorem blankStart_append {before : String} (hbefore : allBlank before = true)
    (hne : text ≠ "") (h : needsLiteral text = false) (after : String) :
    Edges.blankStart (before ++ text ++ after) = before := by
  have hhead : ∀ c, (text.toList ++ after.toList).head? = some c → isBlank c = false := by
    intro c hc
    rw [List.head?_append_of_ne_nil _ (by simpa using hne)] at hc
    rw [← dropBlank_of_trim (trim_of_needsLiteral h)] at hc
    exact head?_dropBlank hc
  rw [Edges.blankStart, String.toList_append, String.toList_append, List.append_assoc,
    takeWhile_isBlank (allBlank_iff.mp hbefore) hhead, String.ofList_toList]

/-- The blanks behind a text that ends with none. -/
theorem blankEnd_append {after : String} (hafter : allBlank after = true)
    (hne : text ≠ "") (h : needsLiteral text = false) (before : String) :
    Edges.blankEnd (before ++ text ++ after) = after := by
  have hblank : AllBlank after.toList.reverse := fun c hc =>
    allBlank_iff.mp hafter c (List.mem_reverse.mp hc)
  have hhead : ∀ c, (text.toList.reverse ++ before.toList.reverse).head? = some c →
      isBlank c = false := by
    intro c hc
    rw [List.head?_append_of_ne_nil _ (by simpa using hne), List.head?_reverse] at hc
    rw [← dropBlankEnd_of_trim (trim_of_needsLiteral h)] at hc
    exact getLast?_dropBlankEnd hc
  rw [Edges.blankEnd, String.toList_append, String.toList_append, List.reverse_append,
    List.reverse_append, takeWhile_isBlank hblank hhead, List.reverse_reverse, String.ofList_toList]

theorem blankEnd_of_allBlank (h : allBlank s = true) : Edges.blankEnd s = s := by
  have hall : s.toList.reverse.takeWhile isBlank = s.toList.reverse := by
    refine List.takeWhile_eq_self_iff.mpr fun c hc => ?_
    exact allBlank_iff.mp h c (List.mem_reverse.mp hc)
  rw [Edges.blankEnd, hall, List.reverse_reverse, String.ofList_toList]

/-- Among comments in braces there is no text. -/
theorem texts_of_comments (h : ∀ c ∈ comments, isCommentBraces c = true) :
    comments.filter (·.kind == .jsxText) = [] := by
  refine List.filter_eq_nil_iff.mpr fun c hc => ?_
  have hkind : c.kind = .jsxExpression :=
    beq_iff_eq.mp (Bool.and_eq_true_iff.mp (h c hc)).1
  rw [hkind]
  decide

/-- The blanks around a text between tags. -/
theorem ofContent_text (hcomments : ∀ c ∈ comments, isCommentBraces c = true)
    (hbefore : allBlank edges.before = true) (hafter : allBlank edges.after = true)
    (hne : text ≠ "") (h : needsLiteral text = false) (leading : String) :
    Edges.ofContent ((Node.markupText (edges.before ++ text ++ edges.after)).withLeading leading
      :: comments) = edges := by
  have hstart := blankStart_append hbefore hne h edges.after
  have hend := blankEnd_append hafter hne h edges.before
  -- the text is not blank, so that its two ends count each for itself
  have hsolid : allBlank (edges.before ++ text ++ edges.after) = false := by
    rw [Bool.eq_false_iff]
    intro hall
    have hblank : AllBlank text.toList := by
      intro c hc
      refine allBlank_iff.mp hall c ?_
      rw [String.toList_append, String.toList_append]
      exact List.mem_append_left _ (List.mem_append_right _ hc)
    have hnil := dropBlank_of_trim (trim_of_needsLiteral h)
    rw [hblank.dropBlank] at hnil
    exact hne (by simpa using hnil.symm)
  generalize edges.before ++ text ++ edges.after = shown at *
  have htexts : ((Node.markupText shown).withLeading leading :: comments).filter
      (·.kind == .jsxText) = [(Node.markupText shown).withLeading leading] := by
    rw [List.filter_cons_of_pos (by rfl), texts_of_comments hcomments]
  have hfirst : ((Node.markupText shown).withLeading leading :: comments).head?.bind
      (fun child => if child.kind == .jsxText then child.text else none) = some shown := rfl
  have hlast : ((Node.markupText shown).withLeading leading).text = some shown := rfl
  unfold Edges.ofContent
  dsimp only
  rw [htexts, hfirst, List.getLast?_singleton, Option.bind_some, hlast]
  simp [hsolid, hstart, hend]

/-- The blanks behind a literal. Those in front of it belong to its trivia. -/
theorem ofContent_literal (hcomments : ∀ c ∈ comments, isCommentBraces c = true)
    (hafter : allBlank edges.after = true) (literal : Node) (leading : String) :
    Edges.ofContent ((Node.markupExpression literal).withLeading leading ::
      ((if edges.after == "" then [] else [.markupText edges.after]) ++ comments)) =
        ⟨"", edges.after⟩ := by
  have htexts : ((Node.markupExpression literal).withLeading leading ::
      ((if edges.after == "" then [] else [.markupText edges.after]) ++ comments)).filter
        (·.kind == .jsxText) = if edges.after == "" then [] else [.markupText edges.after] := by
    rw [List.filter_cons_of_neg Bool.false_ne_true, List.filter_append, texts_of_comments hcomments,
      List.append_nil]
    split
    · rfl
    · rfl
  have hfirst : ((Node.markupExpression literal).withLeading leading ::
      ((if edges.after == "" then [] else [.markupText edges.after]) ++ comments)).head?.bind
        (fun child => if child.kind == .jsxText then child.text else none) = none := rfl
  unfold Edges.ofContent
  dsimp only
  rw [htexts, hfirst]
  by_cases hempty : edges.after = ""
  · simp [hempty]
  · have hend : Edges.blankEnd edges.after = edges.after := blankEnd_of_allBlank hafter
    have hlast : (Node.markupText edges.after).text = some edges.after := rfl
    simp [hempty, hlast, hend]

/-! ## The same nodes again -/

/-- **The nodes for a text are those for the text once more**, with what is around them now. -/
theorem textNodes_again (hcomments : ∀ c ∈ comments, isCommentBraces c = true)
    (hbefore : allBlank edges.before = true) (hafter : allBlank edges.after = true)
    (hnodes : nodes = textNodes text leading edges ++ comments) :
    textNodes text ((nodes.head?.map Node.leading).getD "") (.ofContent nodes) =
      textNodes text leading edges := by
  by_cases hempty : text = ""
  · rw [hempty]
    rfl
  have hne : (text == "") = false := by simpa using hempty
  rw [textNodes, hne, if_neg Bool.false_ne_true] at hnodes ⊢
  rw [textNodes, hne, if_neg Bool.false_ne_true]
  cases hliteral : needsLiteral text with
  | true =>
    -- the trivia of the literal holds the blanks in front of it by now
    rw [hliteral, if_pos rfl, List.cons_append] at hnodes
    have hcontent := ofContent_literal hcomments hafter (.stringLiteral text '"')
      (leading ++ edges.before)
    rw [← hnodes] at hcontent
    have hleading : (nodes.head?.map Node.leading).getD "" = leading ++ edges.before := by
      rw [hnodes]
      rfl
    rw [hcontent, hleading, if_pos rfl, if_pos rfl, String.append_empty]
  | false =>
    rw [hliteral, if_neg Bool.false_ne_true, List.singleton_append] at hnodes
    have hcontent := ofContent_text hcomments hbefore hafter hempty hliteral leading
    rw [← hnodes] at hcontent
    have hleading : (nodes.head?.map Node.leading).getD "" = leading := by
      rw [hnodes]
      rfl
    rw [hcontent, hleading]

theorem contentFor_of_content (h : new.content = contentFor text element) :
    contentFor text new = contentFor text element := by
  obtain ⟨hbefore, hafter⟩ := allBlank_ofContent element.content
  have hcomments : ∀ c ∈ element.content.filter isCommentBraces, isCommentBraces c = true :=
    fun c hc => (List.mem_filter.mp hc).2
  have hnodes := textNodes_again hcomments hbefore hafter h
  rw [contentFor, hnodes, h, filter_contentFor, contentFor]

/-- The content for a text is literal. -/
theorem showsText_of_mem_contentFor (h : c ∈ contentFor text element) : ShowsText c := by
  rcases List.mem_append.mp h with h | h
  · unfold textNodes at h
    split at h
    · exact absurd h List.not_mem_nil
    split at h
    · rcases List.mem_cons.mp h with rfl | h
      · refine .inr ⟨rfl, .inr ?_⟩
        rw [bracedText?_literal]
        rfl
      · split at h
        · exact absurd h List.not_mem_nil
        · rw [List.mem_singleton.mp h]
          exact .inl List.mem_cons_self
    · rw [List.mem_singleton.mp h]
      exact .inl List.mem_cons_self
  · obtain ⟨hkind, hcomment⟩ := Bool.and_eq_true_iff.mp (List.mem_filter.mp h).2
    exact .inr ⟨beq_iff_eq.mp hkind, .inl hcomment⟩

/-! ## The same element again -/

/-- **What an element is once its text is set.** It is as it was if there is no content and nothing to
show, and else it has the content for the text between its tags. -/
theorem setText_eq_ok (h : setText element text = .ok new) :
    (new = element ∧ element.kind = .jsxSelfClosingElement) ∨
      ∃ front tag closing back, HasContent new front tag (contentFor text element) closing back := by
  cases hfault : obstacle? element with
  | some fault =>
    rw [setText_of_some hfault] at h
    cases h
  | none =>
  rw [setText_of_none hfault] at h
  split at h
  · next hself =>
    have hkind : element.kind = .jsxSelfClosingElement := beq_iff_eq.mp hself
    cases h
    split
    · exact .inl ⟨rfl, hkind⟩
    · exact .inr ⟨[], _, _, [], hasContent_promote hkind _⟩
  · split at h
    · next start stop hrange =>
      cases h
      obtain ⟨front, tag, content, closing, back, hcontent, rfl, rfl⟩ := exists_hasContent hrange
      exact .inr ⟨front, tag, closing, back, hcontent.splice _⟩
    · cases h

/-- An element whose content is the content for a text stays as it is when it gets this text. -/
theorem setText_self {front back : List Node} {tag closing : Node}
    (h : HasContent element front tag (contentFor text element) closing back) :
    setText element text = .ok element := by
  have hobstacle : obstacle? element = none := by
    refine List.findSome?_eq_none_iff.mpr fun c hc => ?_
    rw [h.content_eq] at hc
    exact (textObstacle?_eq_none_iff _ c).mpr (showsText_of_mem_contentFor hc)
  have hkind : (element.kind == .jsxSelfClosingElement) = false := by
    rw [h.kind]
    decide
  rw [setText_of_none hobstacle, hkind, if_neg Bool.false_ne_true, h.contentRange?]
  dsimp only
  rw [h.splice_self]

/-- **An element with a text stays as it is when it gets this text.** -/
theorem setText_setText (h : setText element text = .ok new) : setText new text = .ok new := by
  rcases setText_eq_ok h with ⟨rfl, -⟩ | ⟨front, tag, closing, back, hcontent⟩
  · exact h
  · have hsame : contentFor text new = contentFor text element :=
      contentFor_of_content hcontent.content_eq
    rw [← hsame] at hcontent
    exact setText_self hcontent

theorem isElement_of_setText (h : setText element text = .ok new) :
    new.kind.isElement = true := by
  rcases setText_eq_ok h with ⟨rfl, hkind⟩ | ⟨front, tag, closing, back, hcontent⟩
  · rw [hkind]
    rfl
  · rw [hcontent.kind]
    rfl

/-! ## The same edit again -/

variable {tree edited : SourceTree} {path : Path} {changes : List Change}

/-- **A text edit made twice is the edit made once.** Where a text can be set, it can be set again, and
nothing in the tree changes. -/
theorem editText_editText (h : editText tree path text = .ok (edited, changes)) :
    ∃ again, editText edited path text = .ok (edited, again) := by
  obtain ⟨element, -, h⟩ := ok_of_bind h
  obtain ⟨new, hset, h⟩ := ok_of_bind h
  obtain ⟨t, hplaced, h⟩ := ok_of_bind h
  cases h
  have hnew : elementAt edited path = .ok new :=
    elementAt_of_placed hplaced (isElement_of_setText hset)
  have hself : placed edited path new = .ok edited := placed_self (elementAt_eq_ok hnew).1
  refine ⟨[.modified path.text (directText new) text], ?_⟩
  rw [editText, hnew]
  show (setText new text).bind _ = _
  rw [setText_setText hset]
  show (placed edited path new).bind _ = _
  rw [hself]
  rfl

/-- The blank between the text and the comment stays behind the literal, and stays there. -/
theorem editText_editText_noted :
    ∃ edited changes again, editText notedTree [0, 0] " a  & b" = .ok (edited, changes) ∧
      edited.toSource = "<p>\x7b\" a  & b\"\x7d \x7b/* a */\x7d</p>;" ∧
      editText edited [0, 0] " a  & b" = .ok (edited, again) := by
  have hedit : ∃ result, editText notedTree [0, 0] " a  & b" = .ok result := ⟨_, rfl⟩
  obtain ⟨⟨edited, changes⟩, hedit⟩ := hedit
  obtain ⟨again, hagain⟩ := editText_editText hedit
  have hsource : (editText notedTree [0, 0] " a  & b").map (fun result => result.1.toSource) =
      .ok "<p>\x7b\" a  & b\"\x7d \x7b/* a */\x7d</p>;" := by decide +kernel
  rw [hedit] at hsource
  exact ⟨edited, changes, again, hedit, Except.ok.inj hsource, hagain⟩

end MarkupEdit.Edit
