import MarkupEdit.Proofs.Print.Lines

/-!
# What the parts of the printer write

The lexemes of a tree are written as they are, in their order, whatever separates one from the next. Where
no line comment stands in a part of a tag that is written as it is in the source, the separator behind a
line comment ends the line.

* `Shaped.block_parts`, `Shaped.element_parts`: which children the parts of the printer write.
* `writes_node`: **a node is written by its lexemes**, by one lemma for each part of the printer.
* `laid_pretty`: so is a tree, with nothing but blanks between them.
* `endsLine_pretty`: **behind a line comment the line ends.**
-/

namespace MarkupEdit.Print

open MarkupEdit.Text MarkupEdit.Tree

variable {n : Node} {l : List Node} {isStrict : Bool}

/-! ## Blocks and elements -/

/-- A block is written between braces of the printer, so the only braces among its children must be the
outer two. -/
theorem Shaped.block_parts (h : Shaped n) (hkind : isBlockLike n.kind = true) :
    ∃ front body back, n.children = front :: (body ++ [back]) ∧ front.isToken "\x7b" = true ∧
      back.isToken "\x7d" = true ∧ n.children.filter (fun c => !isBrace c) = body := by
  obtain ⟨front, body, back, hchildren, hfront, hback, hbody⟩ :=
    (h.block hkind).split fun c hc => isToken_ne (by decide) hc
  have hkept : body.filter (fun c => !isBrace c) = body :=
    List.filter_eq_self.mpr fun c hc => by rw [isBrace, (hbody c hc).1, (hbody c hc).2]; rfl
  refine ⟨front, body, back, hchildren, hfront, hback, ?_⟩
  rw [hchildren, filter_enclosed hkept, if_neg (by simp [isBrace, hfront]),
    if_neg (by simp [isBrace, hback]), List.nil_append, List.append_nil]

/-- Which children of an element are written on one line, on lines of their own, and behind them. -/
theorem Shaped.element_parts (h : Shaped n) (hkind : n.kind = .jsxElement) :
    ∃ opening body closing, n.children = opening :: (body ++ [closing]) ∧
      (opening.kind == .jsxOpeningElement) = true ∧
      n.children.filter (fun c => c.kind != .jsxOpeningElement) = body ++ [closing] ∧
      n.children.filter (fun c => c.kind != .jsxOpeningElement && c.kind != .jsxClosingElement) = body ∧
      n.children.filter (fun c => c.kind == .jsxClosingElement) = [closing] := by
  obtain ⟨opening, body, closing, hchildren, hopening, hclosing, hbody⟩ :=
    (h.element hkind).split fun c hc => by rw [beq_iff_eq.mp hc]; rfl
  have hkept : body.filter (fun c => c.kind != .jsxOpeningElement) = body :=
    List.filter_eq_self.mpr fun c hc => by rw [bne, (hbody c hc).1]; rfl
  have hnone : body.filter (fun c => c.kind == .jsxClosingElement) = [] :=
    List.filter_eq_nil_iff.mpr fun c hc => by simp [(hbody c hc).2]
  have hopening' := beq_iff_eq.mp hopening
  have hclosing' := beq_iff_eq.mp hclosing
  refine ⟨opening, body, closing, hchildren, hopening, ?_, ?_, ?_⟩
  · rw [hchildren, filter_enclosed hkept, if_neg (by rw [hopening']; decide),
      if_pos (by rw [hclosing']; rfl), List.nil_append]
  · rw [hchildren, filter_between_tags hopening hbody hclosing]
  · rw [hchildren, filter_enclosed hnone, if_neg (by rw [hopening']; decide), if_pos hclosing]
    rfl

/-! ## The parts of the printer -/

/-- What is printed by its parts is written by its parts. -/
theorem Sheet.Writes.of_composed {sheet sheet' : Sheet} {s : Setting} (h : Shaped n)
    (hcomposed : isComposed n.kind = true) (hwrites : sheet.Writes
      (pieces isStrict (lexemesAll (s.inside n.kind n.children) n.children)) sheet') :
    sheet.Writes (pieces isStrict (lexemes s n)) sheet' := by
  rcases pieces_of_composed (s := s) h hcomposed with hpieces | ⟨text, hblank, hpieces⟩
  · rwa [hpieces]
  · rw [hpieces]
    exact (Sheet.writes_absent hblank).trans hwrites

theorem writes_token {text : String} (s : Setting) (htoken : n.isToken text = true) (sheet : Sheet) :
    sheet.Writes (pieces isStrict (lexemes s n)) (sheet.lexeme text) := by
  rw [pieces_of_isToken htoken]
  exact sheet.writes_lexeme (lined_code text)

theorem writes_rawSpace (sheet : Sheet) : sheet.Writes [] (sheet.raw " ") :=
  sheet.writes_raw (lined_blanks fun c hc => by rw [List.mem_singleton.mp hc]; rfl)

theorem Setting.inside_tag {kind : Kind} (h : partsSetting kind = .tagPart) (children : List Node) :
    plain.inside kind children = .tagPart ∧ isComposed kind = true := by
  unfold partsSetting at h
  split at h
  · exact ⟨rfl, rfl⟩
  · exact ⟨rfl, rfl⟩
  · exact ⟨rfl, rfl⟩
  · cases h
  · cases h

-- The printer and these lemmas run down the tree alike: from a node to a list of its children, and
-- from a list to its first node and the rest.

mutual

/-- **A node is written by its lexemes.** -/
theorem writes_node (parent : String) (n : Node) (h : n.Throughout (Printable isStrict)) (sheet : Sheet) :
    sheet.Writes (pieces isStrict (lexemes .plain n)) (node parent n sheet) := by
  have hall : ∀ c ∈ n.children, c.Throughout (Printable isStrict) := fun c hc => h.child hc
  rw [node]
  dsimp only
  split
  · next hkind =>
    have hkind := beq_iff_eq.mp hkind
    have hinside : Setting.plain.inside n.kind n.children = .plain := by rw [hkind]; rfl
    refine Sheet.Writes.of_composed h.self.toShaped (by rw [hkind]; rfl) ?_
    rw [hinside]
    exact writes_programParts n.children hall sheet
  split
  · next hkind =>
    have hkind := beq_iff_eq.mp hkind
    refine Sheet.Writes.of_composed h.self.toShaped (by rw [hkind]; rfl) ?_
    split
    · next hmarkup =>
      have hinside : Setting.plain.inside n.kind n.children = .returned := by
        rw [hkind]
        exact if_pos hmarkup
      obtain ⟨hword, hone⟩ := Bool.and_eq_true_iff.mp (h.self.returned hkind hmarkup)
      rw [hinside, lexemesAll_returned, pieces_append,
        pieces_beforeValue (fun c hc => (hall c hc).self.toShaped) hword]
      have hreturn : sheet.Writes [.code "return"] (sheet.lexeme "return").dueSpace :=
        (sheet.writes_lexeme (lined_code _)).trans_nil (Sheet.writes_dueSpace _)
      exact hreturn.trans (writes_returned n.children hall hmarkup hone _)
    · next hmarkup =>
      have hinside : Setting.plain.inside n.kind n.children = .plain := by
        rw [hkind]
        exact if_neg hmarkup
      rw [hinside]
      exact writes_nodes _ n.children hall sheet
  split
  · next hkind => exact writes_element false n (beq_iff_eq.mp hkind) h sheet
  split
  · next hkind =>
    simp only [Bool.or_eq_true, beq_iff_eq] at hkind
    have htag : partsSetting n.kind = .tagPart := by
      rcases hkind with (hkind | hkind) | hkind <;> rw [hkind] <;> rfl
    exact writes_tag n htag h sheet
  split
  · next hkind =>
    obtain ⟨text, htext⟩ := Option.isSome_iff_exists.mp (h.self.text (.inl (beq_iff_eq.mp hkind)))
    rw [htext, Option.getD_some, pieces_of_code htext (by rw [beq_iff_eq.mp hkind]; decide)]
    exact sheet.writes_raw (lined_code text)
  split
  · next hkind =>
    obtain ⟨text, htext⟩ := Option.isSome_iff_exists.mp (h.self.text (.inr (beq_iff_eq.mp hkind)))
    rw [htext, Option.getD_some, pieces_of_text htext (role_ne_passedOver (by decide))]
    exact writes_comment _ sheet
  split
  · next hkind => exact writes_block n hkind h sheet
  next hreturn _ htag _ hcomment _ =>
  split
  · next text htext =>
    rw [pieces_of_code htext (by simpa using hcomment)]
    exact writes_leaf parent n.kind text sheet
  · next htext =>
    simp only [Bool.or_eq_true, beq_iff_eq, not_or] at hreturn htag
    rw [lexemes_of_branch _ htext, Setting.inside_plain hreturn htag.1.1 htag.1.2 htag.2]
    exact writes_nodes _ n.children hall sheet
termination_by (sizeOf n, 2)
decreasing_by
  all_goals
    have hlt := sizeOf_children_lt n
    omega

theorem writes_nodes (parent : String) (ns : List Node) (h : ∀ c ∈ ns, c.Throughout (Printable isStrict))
    (sheet : Sheet) : sheet.Writes (pieces isStrict (lexemesAll .plain ns)) (nodes parent ns sheet) := by
  match ns with
  | [] =>
    rw [nodes]
    exact .refl sheet
  | n :: rest =>
    rw [nodes, pieces_cons (by decide)]
    exact (writes_node parent n (h n List.mem_cons_self) sheet).trans
      (writes_nodes parent rest (fun c hc => h c (List.mem_cons_of_mem _ hc)) _)
termination_by (sizeOf ns, 0)
decreasing_by all_goals (simp_wf; omega)

theorem writes_programParts (ns : List Node) (h : ∀ c ∈ ns, c.Throughout (Printable isStrict))
    (sheet : Sheet) :
    sheet.Writes (pieces isStrict (lexemesAll .plain ns)) (programParts ns sheet) := by
  match ns with
  | [] =>
    rw [programParts]
    exact .refl sheet
  | n :: rest =>
    have hrest := fun c hc => h c (List.mem_cons_of_mem _ hc)
    rw [programParts, pieces_cons (by decide)]
    split
    · next htoken =>
      exact (writes_token .plain htoken sheet).trans (writes_programParts rest hrest _)
    · have hn := sheet.writes_newline.nil_trans (writes_node "program" n (h n List.mem_cons_self) _)
      exact hn.trans (writes_programParts rest hrest _)
termination_by (sizeOf ns, 0)
decreasing_by all_goals (simp_wf; omega)

/-- The braces of a block are written around its parts. -/
theorem writes_blockParts (parent : String) (ns : List Node)
    (h : ∀ c ∈ ns, c.Throughout (Printable isStrict)) (sheet : Sheet) :
    sheet.Writes (pieces isStrict (lexemesAll .plain (ns.filter (fun c => !isBrace c))))
      (blockParts parent ns sheet) := by
  match ns with
  | [] =>
    rw [blockParts]
    exact .refl sheet
  | n :: rest =>
    have hrest := fun c hc => h c (List.mem_cons_of_mem _ hc)
    by_cases hbrace : isBrace n = true
    · rw [blockParts, if_pos hbrace, List.filter_cons_of_neg (by simp [hbrace])]
      exact writes_blockParts parent rest hrest sheet
    rw [blockParts, if_neg hbrace, List.filter_cons_of_pos (by simp [hbrace]), pieces_cons (by decide)]
    split
    · next hseparator =>
      have hn : sheet.Writes (pieces isStrict (lexemes .plain n)) (sheet.lexeme (n.text.getD "")) := by
        rcases Bool.or_eq_true_iff.mp hseparator with htoken | htoken
        · rw [(Node.isToken_iff.mp htoken).2]
          exact writes_token .plain htoken sheet
        · rw [(Node.isToken_iff.mp htoken).2]
          exact writes_token .plain htoken sheet
      exact hn.trans (writes_blockParts parent rest hrest _)
    · have hn := sheet.writes_newline.nil_trans (writes_node parent n (h n List.mem_cons_self) _)
      exact hn.trans (writes_blockParts parent rest hrest _)
termination_by (sizeOf ns, 0)
decreasing_by all_goals (simp_wf; omega)

/-- A block is written between braces. -/
theorem writes_block (n : Node) (hkind : isBlockLike n.kind = true) (h : n.Throughout (Printable isStrict))
    (sheet : Sheet) :
    sheet.Writes (pieces isStrict (lexemes .plain n))
      (if n.children.all isBrace then sheet.dueSpace.lexeme "\x7b\x7d"
        else ((blockParts n.kind.grammarName n.children
          (sheet.dueSpace.lexeme "\x7b").indented).outdented.newline).lexeme "\x7d") := by
  obtain ⟨front, body, back, hchildren, hfront, hback, hfilter⟩ := h.self.block_parts hkind
  have hall : ∀ c ∈ n.children, c.Throughout (Printable isStrict) := fun c hc => h.child hc
  have hinside : Setting.plain.inside n.kind n.children = .plain := by
    apply Setting.inside_plain <;> intro hother <;> rw [hother] at hkind <;> cases hkind
  refine Sheet.Writes.of_composed h.self.toShaped (by rw [isComposed, hkind, Bool.or_true]) ?_
  have htexts : pieces isStrict (lexemesAll .plain n.children) =
      [.code "\x7b"] ++ (pieces isStrict (lexemesAll .plain body) ++ [.code "\x7d"]) := by
    rw [hchildren, pieces_cons (by decide), pieces_concat (by decide), pieces_cons (by decide),
      pieces_of_isToken hfront, pieces_of_isToken hback]
    rfl
  rw [hinside, htexts]
  split
  · next hbraces =>
    have hnil : body = [] := by
      rw [← hfilter]
      exact List.filter_eq_nil_iff.mpr fun c hc => by
        simp [List.all_eq_true.mp hbraces c hc]
    rw [hnil]
    exact sheet.dueSpace.writes_lexeme ((lined_code "\x7b").append (lined_code "\x7d"))
  · have hopen : sheet.Writes [.code "\x7b"] (sheet.dueSpace.lexeme "\x7b").indented :=
      (sheet.dueSpace.writes_lexeme (lined_code _)).trans_nil (Sheet.writes_indented _)
    have hbody := writes_blockParts n.kind.grammarName n.children hall
      (sheet.dueSpace.lexeme "\x7b").indented
    rw [hfilter] at hbody
    have hclose (s : Sheet) : s.Writes [.code "\x7d"] (s.outdented.newline.lexeme "\x7d") :=
      (s.writes_outdented.nil_trans s.outdented.writes_newline).nil_trans
        (Sheet.writes_lexeme _ (lined_code _))
    exact hopen.trans (hbody.trans (hclose _))
termination_by (sizeOf n, 1)
decreasing_by
  all_goals
    have hlt := sizeOf_children_lt n
    omega

/-- Behind the word an element is written in parentheses, whether it had some or not. -/
theorem writes_returned (ns : List Node) (h : ∀ c ∈ ns, c.Throughout (Printable isStrict))
    (hmarkup : (returnedMarkup? ns).isSome = true)
    (hone : (ns.find? Node.isNamed).any
      (fun value => value.kind.isElement || holdsOne value.children) = true) (sheet : Sheet) :
    sheet.Writes (pieces isStrict (lexemesAll .returned (ns.dropWhile (!·.isNamed))))
      (returned ns sheet) := by
  match ns with
  | [] => cases hmarkup
  | n :: rest =>
    have hn := h n List.mem_cons_self
    have hrest := fun c hc => h c (List.mem_cons_of_mem _ hc)
    by_cases hnamed : n.isNamed = true
    · rw [returned, if_pos hnamed, List.dropWhile_cons_of_neg (by simp [hnamed]), lexemesAll,
        if_pos (by simp [hnamed]), pieces_append]
      rw [returnedMarkup?, List.find?_cons_of_pos hnamed, Option.bind_some] at hmarkup
      rw [List.find?_cons_of_pos hnamed, Option.any_some] at hone
      obtain ⟨e, he⟩ := Option.isSome_iff_exists.mp hmarkup
      rw [pieces_argument (throughout_shaped hn) hone he]
      split
      · next e' he' =>
        obtain rfl : e = e' := Option.some.inj (he.symm.trans he')
        have hopen : sheet.Writes [.code "("] (sheet.lexeme "(").indented.newline :=
          (sheet.writes_lexeme (lined_code _)).trans_nil
            ((Sheet.writes_indented _).nil_trans (Sheet.writes_newline _))
        have helement := writes_node "return_statement" e (throughout_of_markupOf? he hn)
          (sheet.lexeme "(").indented.newline
        have hclose (s : Sheet) : s.Writes [.code ")"] (s.outdented.newline.lexeme ")") :=
          (s.writes_outdented.nil_trans s.outdented.writes_newline).nil_trans
            (Sheet.writes_lexeme _ (lined_code _))
        exact (hopen.trans (helement.trans (hclose _))).trans (writes_nodes _ rest hrest _)
      · next hnone =>
        rw [hnone] at he
        cases he
    · rw [returned, if_neg hnamed, List.dropWhile_cons_of_pos (by simp [hnamed])]
      rw [returnedMarkup?, List.find?_cons_of_neg hnamed] at hmarkup
      rw [List.find?_cons_of_neg hnamed] at hone
      exact writes_returned rest hrest hmarkup hone sheet
termination_by (sizeOf ns, 0)
decreasing_by
  all_goals first
    | (have hle := sizeOf_le_of_markupOf ‹markupOf? n = some _›; simp_wf; omega)
    | (simp_wf; omega)

/-- An element is written from its opening tag to the tag that closes it. -/
theorem writes_element (isInline : Bool) (n : Node) (hkind : n.kind = .jsxElement)
    (h : n.Throughout (Printable isStrict)) (sheet : Sheet) :
    sheet.Writes (pieces isStrict (lexemes .plain n)) (element isInline n sheet) := by
  obtain ⟨opening, body, closing, hchildren, hopening, hinline, hbetween, hclosings⟩ :=
    h.self.element_parts hkind
  have hall : ∀ c ∈ n.children, c.Throughout (Printable isStrict) := fun c hc => h.child hc
  have hinside : Setting.plain.inside n.kind n.children = .plain := by rw [hkind]; rfl
  have htexts : pieces isStrict (lexemesAll .plain n.children) = pieces isStrict (lexemes .plain opening) ++
      (pieces isStrict (lexemesAll .plain body) ++ pieces isStrict (lexemesAll .plain [closing])) := by
    rw [hchildren, pieces_cons (by decide), pieces_concat (by decide)]
  have htag := writes_openingTag n.children hall opening (by rw [hchildren]; rfl) hopening sheet
  refine Sheet.Writes.of_composed h.self.toShaped (by rw [hkind]; rfl) ?_
  rw [hinside, htexts, element]
  dsimp only
  split
  · have hparts := writes_inlineParts false n.children hall (openingTag n.children sheet)
    rw [hinline, pieces_concat (by decide)] at hparts
    exact htag.trans hparts
  · have hclose (s : Sheet) := writes_closingTags n.children hall s
    rw [hclosings] at hclose
    split
    · next hnil =>
      rw [hbetween, List.isEmpty_iff] at hnil
      rw [hnil]
      exact htag.trans (hclose _)
    · have hparts := writes_elementParts n.children hall (openingTag n.children sheet).indented
      rw [hbetween] at hparts
      have hlines := ((Sheet.writes_indented _).nil_trans hparts).trans_nil
        ((Sheet.writes_outdented _).nil_trans (Sheet.writes_newline _))
      exact htag.trans (hlines.trans (hclose _))
termination_by (sizeOf n, 0)
decreasing_by
  all_goals
    have hlt := sizeOf_children_lt n
    omega

theorem writes_openingTag (ns : List Node) (h : ∀ c ∈ ns, c.Throughout (Printable isStrict)) (tag : Node)
    (hfirst : ns.head? = some tag) (hkind : (tag.kind == .jsxOpeningElement) = true) (sheet : Sheet) :
    sheet.Writes (pieces isStrict (lexemes .plain tag)) (openingTag ns sheet) := by
  match ns with
  | [] => cases hfirst
  | n :: rest =>
    obtain rfl : n = tag := Option.some.inj hfirst
    rw [openingTag, if_pos hkind]
    exact writes_tag n (by rw [beq_iff_eq.mp hkind]; rfl) (h n List.mem_cons_self) sheet
termination_by (sizeOf ns, 0)
decreasing_by all_goals (simp_wf; omega)

theorem writes_closingTags (ns : List Node) (h : ∀ c ∈ ns, c.Throughout (Printable isStrict))
    (sheet : Sheet) :
    sheet.Writes (pieces isStrict (lexemesAll .plain (ns.filter (fun c => c.kind == .jsxClosingElement))))
      (closingTags ns sheet) := by
  match ns with
  | [] =>
    rw [closingTags]
    exact .refl sheet
  | n :: rest =>
    have hn := h n List.mem_cons_self
    have hrest := fun c hc => h c (List.mem_cons_of_mem _ hc)
    by_cases hkind : (n.kind == .jsxClosingElement) = true
    · have htag := writes_tag n (by rw [beq_iff_eq.mp hkind]; rfl) hn sheet
      rw [closingTags, if_pos hkind, List.filter_cons_of_pos (by simpa using hkind),
        pieces_cons (by decide)]
      exact htag.trans (writes_closingTags rest hrest _)
    · rw [closingTags, if_neg hkind, List.filter_cons_of_neg (by simpa using hkind)]
      exact writes_closingTags rest hrest sheet
termination_by (sizeOf ns, 0)
decreasing_by all_goals (simp_wf; omega)

theorem writes_inlineParts (previousIsText : Bool) (ns : List Node)
    (h : ∀ c ∈ ns, c.Throughout (Printable isStrict)) (sheet : Sheet) :
    sheet.Writes (pieces isStrict (lexemesAll .plain (ns.filter (fun c => c.kind != .jsxOpeningElement))))
      (inlineParts previousIsText ns sheet) := by
  match ns with
  | [] =>
    rw [inlineParts]
    exact .refl sheet
  | n :: rest =>
    have hn := h n List.mem_cons_self
    have hrest := fun c hc => h c (List.mem_cons_of_mem _ hc)
    by_cases hkind : (n.kind == .jsxOpeningElement) = true
    · rw [inlineParts, if_pos hkind, List.filter_cons_of_neg (by simp [bne, hkind])]
      exact writes_inlineParts _ rest hrest sheet
    rw [inlineParts, if_neg hkind, List.filter_cons_of_pos (by simp [bne, hkind]),
      pieces_cons (by decide)]
    -- the gap in front is blank
    have hgap := sheet.writes_raw (lined_markupGap hn.self.leading previousIsText (isTextLike n))
    refine (hgap.nil_trans ?_).trans (writes_inlineParts _ rest hrest _)
    split
    · next helement => exact writes_element true n (beq_iff_eq.mp helement) hn _
    · exact writes_node _ n hn _
termination_by (sizeOf ns, 0)
decreasing_by all_goals (simp_wf; omega)

theorem writes_elementParts (ns : List Node) (h : ∀ c ∈ ns, c.Throughout (Printable isStrict))
    (sheet : Sheet) :
    sheet.Writes (pieces isStrict (lexemesAll .plain (ns.filter
      (fun c => c.kind != .jsxOpeningElement && c.kind != .jsxClosingElement))))
      (elementParts ns sheet) := by
  match ns with
  | [] =>
    rw [elementParts]
    exact .refl sheet
  | n :: rest =>
    have hrest := fun c hc => h c (List.mem_cons_of_mem _ hc)
    by_cases htag : (n.kind == .jsxOpeningElement || n.kind == .jsxClosingElement) = true
    · rw [elementParts, if_pos htag, List.filter_cons_of_neg (by simpa [bne, ← not_or] using htag)]
      exact writes_elementParts rest hrest sheet
    · rw [elementParts, if_neg htag, List.filter_cons_of_pos (by simpa [bne] using htag),
        pieces_cons (by decide)]
      have hn := sheet.writes_newline.nil_trans (writes_node "jsx_element" n (h n List.mem_cons_self) _)
      exact hn.trans (writes_elementParts rest hrest _)
termination_by (sizeOf ns, 0)
decreasing_by all_goals (simp_wf; omega)

theorem writes_tag (n : Node) (htag : partsSetting n.kind = .tagPart)
    (h : n.Throughout (Printable isStrict)) (sheet : Sheet) :
    sheet.Writes (pieces isStrict (lexemes .plain n)) (tagParts n.kind n.children sheet) := by
  obtain ⟨hinside, hcomposed⟩ := Setting.inside_tag htag n.children
  refine Sheet.Writes.of_composed h.self.toShaped hcomposed ?_
  rw [hinside]
  exact writes_tagParts _ n.children (fun c hc => h.child hc) (h.self.kept htag) sheet
termination_by (sizeOf n, 0)
decreasing_by
  all_goals
    have hlt := sizeOf_children_lt n
    omega

theorem writes_tagParts (tag : Kind) (ns : List Node) (h : ∀ c ∈ ns, c.Throughout (Printable isStrict))
    (hfree : isStrict = true → KeptIn (isLineComment · = false) .tagPart ns) (sheet : Sheet) :
    sheet.Writes (pieces isStrict (lexemesAll .tagPart ns)) (tagParts tag ns sheet) := by
  match ns with
  | [] =>
    rw [tagParts]
    exact .refl sheet
  | n :: rest =>
    have hn := h n List.mem_cons_self
    have hrest := fun c hc => h c (List.mem_cons_of_mem _ hc)
    rw [tagParts, pieces_cons (by decide)]
    refine Sheet.Writes.trans ?_ (writes_tagParts tag rest hrest (fun hs => (hfree hs).tail) _)
    split
    · next hkind =>
      have hkind := beq_iff_eq.mp hkind
      have hinside : Setting.tagPart.inside n.kind n.children = .attributePart := by rw [hkind]; rfl
      have hkept := hn.self.kept (show partsSetting n.kind = .attributePart by rw [hkind]; rfl)
      refine (writes_rawSpace sheet).nil_trans
        (Sheet.Writes.of_composed hn.self.toShaped (by rw [hkind]; rfl) ?_)
      rw [hinside]
      exact writes_attributeParts n.children (fun c hc => hn.child hc) hkept _
    next hattribute =>
    split
    · next hkind =>
      have hkind := beq_iff_eq.mp hkind
      have hplain : lexemes .tagPart n = lexemes .plain n :=
        lexemes_congr rfl (by rw [hkind]; rfl)
      rw [hplain]
      exact (writes_rawSpace sheet).nil_trans (writes_node _ n hn _)
    next hexpression =>
    -- all other parts of a tag are written as they stand in the source
    have hlined := lined_kept (throughout_shaped hn) fun hs =>
      hfree hs n List.mem_cons_self (by simp [Setting.keeps, bne, hattribute, hexpression])
    rw [lexemes_tagPart (by simpa using hattribute) (by simpa using hexpression)]
    split
    · next hend =>
      have htext : n.text.getD "" = n.text.getD n.body := by
        rcases Bool.or_eq_true_iff.mp (Bool.and_eq_true_iff.mp hend).2 with htoken | htoken <;>
          rw [(Node.isToken_iff.mp htoken).2] <;> rfl
      rw [htext]
      exact (writes_rawSpace sheet).nil_trans (Sheet.writes_raw _ hlined)
    · exact sheet.writes_raw hlined
termination_by (sizeOf ns, 0)
decreasing_by
  all_goals
    have hlt := sizeOf_children_lt n
    simp_wf
    omega

theorem writes_attributeParts (ns : List Node) (h : ∀ c ∈ ns, c.Throughout (Printable isStrict))
    (hfree : isStrict = true → KeptIn (isLineComment · = false) .attributePart ns) (sheet : Sheet) :
    sheet.Writes (pieces isStrict (lexemesAll .attributePart ns)) (attributeParts ns sheet) := by
  match ns with
  | [] =>
    rw [attributeParts]
    exact .refl sheet
  | n :: rest =>
    have hn := h n List.mem_cons_self
    have hrest := fun c hc => h c (List.mem_cons_of_mem _ hc)
    rw [attributeParts, pieces_cons (by decide)]
    refine Sheet.Writes.trans ?_ (writes_attributeParts rest hrest (fun hs => (hfree hs).tail) _)
    split
    · next hkind =>
      have hkind := beq_iff_eq.mp hkind
      have hplain : lexemes .attributePart n = lexemes .plain n :=
        lexemes_congr rfl (by rw [hkind]; rfl)
      rw [hplain]
      exact writes_element true n hkind hn sheet
    next helement =>
    split
    · next hkind =>
      have hkind := beq_iff_eq.mp hkind
      have hplain : lexemes .attributePart n = lexemes .plain n :=
        lexemes_congr rfl (by rw [hkind]; rfl)
      rw [hplain]
      exact writes_node _ n hn sheet
    next hexpression =>
    have hlined := lined_kept (throughout_shaped hn) fun hs =>
      hfree hs n List.mem_cons_self (by simp [Setting.keeps, bne, helement, hexpression])
    rw [lexemes_attributePart (by simpa using helement) (by simpa using hexpression)]
    exact sheet.writes_raw hlined
termination_by (sizeOf ns, 0)
decreasing_by all_goals (simp_wf; omega)

end

/-- **A tree is printed by the lexemes of its root**, with nothing but blanks between them. -/
theorem laid_pretty (tree : SourceTree) (h : tree.root.Throughout Shaped) :
    Laid (writtenTexts (lexemes .plain tree.root)) (pretty tree).toList := by
  have hwrites := writes_node "" tree.root (throughout_printable h) Sheet.empty [] Sheet.holds_empty
  rw [← texts_pieces false]
  exact hwrites.finish.laid

theorem written_pretty (tree : SourceTree) (h : tree.root.Throughout Shaped) :
    ink (pretty tree).toList = writtenInk (lexemes .plain tree.root) := by
  rw [(laid_pretty tree h).ink, ← texts_pieces false, ← writtenInk_eq]

/-- A line comment among the lexemes. -/
def Lexeme.isLineComment (x : Lexeme) : Bool := x.role == .comment && startsLineComment x.text

/-- **Behind a line comment the line ends**, if there are none in the parts of a tag that are written as
they stand in the source. -/
theorem endsLine_pretty (tree : SourceTree) (h : tree.root.Throughout Shaped)
    (hfree : tree.root.Throughout LineFree) {front back : List Lexeme} {x : Lexeme}
    (hlexemes : lexemes .plain tree.root = front ++ x :: back) (hline : x.isLineComment = true) :
    EndsLine (writtenTexts front) x.text (writtenTexts back) (pretty tree).toList := by
  have hprintable : tree.root.Throughout (Printable true) :=
    fun path m hm => ⟨h path m hm, fun _ => hfree path m hm⟩
  have hwrites := writes_node "" tree.root hprintable Sheet.empty [] Sheet.holds_empty
  have hrole : x.role ≠ .passedOver := by
    rw [beq_iff_eq.mp (Bool.and_eq_true_iff.mp hline).1]
    decide
  have hpieces : pieces true (lexemes .plain tree.root) =
      pieces true front ++ x.piece true :: pieces true back := by
    rw [hlexemes, ← List.singleton_append, pieces_append, pieces_append, pieces_singleton hrole]
    rfl
  have hends := hwrites.finish.endsLine hpieces hline
  rwa [texts_pieces, texts_pieces] at hends

end MarkupEdit.Print
