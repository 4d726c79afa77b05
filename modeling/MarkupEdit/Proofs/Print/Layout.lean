import MarkupEdit.Proofs.Print.Ink
import MarkupEdit.Proofs.Text.Trimming

/-!
# Laid out texts

On a sheet there are texts one behind the other, with blanks between them. When a line ends, the blanks
in front of the break are cut, and with them those at the end of the text that was written last. So of
each text all is there but perhaps the blanks at its end.

A line comment takes the rest of its line. When one has been written a break is due, and nothing comes
onto the sheet before it.

* `Laid`: texts and what they look like with blanks around them.
* `Lined`: such texts when behind a line comment the line ends.
* `Lined.dropWhileEnd`: blanks may be cut from the end.
* `Lined.endsLine`: **what stands behind a line comment stands behind a line break.**
* `Sheet.Writes`: what a step of the printer writes, behind whatever is there.
* `Sheet.Writes.ink`: **what is written is there with its ink.**
-/

namespace MarkupEdit.Print

open MarkupEdit.Text MarkupEdit.Tree

/-! ## Texts and blanks -/

/-- Texts one behind the other, without the blanks at their ends, and with blanks around them. -/
inductive Laid : List String → List Char → Prop
  | nil : Laid [] []
  | blank {ts : List String} {s : List Char} {c : Char} (h : Laid ts s) (hc : isBlank c = true) :
    Laid ts (s ++ [c])
  | text {ts : List String} {s : List Char} (h : Laid ts s) (t : String) :
    Laid (ts ++ [t]) (s ++ dropBlankEnd t.toList)

variable {ts us : List String} {r s : List Char} {t : String}

theorem Laid.blanks (h : Laid ts s) (hr : AllBlank r) : Laid ts (s ++ r) := by
  induction r using List.reverseRecOn with
  | nil => rwa [List.append_nil]
  | append_singleton r c ih =>
    rw [← List.append_assoc]
    exact (ih fun d hd => hr d (List.mem_append_left _ hd)).blank
      (hr c (List.mem_append_right _ (List.mem_singleton_self c)))

theorem Laid.append (h : Laid ts r) (h' : Laid us s) : Laid (ts ++ us) (r ++ s) := by
  induction h' with
  | nil => rwa [List.append_nil, List.append_nil]
  | blank _ hc ih =>
    rw [← List.append_assoc]
    exact ih.blank hc
  | text _ t ih =>
    rw [← List.append_assoc, ← List.append_assoc]
    exact ih.text t

theorem laid_blanks (h : AllBlank s) : Laid [] s := Laid.nil.blanks h

/-- A text as it is. -/
theorem laid_text (t : String) : Laid [t] t.toList := by
  obtain ⟨r, hr, ht⟩ := exists_dropBlankEnd_blank t.toList
  rw [ht]
  exact (Laid.nil.text t).blanks hr

/-- A text of blanks may be left out. -/
theorem laid_absent (h : AllBlank t.toList) : Laid [t] [] := by
  have habsent := Laid.nil.text t
  rwa [h.dropBlankEnd] at habsent

/-- The ink of some texts. -/
def inkOfTexts (ts : List String) : List Char := ts.flatMap fun t => ink t.toList

theorem inkOfTexts_append (ts us : List String) :
    inkOfTexts (ts ++ us) = inkOfTexts ts ++ inkOfTexts us := List.flatMap_append

theorem ink_dropBlankEnd (s : List Char) : ink (dropBlankEnd s) = ink s := by
  rw [dropBlankEnd_eq_reverse, ink_reverse, dropBlank, ink_dropWhile fun _ h => h, ink_reverse,
    List.reverse_reverse]

/-- Laid out texts have the ink of the texts. -/
theorem Laid.ink (h : Laid ts s) : ink s = inkOfTexts ts := by
  induction h with
  | nil => rfl
  | blank _ hc ih =>
    rw [ink_append, ih, ink_of_blank fun d hd => List.mem_singleton.mp hd ▸ hc, List.append_nil]
  | text _ t ih =>
    rw [ink_append, ih, ink_dropBlankEnd, inkOfTexts_append]
    exact congrArg (_ ++ ·) (List.append_nil _).symm

theorem allBlank_of_ink (h : Print.ink s = []) : AllBlank s := by
  intro c hc
  by_contra hnot
  have hmem : c ∈ Print.ink s := List.mem_filter.mpr ⟨hc, by simp [hnot]⟩
  rw [h] at hmem
  cases hmem

/-! ## Line comments -/

/-- A comment that starts like that goes on to the end of its line. -/
def startsLineComment (text : String) : Bool := text.toList.take 2 == ['/', '/']

/-- A text that is written, as code or as a comment. -/
structure Piece where
  text : String
  isComment : Bool
  deriving DecidableEq, Repr

namespace Piece

def code (text : String) : Piece := ⟨text, false⟩

/-- A line comment takes the rest of its line. -/
def takesLine (p : Piece) : Bool := p.isComment && startsLineComment p.text

/-- The texts of some pieces. -/
def texts (ps : List Piece) : List String := ps.map Piece.text

theorem texts_append (ps qs : List Piece) : texts (ps ++ qs) = texts ps ++ texts qs := List.map_append

theorem take_of_takesLine {p : Piece} (h : p.takesLine = true) : p.text.toList.take 2 = ['/', '/'] :=
  beq_iff_eq.mp (Bool.and_eq_true_iff.mp h).2

/-- A line comment is not blank. -/
theorem slash_mem {p : Piece} (h : p.takesLine = true) : '/' ∈ dropBlankEnd p.text.toList := by
  have hmem : '/' ∈ p.text.toList := List.mem_of_mem_take (take_of_takesLine h ▸ List.mem_cons_self)
  have hink : '/' ∈ ink (dropBlankEnd p.text.toList) := by
    rw [ink_dropBlankEnd]
    exact List.mem_filter.mpr ⟨hmem, rfl⟩
  exact (List.mem_filter.mp hink).1

end Piece

/-- Texts one behind the other, as in `Laid`. Behind a line comment only blanks are written until the line
ends; the flag says whether the line has still to end. -/
inductive Lined : Bool → List Piece → List Char → Prop
  | nil : Lined false [] []
  | blank {isOpen : Bool} {ps : List Piece} {s : List Char} {c : Char} (h : Lined isOpen ps s)
    (hc : isBlank c = true) : Lined (isOpen && c != '\n') ps (s ++ [c])
  | text {isOpen : Bool} {ps : List Piece} {s : List Char} (h : Lined isOpen ps s) (p : Piece)
    (hopen : isOpen = true → AllBlank p.text.toList) :
    Lined (isOpen || p.takesLine) (ps ++ [p]) (s ++ dropBlankEnd p.text.toList)

variable {ps qs : List Piece} {p : Piece} {isOpen : Bool}

theorem Lined.laid (h : Lined isOpen ps s) : Laid (Piece.texts ps) s := by
  induction h with
  | nil => exact .nil
  | blank _ hc ih => exact ih.blank hc
  | text _ p _ ih =>
    rw [Piece.texts_append]
    exact ih.text p.text

/-- Without line comments there is no line to end. -/
theorem Laid.lined (h : Laid (Piece.texts ps) s) (hps : ∀ p ∈ ps, p.takesLine = false) :
    Lined false ps s := by
  generalize hts : Piece.texts ps = ts at h
  induction h generalizing ps with
  | nil =>
    rw [List.map_eq_nil_iff.mp hts]
    exact .nil
  | blank _ hc ih => exact (ih hps hts).blank hc
  | text _ t ih =>
    obtain ⟨front, back, rfl, hfront, hback⟩ := List.map_eq_append_iff.mp hts
    obtain ⟨p, rfl, rfl⟩ := List.map_eq_singleton_iff.mp hback
    have htext := (ih (fun q hq => hps q (List.mem_append_left _ hq)) hfront).text p nofun
    rwa [hps p (List.mem_append_right _ (List.mem_singleton_self p))] at htext

theorem Lined.append (h : Lined false ps r) (h' : Lined isOpen qs s) :
    Lined isOpen (ps ++ qs) (r ++ s) := by
  induction h' with
  | nil => rwa [List.append_nil, List.append_nil]
  | blank _ hc ih =>
    rw [← List.append_assoc]
    exact ih.blank hc
  | text _ p hopen ih =>
    rw [← List.append_assoc, ← List.append_assoc]
    exact ih.text p hopen

theorem lined_blanks (h : AllBlank s) : Lined false [] s := Laid.lined (laid_blanks h) nofun

/-- Behind blanks a line that has ended has still ended. -/
theorem Lined.blanks (h : Lined isOpen ps s) (hr : AllBlank r) :
    ∃ isOpen', Lined isOpen' ps (s ++ r) ∧ (isOpen' = true → isOpen = true) := by
  induction r using List.reverseRecOn with
  | nil => exact ⟨isOpen, by rwa [List.append_nil], id⟩
  | append_singleton r c ih =>
    obtain ⟨isOpen', hlined, himp⟩ := ih fun d hd => hr d (List.mem_append_left _ hd)
    rw [← List.append_assoc]
    exact ⟨_, hlined.blank (hr c (List.mem_append_right _ (List.mem_singleton_self c))),
      fun h => himp (Bool.and_eq_true_iff.mp h).1⟩

theorem Lined.break (h : Lined isOpen ps s) : Lined false ps (s ++ ['\n']) := by
  have hblank := h.blank (c := '\n') rfl
  rwa [bne_self_eq_false, Bool.and_false] at hblank

/-- A text as it is. -/
theorem lined_text (p : Piece) :
    ∃ isOpen, Lined isOpen [p] p.text.toList ∧ (isOpen = true → p.takesLine = true) := by
  obtain ⟨r, hr, ht⟩ := exists_dropBlankEnd_blank p.text.toList
  obtain ⟨isOpen, hlined, himp⟩ := (Lined.nil.text p nofun).blanks hr
  rw [List.nil_append, List.nil_append, ← ht] at hlined
  exact ⟨isOpen, hlined, himp⟩

theorem lined_code (text : String) : Lined false [.code text] text.toList := by
  obtain ⟨isOpen, hlined, himp⟩ := lined_text (.code text)
  rwa [Bool.eq_false_iff.mpr fun h => Bool.false_ne_true (himp h)] at hlined

/-- Where nothing is written no line has to end. -/
theorem Lined.closed_of_allBlank (h : Lined isOpen ps s) (hs : AllBlank s) : isOpen = false := by
  induction h with
  | nil => rfl
  | blank _ _ ih => rw [ih fun c hc => hs c (List.mem_append_left _ hc), Bool.false_and]
  | text _ p _ ih =>
    rw [ih fun c hc => hs c (List.mem_append_left _ hc), Bool.false_or, Bool.eq_false_iff]
    intro htakes
    exact Bool.false_ne_true (hs '/' (List.mem_append_right _ (Piece.slash_mem htakes)))

/-- **Blanks may be cut from the end.** If no line break is cut, a line that has ended has still ended. -/
theorem Lined.dropWhileEnd {q : Char → Bool} (hq : ∀ c, q c = true → isBlank c = true)
    (h : Lined isOpen ps s) :
    ∃ isOpen', Lined isOpen' ps (dropWhileEnd q s) ∧ (q '\n' = false → isOpen' = isOpen) := by
  induction h with
  | nil => exact ⟨false, .nil, fun _ => rfl⟩
  | @blank isOpen ps s c h hc ih =>
    rw [dropWhileEnd_concat]
    split
    · next hcut =>
      obtain ⟨isOpen', hlined, hsame⟩ := ih
      refine ⟨isOpen', hlined, fun hbreak => ?_⟩
      have hne : c ≠ '\n' := fun heq => Bool.false_ne_true (hbreak.symm.trans (heq ▸ hcut))
      rw [hsame hbreak, bne_iff_ne.mpr hne, Bool.and_true]
    · exact ⟨_, h.blank hc, fun _ => rfl⟩
  | @text isOpen ps s h p hopen ih =>
    rcases List.eq_nil_or_concat (dropBlankEnd p.text.toList) with hnil | ⟨front, c, hconcat⟩
    · have hblank : AllBlank p.text.toList := by
        refine allBlank_of_ink ?_
        rw [← ink_dropBlankEnd, hnil]
        rfl
      obtain ⟨isOpen', hlined, hsame⟩ := ih
      have htext := hlined.text p fun _ => hblank
      rw [hnil, List.append_nil] at htext ⊢
      exact ⟨_, htext, fun hbreak => by rw [hsame hbreak]⟩
    -- what is left of the text ends with no blank
    · have hlast : isBlank c = false := by
        refine getLast?_dropBlankEnd (s := p.text.toList) ?_
        rw [hconcat, List.concat_eq_append, List.getLast?_concat]
      have hnot : ¬ q c = true := fun hc => Bool.false_ne_true (hlast.symm.trans (hq c hc))
      have htext := h.text p hopen
      rw [hconcat, List.concat_eq_append, ← List.append_assoc] at htext ⊢
      rw [dropWhileEnd_concat, if_neg hnot]
      exact ⟨_, htext, fun _ => rfl⟩

/-- A text ends its line: behind it there are only blanks up to a line break. The texts in front of it
stand in front, and those behind it behind the break. -/
def EndsLine (ts : List String) (t : String) (us : List String) (s : List Char) : Prop :=
  ∃ front gap rest, s = front ++ (dropBlankEnd t.toList ++ (gap ++ '\n' :: rest)) ∧ AllBlank gap ∧
    Laid ts front ∧ Laid us rest

theorem EndsLine.append {ts us vs : List String} {t : String} (h : EndsLine ts t us s)
    (hr : ∀ rest, Laid us rest → Laid vs (rest ++ r)) : EndsLine ts t vs (s ++ r) := by
  obtain ⟨front, gap, rest, rfl, hgap, hfront, hrest⟩ := h
  refine ⟨front, gap, rest ++ r, ?_, hgap, hfront, hr rest hrest⟩
  rw [List.append_assoc, List.append_assoc, List.append_assoc, List.cons_append]

/-- **What stands behind a line comment stands behind a line break**, or nothing stands behind it yet. -/
theorem Lined.endsLine_or (h : Lined isOpen ps s) {us vs : List Piece} (hps : ps = us ++ p :: vs)
    (htakes : p.takesLine = true) :
    EndsLine (Piece.texts us) p.text (Piece.texts vs) s ∨
      (isOpen = true ∧ ∃ front gap, s = front ++ (dropBlankEnd p.text.toList ++ gap) ∧ AllBlank gap ∧
        Laid (Piece.texts us) front ∧ Laid (Piece.texts vs) []) := by
  induction h generalizing vs with
  | nil => cases us <;> cases hps
  | @blank isOpen ps s c h hc ih =>
    rcases ih hps with hends | ⟨rfl, front, gap, rfl, hgap, hfront, hvs⟩
    · exact .inl (hends.append fun rest hrest => hrest.blank hc)
    -- the first line break behind the comment ends its line
    by_cases hbreak : c = '\n'
    · refine .inl ⟨front, gap, [], ?_, hgap, hfront, hvs⟩
      rw [hbreak, List.append_assoc, List.append_assoc]
    · refine .inr ⟨by simpa using hbreak, front, gap ++ [c], ?_, ?_, hfront, hvs⟩
      · rw [List.append_assoc, List.append_assoc]
      · exact hgap.append fun d hd => List.mem_singleton.mp hd ▸ hc
  | @text isOpen ps s h q hopen ih =>
    rcases List.eq_nil_or_concat vs with rfl | ⟨vs, q', rfl⟩
    -- the comment itself comes last
    · obtain ⟨rfl, hlast⟩ := List.append_inj' hps rfl
      obtain rfl : q = p := List.head_eq_of_cons_eq hlast
      refine .inr ⟨by rw [htakes, Bool.or_true], s, [], ?_, allBlank_nil, h.laid, .nil⟩
      rw [List.append_nil]
    · rw [List.concat_eq_append, ← List.cons_append, ← List.append_assoc] at hps
      obtain ⟨hfront, hlast⟩ := List.append_inj' hps rfl
      obtain rfl : q = q' := List.head_eq_of_cons_eq hlast
      rw [List.concat_eq_append, Piece.texts_append]
      rcases ih hfront with hends | ⟨rfl, front, gap, rfl, hgap, hfront, hvs⟩
      · exact .inl (hends.append fun rest hrest => hrest.text q.text)
      -- only a text of blanks comes in front of the break
      · rw [(hopen rfl).dropBlankEnd, List.append_nil]
        exact .inr ⟨rfl, front, gap, rfl, hgap, hfront, hvs.append (laid_absent (hopen rfl))⟩

theorem Lined.endsLine (h : Lined false ps s) {us vs : List Piece} (hps : ps = us ++ p :: vs)
    (htakes : p.takesLine = true) : EndsLine (Piece.texts us) p.text (Piece.texts vs) s :=
  (h.endsLine_or hps htakes).resolve_right fun hopen => Bool.false_ne_true hopen.1

/-! ## Sheets -/

namespace Sheet

/-- What is written on a sheet. -/
def text (sheet : Sheet) : List Char := sheet.written.reverse

/-- The pieces are on the sheet. If a line has to end, a break is due. -/
def Holds (ps : List Piece) (sheet : Sheet) : Prop :=
  ∃ isOpen, Lined isOpen ps sheet.text ∧ (isOpen = true → sheet.breakDue = true)

/-- Behind whatever is on the first sheet, the pieces are on the second one. -/
def Writes (ps : List Piece) (sheet sheet' : Sheet) : Prop :=
  ∀ qs, sheet.Holds qs → sheet'.Holds (qs ++ ps)

variable {sheet sheet' sheet'' : Sheet} {text : String}

theorem Holds.of_closed (h : Lined false ps sheet.text) : sheet.Holds ps := ⟨false, h, nofun⟩

theorem holds_empty : Sheet.empty.Holds [] := .of_closed .nil

theorem Writes.refl (sheet : Sheet) : Writes [] sheet sheet := by
  intro qs h
  rwa [List.append_nil]

theorem Writes.trans (h : Writes ps sheet sheet') (h' : Writes qs sheet' sheet'') :
    Writes (ps ++ qs) sheet sheet'' := by
  intro rs hrs
  rw [← List.append_assoc]
  exact h' _ (h rs hrs)

/-- Behind the pieces only separators are written. -/
theorem Writes.trans_nil (h : Writes ps sheet sheet') (h' : Writes [] sheet' sheet'') :
    Writes ps sheet sheet'' := by
  have htrans := h.trans h'
  rwa [List.append_nil] at htrans

/-- In front of the pieces only separators are written. -/
theorem Writes.nil_trans (h : Writes [] sheet sheet') (h' : Writes ps sheet' sheet'') :
    Writes ps sheet sheet'' := h.trans h'

/-- A text of blanks may be left out. -/
theorem writes_absent (h : AllBlank text.toList) : Writes [.code text] sheet sheet := by
  rintro qs ⟨isOpen, hlined, hdue⟩
  have htext := hlined.text (.code text) fun _ => h
  rw [Piece.code, h.dropBlankEnd, List.append_nil] at htext
  exact ⟨_, htext, fun hopen => hdue (by simpa [Piece.takesLine] using hopen)⟩

/-- A new line cuts the spaces at the end of the line before, and ends it. -/
theorem Holds.newline (h : sheet.Holds ps) : Lined false ps sheet.newline.text := by
  obtain ⟨isOpen, hlined, -⟩ := h
  have hspace : ∀ c : Char, (c == ' ') = true → isBlank c = true := by
    intro c hc
    rw [beq_iff_eq.mp hc]
    rfl
  obtain ⟨isOpen', hkept, -⟩ := hlined.dropWhileEnd hspace
  rw [Text.dropWhileEnd, Sheet.text, List.reverse_reverse] at hkept
  have hindent : AllBlank (List.replicate (2 * sheet.indent) ' ') := fun c hc => by
    rw [List.eq_of_mem_replicate hc]
    rfl
  have hbroken : Lined false ps
      (if (sheet.written.dropWhile (· == ' ')).isEmpty then sheet.written.dropWhile (· == ' ')
        else '\n' :: sheet.written.dropWhile (· == ' ')).reverse := by
    split
    -- at the start of the text no break is written, but there is no line to end either
    · next hempty =>
      rw [List.isEmpty_iff.mp hempty] at hkept ⊢
      rwa [hkept.closed_of_allBlank allBlank_nil] at hkept
    · rw [List.reverse_cons]
      exact hkept.break
  have happend := hbroken.append (lined_blanks hindent)
  rw [List.append_nil] at happend
  rw [Sheet.text, Sheet.newline]
  dsimp only
  rwa [List.reverse_append, List.reverse_replicate]

theorem Holds.breakIfDue (h : sheet.Holds ps) : Lined false ps sheet.breakIfDue.text := by
  unfold Sheet.breakIfDue
  split
  · exact h.newline
  · next hdue =>
    obtain ⟨isOpen, hlined, himp⟩ := h
    rwa [Bool.eq_false_iff.mpr fun hopen => hdue (himp hopen)] at hlined

/-- What is put on a sheet on which no line has to end stands behind what is there. -/
theorem lined_put (h : Lined false qs sheet.text) (hs : Lined isOpen ps s) :
    Lined isOpen (qs ++ ps) (sheet.put s).text := by
  rw [Sheet.text, put, List.reverse_append, List.reverse_reverse]
  exact h.append hs

theorem lined_space (h : Lined false ps sheet.text) : Lined false ps (sheet.put [' ']).text := by
  have hspace : AllBlank [' '] := fun c hc => by
    rw [List.mem_singleton.mp hc]
    rfl
  have hput := lined_put h (lined_blanks hspace)
  rwa [List.append_nil] at hput

/-- **A lexeme is written behind separators**, the break among them that is due. -/
theorem Holds.lexeme (h : sheet.Holds qs) (htext : Lined isOpen ps text.toList) :
    Lined isOpen (qs ++ ps) (sheet.lexeme text).text := by
  unfold Sheet.lexeme
  dsimp only
  split
  · exact lined_put (lined_space h.breakIfDue) htext
  · exact lined_put h.breakIfDue htext

theorem Holds.raw (h : sheet.Holds qs) (htext : Lined isOpen ps text.toList) :
    Lined isOpen (qs ++ ps) (sheet.raw text).text := by
  unfold Sheet.raw
  dsimp only
  split
  · exact lined_put (lined_space h.breakIfDue) htext
  · exact lined_put h.breakIfDue htext

theorem writes_lexeme (sheet : Sheet) (h : Lined false ps text.toList) :
    Writes ps sheet (sheet.lexeme text) := fun _ hqs => .of_closed (hqs.lexeme h)

theorem writes_raw (sheet : Sheet) (h : Lined false ps text.toList) :
    Writes ps sheet (sheet.raw text) := fun _ hqs => .of_closed (hqs.raw h)

theorem writes_newline (sheet : Sheet) : Writes [] sheet sheet.newline := by
  intro qs hqs
  rw [List.append_nil]
  exact .of_closed hqs.newline

theorem writes_dueSpace (sheet : Sheet) : Writes [] sheet sheet.dueSpace := Writes.refl sheet

theorem writes_indented (sheet : Sheet) : Writes [] sheet sheet.indented := Writes.refl sheet

theorem writes_outdented (sheet : Sheet) : Writes [] sheet sheet.outdented := Writes.refl sheet

/-- **What is written is there with its ink.** -/
theorem Writes.ink (h : Writes ps sheet sheet') :
    Print.ink sheet'.text = Print.ink sheet.text ++ inkOfTexts (Piece.texts ps) := by
  have hsheet : Lined false [.code (String.ofList sheet.text)] sheet.text := by
    have htext := lined_code (String.ofList sheet.text)
    rwa [String.toList_ofList] at htext
  obtain ⟨isOpen, hlined, -⟩ := h _ (.of_closed hsheet)
  rw [hlined.laid.ink, Piece.texts_append, inkOfTexts_append, ← hsheet.laid.ink]

/-- The finished text is what is written, but for blanks at the end. -/
theorem Holds.finish (h : sheet.Holds ps) : Lined false ps sheet.finish.toList := by
  obtain ⟨isOpen, hlined, -⟩ := h
  obtain ⟨isOpen', hcut, -⟩ := hlined.dropWhileEnd (q := isBlank) fun _ hc => hc
  rw [Text.dropWhileEnd, Sheet.text, List.reverse_reverse] at hcut
  rw [Sheet.finish, String.toList_ofList]
  exact hcut.break

end Sheet

theorem writes_leaf (parent : String) (kind : Kind) (text : String) (sheet : Sheet) :
    sheet.Writes [.code text] (leaf parent kind text sheet) := by
  have hlexeme : ∀ s : Sheet, s.Writes [.code text] (s.lexeme text) := fun s =>
    s.writes_lexeme (lined_code text)
  have hspaced : ∀ s : Sheet, s.Writes [.code text] (s.lexeme text).dueSpace := fun s =>
    (hlexeme s).trans_nil (Sheet.writes_dueSpace _)
  unfold leaf
  split
  · exact hlexeme sheet
  split
  · exact sheet.writes_dueSpace.nil_trans (hspaced _)
  split
  · exact hspaced sheet
  split
  · exact hspaced sheet
  · exact hlexeme sheet

/-- **Behind a line comment a break is due.** -/
theorem writes_comment (p : Piece) (sheet : Sheet) : sheet.Writes [p] (comment p.text sheet) := by
  intro qs hqs
  obtain ⟨isOpen, htext, htakes⟩ := lined_text p
  have hlexeme := hqs.lexeme htext
  -- the printer looks at the text alone, so it makes a break due at least where a line has to end
  unfold comment
  dsimp only
  split
  · exact ⟨isOpen, hlexeme, fun _ => rfl⟩
  · next hline =>
    refine ⟨isOpen, hlexeme, fun hopen => absurd ?_ hline⟩
    exact beq_iff_eq.mpr (Piece.take_of_takesLine (htakes hopen))

/-- The gap in front of a child of an element is blank. -/
theorem lined_markupGap {leading : String} (h : ink leading.toList = []) (p q : Bool) :
    Lined false [] (markupGap leading p q).toList := by
  unfold markupGap
  split
  · exact lined_blanks (allBlank_of_ink h)
  split
  · exact lined_blanks fun c hc => by rw [List.mem_singleton.mp hc]; rfl
  · exact .nil

end MarkupEdit.Print
