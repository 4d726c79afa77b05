import Mathlib.Data.List.Forall2
import MarkupEdit.Proofs.Style.Spelling
import MarkupEdit.Proofs.Text.Trimming

/-!
# Declarations in a text

A semicolon ends a declaration where no quote and no parenthesis is open. So the declarations of a text
are the pieces that it has with these semicolons between them, and there is one way only to cut it so.
Where quotes and parentheses are open is told by the marks alone. Names and values keep their marks when
they are trimmed, and names when they get hyphens, so that a declaration that is written as it was read
can stand where the text stood that it was read from.

* `Nesting.Pieces`: texts that make up a text with semicolons between them.
* `declarationTexts_eq_iff`: **a text is cut at the semicolons that end declarations, and nowhere else.**
* `Nesting.Pieces.congr`: pieces with the same marks are cut at the same places.
* `Declaration.Normal`: a declaration as it is read; `parseChars_written`: **it is read as it is written.**
* `filter_isMark_written`: a declaration has the marks of the text that it was read from.
-/

namespace MarkupEdit.Style

open MarkupEdit.Text

variable {n : Nesting} {c : Char} {s t x : List Char} {piece : List Char}
  {pieces pieces' : List (List Char)}

/-! ## Pieces -/

namespace Nesting

/-- The nesting behind a text. -/
def after (n : Nesting) (s : List Char) : Nesting := s.foldl next n

/-- No declaration ends in the text. -/
def Unbroken (n : Nesting) : List Char → Prop
  | [] => True
  | c :: s => n.ends c = false ∧ (n.next c).Unbroken s

/-- Pieces of a text that has semicolons between them: no declaration ends in a piece, and behind each but
the last nothing is open. -/
inductive Pieces : Nesting → List (List Char) → Prop where
  | last {n : Nesting} {piece : List Char} (h : n.Unbroken piece) : Pieces n [piece]
  | cons {n : Nesting} {piece : List Char} {pieces : List (List Char)} (h : n.Unbroken piece)
      (hclosed : n.after piece = outside) (hrest : Pieces outside pieces) :
      Pieces n (piece :: pieces)

/-- Where a declaration ends, nothing is open. -/
theorem ends_iff : n.ends c = true ↔ c = ';' ∧ n = outside := by
  obtain ⟨depth, quote⟩ := n
  simp only [ends, outside, Bool.and_eq_true, beq_iff_eq, Option.isNone_iff_eq_none, mk.injEq]
  tauto

theorem Pieces.cons_char (h : n.ends c = false) (hpieces : Pieces (n.next c) (piece :: pieces)) :
    Pieces n ((c :: piece) :: pieces) := by
  cases hpieces with
  | last hpiece => exact .last ⟨h, hpiece⟩
  | cons hpiece hclosed hrest => exact .cons ⟨h, hpiece⟩ hclosed hrest

/-- Some pieces of a text are pieces too. -/
theorem Pieces.sublist {kept : List (List Char)} (h : Pieces outside pieces)
    (hkept : kept.Sublist pieces) (hne : kept ≠ []) : Pieces outside kept := by
  induction hkept with
  | slnil => exact absurd rfl hne
  | cons piece hkept ih =>
    cases h with
    | last => exact absurd (List.sublist_nil.mp hkept) hne
    | cons _ _ hrest => exact ih hrest hne
  | @cons_cons kept rest piece hkept ih =>
    cases h with
    | last h => rw [List.sublist_nil.mp hkept]; exact .last h
    | cons h hclosed hrest =>
      by_cases hnil : kept = []
      · rw [hnil]
        exact .last h
      · exact .cons h hclosed (ih hrest hnil)

end Nesting

open Nesting

theorem declarationTexts_ne_nil (n : Nesting) (s : List Char) : declarationTexts n s ≠ [] := by
  cases s with
  | nil => exact List.cons_ne_nil _ _
  | cons c s =>
    rw [declarationTexts]
    split
    · exact List.cons_ne_nil _ _
    · split <;> exact List.cons_ne_nil _ _

theorem declarationTexts_cons_of_ends (h : n.ends c = true) (s : List Char) :
    declarationTexts n (c :: s) = [] :: declarationTexts n s := by
  rw [declarationTexts, if_pos h]

theorem declarationTexts_cons_of_not_ends (h : n.ends c = false)
    (hs : declarationTexts (n.next c) s = piece :: pieces) :
    declarationTexts n (c :: s) = (c :: piece) :: pieces := by
  rw [declarationTexts, if_neg (Bool.eq_false_iff.mp h), hs]

/-- **The pieces that a text is cut into.** -/
theorem pieces_declarationTexts (n : Nesting) (s : List Char) :
    Pieces n (declarationTexts n s) ∧ [';'].intercalate (declarationTexts n s) = s := by
  induction s generalizing n with
  | nil => exact ⟨.last trivial, rfl⟩
  | cons c s ih =>
    cases h : n.ends c with
    | true =>
      obtain ⟨rfl, rfl⟩ := ends_iff.mp h
      obtain ⟨hpieces, hs⟩ := ih outside
      rw [declarationTexts_cons_of_ends h]
      refine ⟨.cons trivial rfl hpieces, ?_⟩
      rw [List.intercalate_cons_of_ne_nil (declarationTexts_ne_nil _ _), hs]
      rfl
    | false =>
      obtain ⟨piece, pieces, hcut⟩ :=
        List.exists_cons_of_ne_nil (declarationTexts_ne_nil (n.next c) s)
      obtain ⟨hpieces, hs⟩ := ih (n.next c)
      rw [hcut] at hpieces hs
      rw [declarationTexts_cons_of_not_ends h hcut]
      refine ⟨hpieces.cons_char h, ?_⟩
      rw [← hs]
      cases pieces with
      | nil => rw [List.intercalate_singleton, List.intercalate_singleton]
      | cons next pieces => rw [List.intercalate_cons_cons, List.intercalate_cons_cons]; rfl

theorem declarationTexts_of_unbroken (h : n.Unbroken s) : declarationTexts n s = [s] := by
  induction s generalizing n with
  | nil => rfl
  | cons c s ih => exact declarationTexts_cons_of_not_ends h.1 (ih h.2)

theorem declarationTexts_append (h : n.Unbroken s) (hclosed : n.after s = outside)
    (t : List Char) : declarationTexts n (s ++ ';' :: t) = s :: declarationTexts outside t := by
  induction s generalizing n with
  | nil =>
    cases hclosed
    exact declarationTexts_cons_of_ends (n := outside) rfl t
  | cons c s ih => exact declarationTexts_cons_of_not_ends h.1 (ih h.2 hclosed)

/-- Pieces are cut from the text that they make. -/
theorem declarationTexts_intercalate (h : Pieces n pieces) :
    declarationTexts n ([';'].intercalate pieces) = pieces := by
  induction h with
  | last h => rw [List.intercalate_singleton, declarationTexts_of_unbroken h]
  | @cons n piece pieces h hclosed hrest ih =>
    have hne : pieces ≠ [] := by cases hrest <;> exact List.cons_ne_nil _ _
    rw [List.intercalate_cons_of_ne_nil hne, List.append_assoc, List.singleton_append,
      declarationTexts_append h hclosed, ih]

/-- **A text is cut at the semicolons that end declarations, and nowhere else.** -/
theorem declarationTexts_eq_iff :
    declarationTexts n s = pieces ↔ Pieces n pieces ∧ [';'].intercalate pieces = s := by
  constructor
  · rintro rfl
    exact pieces_declarationTexts n s
  · rintro ⟨hpieces, rfl⟩
    exact declarationTexts_intercalate hpieces

/-! ## Marks -/

/-- The characters that the nesting depends on. -/
def isMark (c : Char) : Bool := ['"', '\'', '(', ')', ';'].contains c

theorem isBlank_of_isMark (h : isMark c = true) : isBlank c = false := by
  have hall : ['"', '\'', '(', ')', ';'].all (fun c => !isBlank c) = true := by decide
  simpa using List.all_eq_true.mp hall c (List.contains_iff_mem.mp h)

theorem isMark_eq_false_iff :
    isMark c = false ↔ c ≠ '"' ∧ c ≠ '\'' ∧ c ≠ '(' ∧ c ≠ ')' ∧ c ≠ ';' := by
  simp [isMark]

namespace Nesting

/-- What is open is a quote. -/
def Proper (n : Nesting) : Prop := ∀ quote, n.quote = some quote → isMark quote = true

theorem proper_outside : outside.Proper := fun _ h => nomatch h

theorem Proper.next (h : n.Proper) (c : Char) : (n.next c).Proper := by
  intro quote hquote
  unfold Nesting.next at hquote
  split at hquote
  · split at hquote
    · cases hquote
    · exact h quote hquote
  · next hnone =>
    split at hquote
    · next hc =>
      cases hquote
      rcases Bool.or_eq_true_iff.mp hc with hc | hc <;> rw [beq_iff_eq.mp hc] <;> rfl
    split at hquote
    · exact h quote hquote
    split at hquote
    · exact h quote hquote
    · exact h quote hquote

/-- What is no mark changes nothing. -/
theorem Proper.next_eq_self (h : n.Proper) (hc : isMark c = false) : n.next c = n := by
  obtain ⟨h₁, h₂, h₃, h₄, -⟩ := isMark_eq_false_iff.mp hc
  unfold Nesting.next
  split
  · next quote hquote =>
    have hne : c ≠ quote := fun heq => absurd (h quote hquote) (by rw [← heq, hc]; decide)
    rw [if_neg (by simpa using hne)]
  · rw [if_neg (by simp [h₁, h₂]), if_neg (by simpa using h₃), if_neg (by simpa using h₄)]

theorem ends_eq_false (hc : isMark c = false) (n : Nesting) : n.ends c = false := by
  rw [Bool.eq_false_iff]
  exact fun h => (isMark_eq_false_iff.mp hc).2.2.2.2 (ends_iff.mp h).1

theorem Proper.after_filter (h : n.Proper) (s : List Char) :
    n.after (s.filter isMark) = n.after s := by
  induction s generalizing n with
  | nil => rfl
  | cons c s ih =>
    cases hc : isMark c with
    | true =>
      rw [List.filter_cons_of_pos hc]
      exact ih (h.next c)
    | false =>
      rw [List.filter_cons_of_neg (Bool.eq_false_iff.mp hc), ih h]
      show n.after s = (n.next c).after s
      rw [h.next_eq_self hc]

theorem Proper.unbroken_filter_iff (h : n.Proper) (s : List Char) :
    n.Unbroken (s.filter isMark) ↔ n.Unbroken s := by
  induction s generalizing n with
  | nil => exact Iff.rfl
  | cons c s ih =>
    cases hc : isMark c with
    | true =>
      rw [List.filter_cons_of_pos hc]
      exact and_congr_right fun _ => ih (h.next c)
    | false =>
      rw [List.filter_cons_of_neg (Bool.eq_false_iff.mp hc), ih h]
      show n.Unbroken s ↔ n.ends c = false ∧ (n.next c).Unbroken s
      rw [h.next_eq_self hc, ends_eq_false hc]
      exact (and_iff_right rfl).symm

/-- **Texts with the marks of some pieces are pieces too.** -/
theorem Pieces.congr (h : Pieces n pieces) (hn : n.Proper)
    (hmarks : List.Forall₂ (fun s t => s.filter isMark = t.filter isMark) pieces pieces') :
    Pieces n pieces' := by
  induction h generalizing pieces' with
  | @last n piece h =>
    obtain ⟨piece', rest, hpiece, hrest, rfl⟩ := List.forall₂_cons_left_iff.mp hmarks
    rw [List.forall₂_nil_left_iff.mp hrest]
    refine .last ?_
    rwa [← hn.unbroken_filter_iff, ← hpiece, hn.unbroken_filter_iff]
  | @cons n piece pieces h hclosed _ ih =>
    obtain ⟨piece', rest, hpiece, hrest, rfl⟩ := List.forall₂_cons_left_iff.mp hmarks
    refine .cons ?_ ?_ (ih proper_outside hrest)
    · rwa [← hn.unbroken_filter_iff, ← hpiece, hn.unbroken_filter_iff]
    · rwa [← hn.after_filter, ← hpiece, hn.after_filter]

end Nesting

/-! ## Names and their marks -/

/-- A name with hyphens has the marks of the name. -/
theorem filter_isMark_kebabChars (s : List Char) :
    (kebabChars s).filter isMark = s.filter isMark := by
  obtain ⟨f, hs, hf⟩ := exists_kebabChars_eq_flatMap s
  have hletter : ∀ c, (f c).filter isMark = [c].filter isMark := by
    intro c
    rcases hf c with h | ⟨hc, h | h⟩
    · rw [h]
    · rw [h]
      exact forall_isUpper (p := fun c => [c.toLower].filter isMark = [c].filter isMark)
        (by decide) hc
    · rw [h]
      exact forall_isUpper (p := fun c => ['-', c.toLower].filter isMark = [c].filter isMark)
        (by decide) hc
  rw [hs]
  clear hs
  induction s with
  | nil => rfl
  | cons c s ih =>
    rw [List.flatMap_cons, List.filter_append, hletter, ih, ← List.filter_append]
    rfl

/-- Blanks are no marks. -/
theorem filter_isMark_of_allBlank (h : AllBlank x) : x.filter isMark = [] := by
  refine List.filter_eq_nil_iff.mpr fun c hc hmark => ?_
  have hblank := h c hc
  rw [isBlank_of_isMark hmark] at hblank
  cases hblank

theorem filter_isMark_trim (s : List Char) : (trim s).filter isMark = s.filter isMark := by
  obtain ⟨x, hx, hs⟩ := exists_blank_dropBlank s
  obtain ⟨y, hy, ht⟩ := exists_dropBlankEnd_blank (dropBlank s)
  have hdrop : (dropBlank s).filter isMark = s.filter isMark := by
    conv_rhs => rw [hs, List.filter_append, filter_isMark_of_allBlank hx, List.nil_append]
  rw [← hdrop, trim]
  conv_rhs => rw [ht, List.filter_append, filter_isMark_of_allBlank hy, List.append_nil]

theorem colon_not_mem_kebabChars (h : ':' ∉ s) : ':' ∉ kebabChars s := by
  obtain ⟨f, hs, hf⟩ := exists_kebabChars_eq_flatMap s
  rw [hs, List.mem_flatMap]
  rintro ⟨c, hc, hmem⟩
  have hlower : c.isUpper = true → ':' ≠ c.toLower :=
    forall_isUpper (p := fun c => ':' ≠ c.toLower) (by decide)
  rcases hf c with hletter | ⟨hupper, hletter | hletter⟩ <;> rw [hletter] at hmem
  · rw [List.mem_singleton] at hmem
    exact h (hmem ▸ hc)
  · exact hlower hupper (List.mem_singleton.mp hmem)
  · rcases List.mem_cons.mp hmem with hcolon | hmem
    · cases hcolon
    · exact hlower hupper (List.mem_singleton.mp hmem)

/-! ## Names and their ends -/

/-- The name of a character that is not blank holds no blanks, and something. -/
theorem not_blank_of_letter {f : Char → List Char}
    (hf : f c = [c] ∨ c.isUpper = true ∧ (f c = [c.toLower] ∨ f c = ['-', c.toLower]))
    (hc : isBlank c = false) : f c ≠ [] ∧ ∀ d ∈ f c, isBlank d = false := by
  have hlower : c.isUpper = true → isBlank c.toLower = false :=
    forall_isUpper (p := fun c => isBlank c.toLower = false) (by decide)
  rcases hf with h | ⟨hupper, h | h⟩ <;> rw [h]
  · exact ⟨List.cons_ne_nil _ _, List.forall_mem_singleton.mpr hc⟩
  · exact ⟨List.cons_ne_nil _ _, List.forall_mem_singleton.mpr (hlower hupper)⟩
  · exact ⟨List.cons_ne_nil _ _, List.forall_mem_cons.mpr ⟨by decide,
      List.forall_mem_singleton.mpr (hlower hupper)⟩⟩

/-- **A trimmed name is trimmed with hyphens too.** -/
theorem trim_kebabChars (h : trim s = s) : trim (kebabChars s) = kebabChars s := by
  obtain ⟨f, hs, hf⟩ := exists_kebabChars_eq_flatMap s
  obtain ⟨hhead, hlast⟩ := trim_eq_self_iff.mp h
  rw [hs, trim_eq_self_iff]
  constructor
  · intro d hd
    cases s with
    | nil => cases hd
    | cons c s =>
      obtain ⟨hne, hblank⟩ := not_blank_of_letter (hf c) (hhead c rfl)
      rw [List.flatMap_cons, List.head?_append_of_ne_nil _ hne] at hd
      exact hblank d (List.mem_of_mem_head? hd)
  · intro d hd
    rcases s.eq_nil_or_concat' with rfl | ⟨s, c, rfl⟩
    · cases hd
    · obtain ⟨hne, hblank⟩ := not_blank_of_letter (hf c) (hlast c List.getLast?_concat)
      rw [List.flatMap_append, List.flatMap_singleton, List.getLast?_append_of_ne_nil _ hne] at hd
      exact hblank d (List.mem_of_mem_getLast? hd)

/-! ## One declaration -/

namespace Declaration

/-- A declaration in writing. -/
def written (d : Declaration) : List Char := d.property.toList ++ ':' :: ' ' :: d.value.toList

/-- A declaration as it is read: there is a name without a colon and with hyphens, and blanks are at no
end of the name or the value. -/
structure Normal (d : Declaration) : Prop where
  named : ¬ AllBlank d.property.toList
  no_colon : ':' ∉ d.property.toList
  kebab : kebabChars d.property.toList = d.property.toList
  trim_property : trim d.property.toList = d.property.toList
  trim_value : trim d.value.toList = d.value.toList

variable {d : Declaration}

/-- **A declaration is read** from a name, the first colon and a value. -/
theorem parseChars_eq_ok_iff : parseChars s = .ok d ↔
    ∃ name value, s = name ++ ':' :: value ∧ ':' ∉ name ∧ ¬ AllBlank name ∧
      d.property.toList = kebabChars (trim name) ∧ d.value.toList = trim value := by
  have hmake : ∀ name value, make (String.ofList name) (String.ofList value) = d ↔
      d.property.toList = kebabChars (trim name) ∧ d.value.toList = trim value := by
    intro name value
    have htext : ∀ (u : List Char) (w : String), String.ofList u = w ↔ w.toList = u := by
      intro u w
      rw [← String.toList_inj, String.toList_ofList, eq_comm]
    obtain ⟨property, text⟩ := d
    rw [make, mk.injEq, kebabCase, trimmed, trimmed, String.toList_ofList, String.toList_ofList,
      String.toList_ofList, htext, htext]
  have hblank : ∀ name : List Char, name.all isBlank = true ↔ AllBlank name := fun _ =>
    List.all_eq_true
  unfold parseChars
  constructor
  · intro h
    split at h
    · cases h
    next name value hcut =>
    obtain ⟨hs, hcolon⟩ := splitFirst?_eq_some_iff.mp hcut
    split at h
    · cases h
    next hnamed =>
    exact ⟨name, value, hs, hcolon, fun hall => hnamed ((hblank name).mpr hall),
      (hmake name value).mp (Except.ok.inj h)⟩
  · rintro ⟨name, value, hs, hcolon, hnamed, hread⟩
    have hcut := splitFirst?_eq_some_iff.mpr ⟨hs, hcolon⟩
    rw [hcut]
    dsimp only
    rw [if_neg fun hall => hnamed ((hblank name).mp hall), (hmake name value).mpr hread]

/-- **What is read is in its normal form.** -/
theorem normal_of_parseChars (h : parseChars s = .ok d) : d.Normal := by
  obtain ⟨name, value, -, hcolon, hnamed, hproperty, hvalue⟩ := parseChars_eq_ok_iff.mp h
  have htrim : trim d.property.toList = d.property.toList := by
    rw [hproperty, trim_kebabChars (trim_trim name)]
  constructor
  · intro hblank
    have hnil : kebabChars (trim name) = [] := by
      rw [← hproperty, ← htrim, trim_eq_nil_iff.mpr hblank]
    exact hnamed (trim_eq_nil_iff.mp (kebabChars_eq_nil hnil))
  · rw [hproperty]
    exact colon_not_mem_kebabChars fun hmem => hcolon ((trim_sublist name).mem hmem)
  · rw [hproperty, kebabChars_kebabChars]
  · exact htrim
  · rw [hvalue, trim_trim]

/-- **A normal form is read as it is written**, behind blanks too. -/
theorem Normal.parseChars_written (h : d.Normal) (hx : AllBlank x) :
    parseChars (x ++ d.written) = .ok d := by
  have hcolon : ':' ∉ x := fun hmem => absurd (hx ':' hmem) (by decide)
  have hvalue : trim (' ' :: d.value.toList) = d.value.toList := by
    have hblank : AllBlank [' '] := List.forall_mem_singleton.mpr (by decide)
    exact (trim_blank_append hblank _).trans h.trim_value
  refine parseChars_eq_ok_iff.mpr ⟨x ++ d.property.toList, ' ' :: d.value.toList, ?_, ?_, ?_, ?_,
    hvalue.symm⟩
  · rw [written, List.append_assoc]
  · rw [List.mem_append, not_or]
    exact ⟨hcolon, h.no_colon⟩
  · exact fun hall => h.named fun c hc => hall c (List.mem_append_right x hc)
  · rw [trim_blank_append hx, h.trim_property, h.kebab]

/-- **A declaration in writing has the marks of the text that it was read from.** -/
theorem filter_isMark_written (h : parseChars s = .ok d) (hx : AllBlank x) :
    (x ++ d.written).filter isMark = s.filter isMark := by
  obtain ⟨name, value, rfl, -, -, hproperty, hvalue⟩ := parseChars_eq_ok_iff.mp h
  rw [written, hproperty, hvalue, List.filter_append, filter_isMark_of_allBlank hx,
    List.nil_append, List.filter_append, filter_isMark_kebabChars, filter_isMark_trim,
    List.filter_cons_of_neg (by decide), List.filter_cons_of_neg (by decide), filter_isMark_trim,
    List.filter_append, List.filter_cons_of_neg (by decide)]

/-- What is read is not blank. -/
theorem not_blank_of_parseChars (h : parseChars s = .ok d) : s.all isBlank = false := by
  obtain ⟨name, value, rfl, -⟩ := parseChars_eq_ok_iff.mp h
  rw [List.all_append, List.all_cons]
  have hcolon : isBlank ':' = false := by decide
  rw [hcolon, Bool.false_and, Bool.and_false]

end Declaration

end MarkupEdit.Style
