import MarkupEdit.Proofs.Edit.StyleEntries
import MarkupEdit.Proofs.Style.DeclarationTexts

/-!
# Inline styles as text

A change of an inline style tells the style as a text, each declaration in writing and a semicolon and a
space between them. Each piece of that text has the marks of the piece that its declaration was read from,
so that the text is cut where it was put together, also if something is left open at its end.

* `writtenPieces`: what is between the semicolons of a written style.
* `pieces_writtenPieces`: **a written style is cut into what was written.**
* `parseInline_styleText`: the text of a style that was read is read again.
-/

namespace MarkupEdit.Style

open MarkupEdit.Text MarkupEdit.Edit

/-- The entry of an inline style that a declaration makes. -/
def Declaration.entry (d : Declaration) : StyleEntry := (d.property, .text d.value)

variable {declarations : List Declaration} {d : Declaration} {pieces : List (List Char)}

/-- What is between the semicolons of a written style: all but the first have a space in front. -/
def writtenPieces : List Declaration → List (List Char)
  | [] => []
  | d :: rest => d.written :: rest.map fun d => ' ' :: d.written

/-- What stands in front of the first text stands in front of the whole. -/
theorem intercalate_cons_append (sep s t : List Char) (rest : List (List Char)) :
    sep.intercalate ((s ++ t) :: rest) = s ++ sep.intercalate (t :: rest) := by
  cases rest with
  | nil => rw [List.intercalate_singleton, List.intercalate_singleton]
  | cons next rest =>
    rw [List.intercalate_cons_cons, List.intercalate_cons_cons]
    simp only [List.append_assoc]

/-- **A written style** is its pieces with semicolons between them. -/
theorem toList_styleText (declarations : List Declaration) :
    (styleText (declarations.map Declaration.entry)).toList =
      [';'].intercalate (writtenPieces declarations) := by
  have hentry : ∀ d : Declaration, (d.property ++ ": " ++ d.value).toList = d.written := by
    intro d
    rw [String.toList_append, String.toList_append, List.append_assoc]
    rfl
  have hspaced : ∀ (s : List Char) (rest : List (List Char)),
      [';', ' '].intercalate (s :: rest) = [';'].intercalate (s :: rest.map (List.cons ' ')) := by
    intro s rest
    induction rest generalizing s with
    | nil => rfl
    | cons t rest ih =>
      have hfront : [';'].intercalate ((' ' :: t) :: rest.map (List.cons ' ')) =
          [' '] ++ [';'].intercalate (t :: rest.map (List.cons ' ')) :=
        intercalate_cons_append [';'] [' '] t _
      rw [List.intercalate_cons_cons, List.map_cons, List.intercalate_cons_cons, ih, hfront,
        List.append_assoc, List.append_assoc]
      rfl
  have htexts : ((declarations.map Declaration.entry).map
      (fun entry => entry.1 ++ ": " ++ entry.2.shown)).map String.toList =
        declarations.map Declaration.written := by
    rw [List.map_map, List.map_map]
    exact List.map_congr_left fun d _ => hentry d
  rw [styleText, String.toList_intercalate, htexts]
  cases declarations with
  | nil => rfl
  | cons d rest =>
    rw [writtenPieces, List.map_cons]
    refine (hspaced _ _).trans ?_
    rw [List.map_map]
    rfl

/-- **A written style is cut into what was written.** -/
theorem pieces_writtenPieces (hpieces : Nesting.Pieces .outside pieces)
    (hread : List.Forall₂ (fun s d => Declaration.parseChars s = .ok d) pieces declarations) :
    Nesting.Pieces .outside (writtenPieces declarations) := by
  refine hpieces.congr Nesting.proper_outside ?_
  have hmarks : ∀ x, AllBlank x → ∀ s d, Declaration.parseChars s = .ok d →
      s.filter isMark = (x ++ d.written).filter isMark :=
    fun x hx s d h => (Declaration.filter_isMark_written h hx).symm
  have hspace : AllBlank [' '] := List.forall_mem_singleton.mpr (by decide)
  cases hread with
  | nil => exact .nil
  | cons hfirst hrest =>
    refine .cons (hmarks [] allBlank_nil _ _ hfirst) ?_
    exact List.forall₂_map_right_iff.mpr (hrest.imp (hmarks [' '] hspace))

/-- Each of its pieces is read as the declaration in it. -/
theorem mapM_writtenPieces (h : ∀ d ∈ declarations, d.Normal) :
    (writtenPieces declarations).mapM Declaration.parseChars = .ok declarations := by
  have hspace : AllBlank [' '] := List.forall_mem_singleton.mpr (by decide)
  cases declarations with
  | nil => rfl
  | cons d rest =>
    have hfirst : Declaration.parseChars d.written = .ok d :=
      (h d List.mem_cons_self).parseChars_written allBlank_nil
    have hrest : (rest.map fun d => ' ' :: d.written).mapM Declaration.parseChars = .ok rest := by
      rw [List.mapM_map]
      refine (mapM_eq_ok (g := id) fun d hd => ?_).trans (by rw [List.map_id])
      exact (h d (List.mem_cons_of_mem _ hd)).parseChars_written hspace
    rw [writtenPieces, List.mapM_cons, hfirst, hrest]
    rfl

/-- Declarations that are read are in their normal form. -/
theorem normal_of_read
    (hread : List.Forall₂ (fun s d => Declaration.parseChars s = .ok d) pieces declarations) :
    ∀ d ∈ declarations, d.Normal := by
  induction hread with
  | nil => exact fun d hd => absurd hd List.not_mem_nil
  | cons h _ ih => exact List.forall_mem_cons.mpr ⟨Declaration.normal_of_parseChars h, ih⟩

/-- Pieces that are read are not blank. -/
theorem not_blank_of_read
    (hread : List.Forall₂ (fun s d => Declaration.parseChars s = .ok d) pieces declarations) :
    ∀ piece ∈ pieces, (!piece.all isBlank) = true := by
  induction hread with
  | nil => exact fun piece hpiece => absurd hpiece List.not_mem_nil
  | cons h _ ih =>
    refine List.forall_mem_cons.mpr ⟨?_, ih⟩
    rw [Declaration.not_blank_of_parseChars h]
    rfl

/-- **The text of an inline style is read again as it was read.** -/
theorem parseInline_styleText {text : String} (h : parseInline text = .ok declarations) :
    textEntries text = .ok (declarations.map Declaration.entry) ∧
      parseInline (styleText (declarations.map Declaration.entry)) = .ok declarations := by
  constructor
  · rw [textEntries, h]
    rfl
  have hcut := (declarationTexts_eq_iff (n := .outside) (s := text.toList)).mp rfl |>.1
  have hkept : ((declarationTexts .outside text.toList).filter
      (fun piece => !piece.all isBlank)).Sublist (declarationTexts .outside text.toList) :=
    List.filter_sublist
  unfold parseInline at h
  have hread := forall₂_of_mapM h
  by_cases hnil : declarations = []
  · rw [hnil]
    rfl
  -- the pieces that are kept are pieces without the others, and so are those that are written
  have hpieces : Nesting.Pieces .outside (writtenPieces declarations) := by
    refine pieces_writtenPieces (hcut.sublist hkept fun hempty => hnil ?_) hread
    rw [hempty] at hread
    exact List.forall₂_nil_left_iff.mp hread
  have hagain := mapM_writtenPieces (normal_of_read hread)
  have hkeep := List.filter_eq_self.mpr (not_blank_of_read (forall₂_of_mapM hagain))
  rw [parseInline, toList_styleText, declarationTexts_eq_iff.mpr ⟨hpieces, rfl⟩, hkeep, hagain]

/-- Declarations with a parenthesis too many, a semicolon inside parentheses, and both a quote and a
parenthesis that are left open. -/
def openDeclarations : List Declaration :=
  [⟨"-color", "a:b)"⟩, ⟨"--x", "url(a;b('c)'))"⟩, ⟨"content", "(\"x;"⟩]

theorem parseInline_styleText_open :
    parseInline "Color : a:b) ;; --X:url(a;b('c)')); ;content:(\"x; " = .ok openDeclarations ∧
      styleText (openDeclarations.map Declaration.entry) =
        "-color: a:b); --x: url(a;b('c)')); content: (\"x;" ∧
      parseInline (styleText (openDeclarations.map Declaration.entry)) = .ok openDeclarations := by
  have hread : parseInline "Color : a:b) ;; --X:url(a;b('c)')); ;content:(\"x; " =
      .ok openDeclarations := by rfl
  exact ⟨hread, by decide, (parseInline_styleText hread).2⟩

end MarkupEdit.Style
