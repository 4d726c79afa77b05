import MarkupEdit.Proofs.Edit.StyleEffect

/-!
# Inline styles are read as they were written

Writing entries as the inline style of an element always succeeds. A name with small words between its
hyphens is a key that is read with the same hyphens, so that the entries with such names are read as they
were written: all of them, in order, texts as texts and numbers as numbers.

* `readEntry_eq_self`: **an entry with a hyphenated name is read as it was written.**
* `exists_editInlineStyle`: an inline style can be written.
* `currentStyle_of_editInlineStyle`: **an inline style is read as it was written.**
-/

namespace MarkupEdit.Edit

open MarkupEdit.Text MarkupEdit.Tree MarkupEdit.Style

variable {tree : SourceTree} {path : Path} {element tag : Node} {entries : List StyleEntry}

/-- **An entry with a hyphenated name is read as it was written.** -/
theorem readEntry_eq_self {entry : StyleEntry} (h : IsHyphenated entry.1.toList) :
    readEntry entry = entry := by
  have hname : kebabCase (camelCase entry.1) = entry.1 := by
    rw [kebabCase, camelCase, String.toList_ofList, kebabChars_camelChars h, String.ofList_toList]
  rw [readEntry, hname]

theorem map_readEntry_eq_self (h : ∀ entry ∈ entries, IsHyphenated entry.1.toList) :
    entries.map readEntry = entries := by
  have hsame : ∀ entry ∈ entries, readEntry entry = entry := by
    intro entry hentry
    exact readEntry_eq_self (h entry hentry)
  rw [List.map_congr_left hsame, List.map_id']

/-- Any entries can be written as the inline style of an element. -/
theorem exists_editInlineStyle (helement : elementAt tree path = .ok element)
    (before after : List StyleEntry) :
    ∃ edited changes, editInlineStyle tree path (some (before, after)) = .ok (edited, changes) := by
  obtain ⟨edited, hplaced⟩ := exists_placed helement (element.updateOpening (withStyle after))
  have hedit : editInlineStyle tree path (some (before, after)) =
      .ok (edited, [styleReport (attributePath path styleAttribute)
        (element.opening?.bind (·.attributeIndex? styleAttribute)).isSome before after]) := by
    rw [editInlineStyle, helement]
    show (placed tree path (element.updateOpening (withStyle after)) >>= fun _ => _) = _
    rw [hplaced]
    rfl
  exact ⟨edited, _, hedit⟩

/-- **An inline style is read as it was written**, if the names of its entries are hyphenated. For an
empty one there is to be one attribute of the inline style at most. -/
theorem currentStyle_of_editInlineStyle (helement : elementAt tree path = .ok element)
    (hopening : element.opening? = some tag) (before : List StyleEntry)
    (hnames : ∀ entry ∈ entries, IsHyphenated entry.1.toList)
    (honce : entries = [] → (tag.children.filter (Node.isAttribute styleAttribute)).length ≤ 1) :
    ∃ edited changes element' tag',
      editInlineStyle tree path (some (before, entries)) = .ok (edited, changes) ∧
      elementAt edited path = .ok element' ∧ element'.opening? = some tag' ∧
      currentStyle tag' = .ok entries := by
  obtain ⟨edited, changes, hedit⟩ := exists_editInlineStyle helement before entries
  obtain ⟨element', tag', helement', hopening', hassigned⟩ :=
    inline_assigned helement hopening hedit
  have hread := currentStyle_assigned hassigned honce
  rw [map_readEntry_eq_self hnames] at hread
  exact ⟨edited, changes, element', tag', hedit, helement', hopening', hread⟩

/-- Entries of all kinds of names, with a text that needs escapes. -/
def sampleEntries : List StyleEntry :=
  [("-webkit-line-clamp", .number "2"), ("--gap-1", .text "4px"), ("content", .text "\"\\\n\u2028'")]

theorem currentStyle_of_editInlineStyle_bare :
    (bareTree [quotedStyle "a: b"]).toSource = "<p style=\"a: b\"/>;" ∧
      (∀ entry ∈ sampleEntries, IsHyphenated entry.1.toList) ∧
      ∃ edited changes element' tag',
        editInlineStyle (bareTree [quotedStyle "a: b"]) [0, 0] (some ([], sampleEntries)) =
          .ok (edited, changes) ∧
        elementAt edited [0, 0] = .ok element' ∧ element'.opening? = some tag' ∧
        currentStyle tag' = .ok sampleEntries := by
  have hnames : ∀ entry ∈ sampleEntries, IsHyphenated entry.1.toList := by decide +kernel
  have helement : elementAt (bareTree [quotedStyle "a: b"]) [0, 0] =
      .ok (bareElement [quotedStyle "a: b"]) := rfl
  refine ⟨by decide +kernel, hnames, ?_⟩
  exact currentStyle_of_editInlineStyle helement rfl [] hnames (fun h => nomatch h)

end MarkupEdit.Edit
