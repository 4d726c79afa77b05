import MarkupEdit.Proofs.Edit.StyleReading
import MarkupEdit.Proofs.Tree.StringValue

/-!
# Entries that a change does not name

A change of a style writes the inline style as a whole, so that every entry is read and written again.
The entries for other properties stay in their order. A number keeps its text. A text keeps its value,
unless a half of a surrogate pair is an escape in it. A property keeps its name if it has no hyphens, but
a custom one that has capitals does not.

* `unnamed_foldl`: changes leave the entries for other properties.
* `SameEntry`: what a pair keeps of the source that it was written for.
* `sameEntry_of_reads`: **an entry that is read and written again.**
* `entries_kept`: **the entries that a change does not name.**
* `entries_altered`: a custom property with a capital, and a text with a surrogate pair in two escapes.
-/

namespace MarkupEdit.Edit

open MarkupEdit.Text MarkupEdit.Tree MarkupEdit.Style

variable {config : Config} {tree between edited : SourceTree} {path : Path} {element tag tag' : Node}
  {before after entries : List StyleEntry} {change : StyleChange} {changes : List Change}
  {names : List String} {source : Source} {entry : StyleEntry}

/-! ## Entries of other properties -/

/-- The properties that a change names. -/
def namedProperties (change : StyleChange) : List String :=
  change.style.entries.map changedProperty

/-- The entries for other properties than some. -/
def unnamed (names : List String) (entries : List StyleEntry) : List StyleEntry :=
  entries.filter (fun entry => !names.contains entry.1)

/-- Whether a source gives a name for another property than some. -/
def Source.isUnnamed (names : List String) (source : Source) : Bool :=
  source.name?.all (fun name => !names.contains (kebabCase name))

theorem unnamed_cons_of_mem (h : entry.1 ∈ names) :
    unnamed names (entry :: entries) = unnamed names entries :=
  List.filter_cons_of_neg (by simpa using h)

theorem unnamed_cons_of_not_mem (h : entry.1 ∉ names) :
    unnamed names (entry :: entries) = entry :: unnamed names entries :=
  List.filter_cons_of_pos (by simpa using h)

theorem unnamed_append_of_mem {front : List StyleEntry} (h : ∀ entry ∈ front, entry.1 ∈ names) :
    unnamed names (front ++ entries) = unnamed names entries := by
  induction front with
  | nil => rfl
  | cons entry front ih =>
    rw [List.cons_append, unnamed_cons_of_mem (h entry List.mem_cons_self),
      ih fun e he => h e (List.mem_cons_of_mem _ he)]

theorem unnamed_updateEntry {update : StyleUpdate} (h : update.1 ∈ names) :
    unnamed names (updateEntry entries update) = unnamed names entries := by
  have hleft : ∀ entry ∈ entryLeft update, entry.1 ∈ names := by
    intro entry hentry
    rw [mem_entryLeft hentry]
    exact h
  induction entries with
  | nil =>
    rw [updateEntry_nil, ← List.append_nil (entryLeft update), unnamed_append_of_mem hleft]
  | cons entry rest ih =>
    rw [updateEntry_cons]
    by_cases hname : entry.1 = update.1
    · have hmem : entry.1 ∈ names := by rwa [hname]
      rw [if_pos hname, unnamed_append_of_mem hleft, unnamed_cons_of_mem hmem]
    · rw [if_neg hname]
      by_cases hmem : entry.1 ∈ names
      · rw [unnamed_cons_of_mem hmem, unnamed_cons_of_mem hmem, ih]
      · rw [unnamed_cons_of_not_mem hmem, unnamed_cons_of_not_mem hmem, ih]

/-- **Changes leave the entries for other properties**, and their order. -/
theorem unnamed_foldl {updates : List StyleUpdate} (h : ∀ update ∈ updates, update.1 ∈ names) :
    unnamed names (updates.foldl updateEntry entries) = unnamed names entries := by
  induction updates generalizing entries with
  | nil => rfl
  | cons update rest ih =>
    rw [List.foldl_cons, ih fun u hu => h u (List.mem_cons_of_mem _ hu),
      unnamed_updateEntry (h update List.mem_cons_self)]

/-- The sources for other properties are those of their entries. -/
theorem forall₂_unnamed {origins : List Source} (h : List.Forall₂ Reads origins entries) :
    List.Forall₂ Reads (origins.filter (Source.isUnnamed names)) (unnamed names entries) := by
  refine List.rel_filter (fun source entry hread => ?_) h
  obtain ⟨name, hname, hentry⟩ := hread.exists_name
  dsimp only [Source.isUnnamed]
  rw [hname, hentry]
  exact Iff.rfl

/-! ## Names that are written again -/

/-- What a key keeps of a name: all of it, if there are no hyphens in it. A custom property keeps its
name only if it has no capitals. -/
structure SameName (name key : String) : Prop where
  spelled : key = camelCase (kebabCase name)
  plain : '-' ∉ name.toList → key = name
  custom : ['-', '-'] <+: name.toList →
    (key = name ↔ ∀ c ∈ name.toList, c.isUpper = false)

/-- A custom property is written in small letters. -/
theorem camelChars_kebabChars_custom {s : List Char} (h : ['-', '-'] <+: s) :
    camelChars (kebabChars s) = s.map Char.toLower := by
  obtain ⟨rest, rfl⟩ := h
  have hkebab : kebabChars (['-', '-'] ++ rest) = '-' :: '-' :: rest.map Char.toLower :=
    if_pos rfl
  rw [hkebab]
  rfl

theorem sameName (name : String) : SameName name (camelCase (kebabCase name)) where
  spelled := rfl
  plain hplain := by
    rw [camelCase, kebabCase, String.toList_ofList, camelChars_kebabChars hplain,
      String.ofList_toList]
  custom hcustom := by
    rw [camelCase, kebabCase, String.toList_ofList, camelChars_kebabChars_custom hcustom,
      ← map_toLower_eq_self_iff, ← String.toList_inj, String.toList_ofList]

/-! ## Values that are written again -/

/-- What a value keeps of the source that it was written for. -/
inductive SameValue : Source → Node → Prop where
  /-- A literal has the text of a declaration as its value. -/
  | declared {text name declared : List Char} {value : Node} {points : List Nat}
      (hcut : splitFirst? (· == ':') text = some (name, declared))
      (hvalue : LiteralDenotes value points)
      (hunits : units points = stringUnits (trimmed (String.ofList declared))) :
      SameValue (.declared text) value
  /-- A literal has the value of a literal, unless half of a surrogate pair is an escape there. -/
  | text {pair original value : Node} {points : List Nat}
      (horiginal : pair.childByField? "value" = some original)
      (hvalue : LiteralDenotes value points)
      (hunits : ∀ denoted, LiteralDenotes original denoted → ¬ HoldsReturn original →
        (units points = units denoted ↔ ∀ n ∈ denoted, ¬ IsSurrogate n)) :
      SameValue (.paired pair) value
  /-- A number has the text of a number. -/
  | number {pair original value : Node}
      (horiginal : pair.childByField? "value" = some original)
      (hnumber : original.kind = .other "number") (hvalue : value.kind = .other "number")
      (hbody : value.body = original.body) : SameValue (.paired pair) value

/-- What a pair keeps of the source that it was written for. -/
structure SameEntry (source : Source) (pair : Node) : Prop where
  name : ∃ name key, source.name? = some name ∧ keyText? pair = some key ∧ SameName name key
  value : ∃ value, pair.childByField? "value" = some value ∧ SameValue source value

theorem literalDenotes_congr {m n : Node} {points : List Nat} (hkind : m.kind = n.kind)
    (htext : m.text = n.text) (h : LiteralDenotes n points) : LiteralDenotes m points := by
  obtain ⟨q, body, hq, hn, hbody, hdenotes⟩ := h
  exact ⟨q, body, hq, hkind.trans hn, htext.trans hbody, hdenotes⟩

/-- **An entry that is read and written again** keeps what it can. -/
theorem sameEntry_of_reads (h : Reads source entry) :
    SameEntry source (.objectEntry (camelCase entry.1) entry.2.node) where
  name := by
    obtain ⟨name, hname, hentry⟩ := h.exists_name
    refine ⟨name, camelCase entry.1, hname, keyText?_objectEntry _ _, ?_⟩
    rw [hentry]
    exact sameName name
  value := by
    refine ⟨(entry.2.node.withLeading " ").withField "value",
      childByField?_objectEntry _ _, ?_⟩
    have hliteral : ∀ text, LiteralDenotes
        (((StyleValue.text text).node.withLeading " ").withField "value")
          (text.toList.map Char.toNat) := by
      intro text
      exact literalDenotes_congr rfl rfl (literalDenotes_stringLiteral (.inl rfl) text)
    cases h with
    | declared hcut => exact .declared hcut (hliteral _) rfl
    | text hkey horiginal htext =>
      refine .text horiginal (hliteral _) ?_
      intro denoted hdenoted hreturn
      exact stringUnits_eq_iff hdenoted hreturn htext
    | number hkey horiginal hnumber =>
      exact .number horiginal hnumber rfl (body_number _)

/-! ## The whole change -/

/-- **Any change of the classes** leaves the attributes that hold none. -/
theorem classes_frame (hvalid : config.validate = .ok config)
    (helement : elementAt tree path = .ok element) (hopening : element.opening? = some tag)
    {classEdit : Option CurrentClasses} {utility : List String}
    (hplan : classEdit? tag change utility config = .ok classEdit)
    (h : editClasses tree path classEdit config = .ok (between, changes)) :
    ∃ element' tag', elementAt between path = .ok element' ∧ element'.opening? = some tag' ∧
      ∀ other, other ∉ config.classAttributes →
        tag'.children.filter (Node.isAttribute other) =
          tag.children.filter (Node.isAttribute other) := by
  have hunchanged : classEdit = none → ∃ element' tag', elementAt between path = .ok element' ∧
      element'.opening? = some tag' ∧ ∀ other, other ∉ config.classAttributes →
        tag'.children.filter (Node.isAttribute other) =
          tag.children.filter (Node.isAttribute other) := by
    rintro rfl
    cases h
    exact ⟨element, tag, helement, hopening, fun _ _ => rfl⟩
  obtain ⟨-, hnone⟩ | ⟨current, hcurrent, ⟨-, hnone⟩ | rfl⟩ := classEdit?_cases hplan
  · exact hunchanged hnone
  · exact hunchanged hnone
  · obtain ⟨element', tag', new, helement', hopening', hassigned, hnew⟩ :=
      classes_assigned helement hopening h
    exact ⟨element', tag', helement', hopening', fun other =>
      filter_of_classes hvalid hcurrent hassigned hnew⟩

/-- The pairs that are written for some entries, if there are any. -/
theorem stylePairs_assigned (h : Assigned styleAttribute tag (writtenStyle after) tag')
    (hne : after ≠ []) :
    stylePairs tag' =
      after.map (fun entry => Node.objectEntry (camelCase entry.1) entry.2.node) := by
  cases after with
  | nil => exact absurd rfl hne
  | cons entry rest =>
    have hwritten : (styleNode (entry :: rest)).isAttribute styleAttribute = true :=
      isAttribute_markupAttribute _ _
    obtain ⟨c, hfind, hchildren⟩ := h.exists_find? hwritten
    exact stylePairs_styleNode hfind hchildren

/-- The entries that are not named are read from the tag and written again. -/
theorem exists_kept {updates : List StyleUpdate} (hstyle : currentStyle tag = .ok before)
    (hnames : ∀ update ∈ updates, update.1 ∈ names)
    (h : Assigned styleAttribute tag (writtenStyle (updates.foldl updateEntry before)) tag') :
    ∃ kept, kept.Sublist (stylePairs tag') ∧
      List.Forall₂ SameEntry ((sources tag).filter (Source.isUnnamed names)) kept := by
  generalize hafter : updates.foldl updateEntry before = after at h
  have hunnamed : unnamed names after = unnamed names before := by
    rw [← hafter]
    exact unnamed_foldl hnames
  have hreads : List.Forall₂ Reads ((sources tag).filter (Source.isUnnamed names))
      (unnamed names after) := by
    rw [hunnamed]
    exact forall₂_unnamed (reads_of_currentStyle hstyle)
  refine ⟨(unnamed names after).map
    (fun entry => Node.objectEntry (camelCase entry.1) entry.2.node), ?_, ?_⟩
  · by_cases hne : after = []
    · rw [hne]
      exact List.nil_sublist _
    · rw [stylePairs_assigned h hne]
      exact List.filter_sublist.map _
  · rw [List.forall₂_map_right_iff]
    exact hreads.imp fun _ _ => sameEntry_of_reads

/-- **The entries that a change does not name** are in the inline style then: it is as it was, or it has a
pair for each of them, in order, with what a pair keeps of an entry. -/
theorem entries_kept (hvalid : config.validate = .ok config)
    (hapart : styleAttribute ∉ config.classAttributes)
    (helement : elementAt tree path = .ok element) (hopening : element.opening? = some tag)
    (hstyle : currentStyle tag = .ok before)
    (h : editStyle tree path change config = .ok (edited, changes)) :
    ∃ element' tag', elementAt edited path = .ok element' ∧ element'.opening? = some tag' ∧
      (tag'.children.filter (Node.isAttribute styleAttribute) =
          tag.children.filter (Node.isAttribute styleAttribute) ∨
        ∃ kept, kept.Sublist (stylePairs tag') ∧
          List.Forall₂ SameEntry
            ((sources tag).filter (Source.isUnnamed (namedProperties change))) kept) := by
  obtain ⟨found, hfound, h⟩ := ok_of_bind h
  obtain rfl : element = found := Except.ok.inj (helement.symm.trans hfound)
  rw [hopening] at h
  dsimp only at h
  rw [StylePlan.of_eq] at h
  obtain ⟨classEdit, hclassEdit, h⟩ := ok_of_bind h
  obtain ⟨styleEdit, hstyleEdit, h⟩ := ok_of_bind h
  obtain ⟨⟨between, classChanges⟩, hfirst, h⟩ := ok_of_bind h
  obtain ⟨⟨last, styleChanges⟩, hsecond, h⟩ := ok_of_bind h
  cases h
  obtain ⟨element₁, tag₁, helement₁, hopening₁, hothers⟩ :=
    classes_frame hvalid helement hopening hclassEdit hfirst
  -- the inline style that is written over is the one that was read
  have hsame := hothers styleAttribute hapart
  have hfind : tag₁.children.find? (Node.isAttribute styleAttribute) =
      tag.children.find? (Node.isAttribute styleAttribute) := by
    rw [← List.head?_filter, hsame, List.head?_filter]
  have hstyle₁ : currentStyle tag₁ = .ok before := by
    rw [currentStyle, hfind]
    exact hstyle
  have hsources : sources tag₁ = sources tag := by
    rw [sources, sources, stylePairs, stylePairs, hfind]
  rcases styleEdit?_cases hstyle hstyleEdit with ⟨rfl, -⟩ | rfl
  · cases hsecond
    exact ⟨element₁, tag₁, helement₁, hopening₁, .inl hsame⟩
  · obtain ⟨element', tag', helement', hopening', hassigned⟩ :=
      inline_assigned helement₁ hopening₁ hsecond
    refine ⟨element', tag', helement', hopening', .inr ?_⟩
    rw [← hsources]
    refine exists_kept hstyle₁ ?_ hassigned
    intro update hupdate
    obtain ⟨entry, hentry, rfl⟩ := List.mem_map.mp hupdate
    rw [entryUpdate_fst]
    exact List.mem_map_of_mem hentry

/-- An inline style with a custom property. -/
def gapStyle : List Node := [quotedStyle "--gap: 4px; color: red"]

/-- Properties to be changed: one that is removed and one that is new. -/
def gapProperties : List (String × String) := [("color", ""), ("foo", "1")]

theorem entries_kept_bare :
    ((bareTree gapStyle).toSource = "<p style=\"--gap: 4px; color: red\"/>;" ∧
      (restyled {} gapStyle gapProperties).toSource =
        "<p style=\x7b\x7b \"--gap\": \"4px\", foo: \"1\" \x7d\x7d/>;") ∧
    ((sources (bareElement gapStyle)).filter
      (Source.isUnnamed (namedProperties ⟨none, [], [], .ofList gapProperties⟩))).map
        Source.name? = [some "--gap"] ∧
    ∃ element' tag', elementAt (restyled {} gapStyle gapProperties) [0, 0] = .ok element' ∧
      element'.opening? = some tag' ∧
      (tag'.children.filter (Node.isAttribute styleAttribute) =
          (bareElement gapStyle).children.filter (Node.isAttribute styleAttribute) ∨
        ∃ kept, kept.Sublist (stylePairs tag') ∧
          List.Forall₂ SameEntry
            ((sources (bareElement gapStyle)).filter
              (Source.isUnnamed (namedProperties ⟨none, [], [], .ofList gapProperties⟩))) kept) := by
  have hstyle : currentStyle (bareElement gapStyle) =
      .ok [("--gap", .text "4px"), ("color", .text "red")] := by decide +kernel
  have helement : elementAt (bareTree gapStyle) [0, 0] = .ok (bareElement gapStyle) := rfl
  obtain ⟨changes, hedit⟩ : ∃ changes,
      editStyle (bareTree gapStyle) [0, 0] ⟨none, [], [], .ofList gapProperties⟩ {} =
        .ok (restyled {} gapStyle gapProperties, changes) := editStyle_restyled (by decide +kernel)
  refine ⟨⟨by decide +kernel, by decide +kernel⟩, by decide +kernel, ?_⟩
  exact entries_kept (by decide +kernel) (by decide) helement rfl hstyle hedit

/-! ## Entries that are altered -/

/-- The attribute of an inline style with one pair, whose key and value are literals. -/
def literalStyle (key value : String) : Node :=
  .markupAttribute styleAttribute (some (.markupExpression (.branch .object
    [.token "\x7b", .branch .pair [(Node.leaf .string key).withField "key", .token ":",
      (Node.leaf .string value).withField "value"], .token "\x7d"])))

/-- **Entries that are altered by a change of another property.** A custom property loses its capital,
and a surrogate pair that is written as two escapes becomes two replacement characters. -/
theorem entries_altered :
    ((bareTree [literalStyle "\"--Gap\"" "\"4px\""]).toSource =
        "<p style=\x7b\x7b\"--Gap\":\"4px\"\x7d\x7d/>;" ∧
      (restyled {} [literalStyle "\"--Gap\"" "\"4px\""] [("foo", "1")]).toSource =
        "<p style=\x7b\x7b \"--gap\": \"4px\", foo: \"1\" \x7d\x7d/>;") ∧
    ((bareTree [literalStyle "\"content\"" "\"\\uD83D\\uDE00\""]).toSource =
        "<p style=\x7b\x7b\"content\":\"\\uD83D\\uDE00\"\x7d\x7d/>;" ∧
      (restyled {} [literalStyle "\"content\"" "\"\\uD83D\\uDE00\""] [("foo", "1")]).toSource =
        "<p style=\x7b\x7b content: \"\ufffd\ufffd\", foo: \"1\" \x7d\x7d/>;" ∧
      LiteralDenotes (.leaf .string "\"\\uD83D\\uDE00\"") [0xd83d, 0xde00] ∧
      units [0xd83d, 0xde00] = stringUnits "😀" ∧
      units [0xd83d, 0xde00] ≠ stringUnits "\ufffd\ufffd") := by
  refine ⟨⟨?_, ?_⟩, ?_, ?_, ⟨'"', _, .inl rfl, rfl, rfl, stringBody_pair⟩, ?_, ?_⟩ <;> decide +kernel

end MarkupEdit.Edit
