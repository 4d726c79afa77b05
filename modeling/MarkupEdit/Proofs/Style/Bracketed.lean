import MarkupEdit.Proofs.Style.Agreement
import MarkupEdit.Proofs.Style.Spelling
import MarkupEdit.Proofs.Text.Words

/-!
# Values in brackets

A value that is on no scale stands in brackets, behind the stem of its property or together with the
property, and its spaces are underscores there. Spaces are all that is replaced: other blanks stay, and
they end the class where they stand, and underscores that the value has of its own are read back as
spaces.

* `Holds`: a class with a text in its brackets; `Holds.unique`: the text is told by the class.
* `Rule.no_bracket_of_named`: the classes of the scales have no brackets.
* `utilityClass?_cases`: **a class is on a scale, or it holds the value with underscores for spaces.**
* `holds_utilityClass?`: **what can be read back from such a class**, and what other values have it.
-/

namespace MarkupEdit.Style

open MarkupEdit.Text

/-! ## Underscores for spaces -/

/-- A text with spaces for its underscores, as a value in brackets is read back. -/
def readBack (x : List Char) : List Char := x.map fun c => if c == '_' then ' ' else c

variable {v w : String} {s : List Char}

theorem readBack_written (v : String) : readBack (written v) = readBack v.toList := by
  rw [readBack, readBack, written, List.map_map]
  refine List.map_congr_left fun c _ => ?_
  by_cases hc : c = ' '
  · subst hc
    rfl
  · simp [hc]

theorem written_readBack (s : List Char) : written (String.ofList (readBack s)) =
    written (String.ofList s) := by
  rw [written, written, String.toList_ofList, String.toList_ofList, readBack, List.map_map]
  refine List.map_congr_left fun c _ => ?_
  by_cases hc : c = '_'
  · subst hc
    rfl
  · simp [hc]

/-- Values are written alike exactly if they are read back alike. -/
theorem written_eq_iff : written v = written w ↔ readBack v.toList = readBack w.toList := by
  constructor
  · intro h
    rw [← readBack_written, h, readBack_written]
  · intro h
    rw [← String.ofList_toList (s := v), ← written_readBack, h, written_readBack, String.ofList_toList]

/-- Just the texts without underscores are read back as they are. -/
theorem readBack_eq_self_iff : readBack s = s ↔ '_' ∉ s := by
  induction s with
  | nil => exact iff_of_true rfl List.not_mem_nil
  | cons c s ih =>
    have hcons : readBack (c :: s) = (if c == '_' then ' ' else c) :: readBack s := rfl
    rw [hcons, List.cons.injEq, ih, List.mem_cons, not_or]
    refine and_congr_left fun _ => ?_
    by_cases hc : c = '_'
    · subst hc
      decide
    · simp [hc, Ne.symm hc]

/-- The blanks of a value that are not spaces stay. -/
theorem written_no_blank_iff : (∀ b ∈ written v, isBlank b = false) ↔
    ∀ b ∈ v.toList, isBlank b = true → b = ' ' := by
  rw [written, List.forall_mem_map]
  refine forall₂_congr fun b _ => ?_
  by_cases hb : b = ' '
  · subst hb
    decide
  · simp [hb]

/-! ## Classes with a text in brackets -/

/-- The class holds the text in brackets, behind a stem or together with a property, and perhaps behind
a mark of importance. -/
inductive Holds (x : String) : String → Prop
  | behindStem (important : Bool) (stem : String) (h : '[' ∉ stem.toList) :
    Holds x (marked important (stem ++ "-[" ++ x ++ "]"))
  | withProperty (important : Bool) (property : String) (h : ':' ∉ property.toList) :
    Holds x (marked important ("[" ++ property ++ ":" ++ x ++ "]"))

theorem toList_marked (important : Bool) (c : String) :
    (marked important c).toList = (if important then ['!'] else []) ++ c.toList := by
  rw [marked, String.toList_append]
  cases important <;> rfl

theorem toList_behindStem (stem x : String) : (stem ++ "-[" ++ x ++ "]").toList =
    (stem.toList ++ ['-']) ++ '[' :: (x.toList ++ [']']) := by
  simp

theorem toList_withProperty (property x : String) : ("[" ++ property ++ ":" ++ x ++ "]").toList =
    '[' :: (property.toList ++ ':' :: (x.toList ++ [']'])) := by
  simp

variable {c x y property value : String} {important : Bool}

/-- Such a class is cut at its first bracket. A hyphen in front of it tells a stem. -/
theorem Holds.cut (h : Holds x c) : ∃ front behind, c.toList = front ++ '[' :: behind ∧ '[' ∉ front ∧
    (front.getLast? = some '-' ∧ behind = x.toList ++ [']'] ∨
      front.getLast? ≠ some '-' ∧
        ∃ property, ':' ∉ property ∧ behind = property ++ ':' :: (x.toList ++ [']'])) := by
  cases h with
  | behindStem important stem h =>
    refine ⟨(if important then ['!'] else []) ++ (stem.toList ++ ['-']), x.toList ++ [']'], ?_, ?_,
      .inl ⟨by rw [← List.append_assoc, List.getLast?_concat], rfl⟩⟩
    · rw [toList_marked, toList_behindStem, ← List.append_assoc]
    · cases important <;> simp [h]
  | withProperty important property h =>
    refine ⟨if important then ['!'] else [], _, ?_, ?_, .inr ⟨?_, property.toList, h, rfl⟩⟩
    · rw [toList_marked, toList_withProperty]
    · cases important <;> decide
    · cases important <;> decide

/-- **A class holds one text.** -/
theorem Holds.unique (hx : Holds x c) (hy : Holds y c) : x = y := by
  obtain ⟨front, behind, hc, hfront, hcases⟩ := hx.cut
  obtain ⟨front', behind', hc', hfront', hcases'⟩ := hy.cut
  have hsplit := splitFirst?_eq_some_iff.mpr ⟨hc, hfront⟩
  rw [splitFirst?_eq_some_iff.mpr ⟨hc', hfront'⟩] at hsplit
  obtain ⟨rfl, rfl⟩ := Prod.mk.inj (Option.some.inj hsplit)
  rcases hcases with ⟨hlast, rfl⟩ | ⟨hlast, property, hcolon, rfl⟩
  · rcases hcases' with ⟨-, hbehind⟩ | ⟨hlast', -⟩
    · exact String.toList_inj.mp (List.append_cancel_right hbehind)
    · exact absurd hlast hlast'
  · rcases hcases' with ⟨hlast', -⟩ | ⟨-, property', hcolon', hbehind⟩
    · exact absurd hlast' hlast
    · have hsplit := splitFirst?_eq_some_iff.mpr ⟨hbehind, hcolon'⟩
      rw [splitFirst?_eq_some_iff.mpr ⟨rfl, hcolon⟩] at hsplit
      obtain ⟨-, htext⟩ := Prod.mk.inj (Option.some.inj hsplit)
      exact String.toList_inj.mp (List.append_cancel_right htext)

theorem Holds.bracket_mem (h : Holds x c) : '[' ∈ c.toList := by
  obtain ⟨front, behind, hc, -⟩ := h.cut
  rw [hc]
  exact List.mem_append_right _ List.mem_cons_self

/-! ## Classes of the scales -/

/-- Small letters and hyphens. -/
def IsName (s : List Char) : Prop := s.all fun c => isAsciiSmall c || c == '-'

instance (s : List Char) : Decidable (IsName s) :=
  inferInstanceAs (Decidable ((s.all fun c => isAsciiSmall c || c == '-') = true))

theorem IsName.char (h : IsName s) {b : Char} (hb : b ∈ s) :
    b ≠ '[' ∧ b ≠ ':' ∧ isBlank b = false := by
  have hb : isAsciiSmall b = true ∨ b = '-' := by
    simpa using List.all_eq_true.mp h b hb
  rcases hb with hsmall | rfl
  · have hlower : b.isLower = true := hsmall
    exact forall_isLower (p := fun b => b ≠ '[' ∧ b ≠ ':' ∧ isBlank b = false) (by decide) hlower
  · decide

/-- What the stems, the properties and the classes of the scales are made of. Bytes tell that there is
no bracket faster than characters. -/
theorem ruleTable_names : ∀ entry ∈ ruleTable, entry.2.hasStem ∧ IsName entry.2.stem.toList ∧
    (∀ name ∈ entry.2.names, 91 ∉ bytes name) ∧ ∀ token ∈ entry.2.members, 91 ∉ bytes token := by
  decide +kernel

theorem keywordTable_names : ∀ entry ∈ keywordTable, IsName entry.1.toList ∧
    ∀ keyword ∈ entry.2, 91 ∉ bytes keyword.2 := by
  decide +kernel

theorem no_bracket_of_bytes (h : 91 ∉ bytes c) : '[' ∉ c.toList := by
  intro hmem
  obtain ⟨front, behind, hc⟩ := List.append_of_mem hmem
  have hc : c = String.ofList front ++ "[" ++ String.ofList behind :=
    String.toList_inj.mp (by simp [hc])
  refine h ?_
  rw [hc, bytes_append, bytes_append]
  exact List.mem_append_left _ (List.mem_append_right _ (by decide))

theorem no_bracket_hyphenated {stem name : String} (hstem : IsName stem.toList)
    (hname : '[' ∉ name.toList) : '[' ∉ (hyphenated stem name).toList := by
  have htext : (hyphenated stem name).toList = stem.toList ++ '-' :: name.toList := by
    simp [hyphenated]
  rw [htext, List.mem_append, List.mem_cons]
  rintro (hmem | hmem | hmem)
  · exact (hstem.char hmem).1 rfl
  · exact absurd hmem (by decide)
  · exact hname hmem

theorem no_bracket_digits {digits : List Char} (h : isDigits digits) : '[' ∉ digits := by
  intro hmem
  simp only [isDigits, Bool.and_eq_true, List.all_eq_true] at h
  exact absurd (h.2 _ hmem) (by decide)

/-- **The classes of the scales have no brackets.** -/
theorem Rule.no_bracket_of_named {rule : Rule} (hrule : rule? property = some rule)
    (h : rule.named? value = some c) : '[' ∉ c.toList := by
  rw [rule?] at hrule
  split at hrule
  · next rule' hlookup =>
    cases hrule
    obtain ⟨-, hstem, hnames, hmembers⟩ := ruleTable_names _ (pair_mem_of_lookup hlookup)
    rcases named_cases h with hc | ⟨sign, hsign, name, hname, rfl⟩ | ⟨stem, digits, rfl, hdigits, rfl⟩
    · exact no_bracket_of_bytes (hmembers c hc)
    · have hname := no_bracket_hyphenated hstem (no_bracket_of_bytes (hnames name hname))
      have hsign : '[' ∉ sign.toList := by
        rcases List.mem_cons.mp hsign with rfl | hsign
        · decide
        · rw [List.mem_singleton.mp hsign]
          decide
      rw [String.toList_append, List.mem_append]
      exact fun hmem => hmem.elim hsign hname
    · refine no_bracket_hyphenated hstem ?_
      rw [String.toList_ofList]
      exact no_bracket_digits hdigits
  · obtain ⟨classes, hlookup, rfl⟩ := Option.map_eq_some_iff.mp hrule
    exact no_bracket_of_bytes ((keywordTable_names _ (pair_mem_of_lookup hlookup)).2 _
      (pair_mem_of_lookup h))

/-- What stands in front of the value in a class with brackets. -/
theorem Rule.opening_cases {rule : Rule} (hrule : rule? property = some rule) :
    ∃ name : String, IsName name.toList ∧
      (rule.opening = name ++ "-[" ∨ rule.opening = "[" ++ name ++ ":") := by
  rw [rule?] at hrule
  split at hrule
  · next rule' hlookup =>
    cases hrule
    obtain ⟨hhas, hstem, -⟩ := ruleTable_names _ (pair_mem_of_lookup hlookup)
    exact ⟨_, hstem, .inl (opening_eq hhas)⟩
  · obtain ⟨classes, hlookup, rfl⟩ := Option.map_eq_some_iff.mp hrule
    exact ⟨property, (keywordTable_names _ (pair_mem_of_lookup hlookup)).1, .inr rfl⟩

/-! ## Declarations -/

theorem holds_bracketed {rule : Rule} (hrule : rule? property = some rule) :
    Holds (String.ofList (written value)) (marked important (rule.bracketed value)) := by
  obtain ⟨name, hname, hopening | hopening⟩ := Rule.opening_cases hrule
  · rw [Rule.bracketed, hopening]
    exact .behindStem important name fun hmem => (hname.char hmem).1 rfl
  · rw [Rule.bracketed, hopening]
    exact .withProperty important name fun hmem => (hname.char hmem).2.1 rfl

/-- A class in brackets has the blanks that its value is written with. -/
theorem bracketed_no_blank_iff {rule : Rule} (hrule : rule? property = some rule) :
    (∀ b ∈ (marked important (rule.bracketed value)).toList, isBlank b = false) ↔
      ∀ b ∈ written value, isBlank b = false := by
  have hmark : ∀ b ∈ (if important then ['!'] else []), isBlank b = false := by
    have hbang : isBlank '!' = false := rfl
    cases important <;> simp [hbang]
  have hopening : ∀ b ∈ rule.opening.toList, isBlank b = false := by
    obtain ⟨name, hname, hopening⟩ := Rule.opening_cases hrule
    have hname : ∀ b ∈ name.toList, isBlank b = false := fun b hb => (hname.char hb).2.2
    have hbracket : isBlank '[' = false := rfl
    rcases hopening with hopening | hopening
    · have hhyphen : isBlank '-' = false := rfl
      simpa [hopening, or_imp, forall_and, hbracket, hhyphen] using hname
    · have hcolon : isBlank ':' = false := rfl
      simpa [hopening, or_imp, forall_and, hbracket, hcolon] using hname
  have hclose : isBlank ']' = false := rfl
  rw [toList_marked, Rule.bracketed, String.toList_append, String.toList_append, String.toList_ofList]
  simp only [List.mem_append, or_imp, forall_and]
  exact ⟨fun h => h.2.1.2, fun h => ⟨hmark, ⟨hopening, h⟩, by simpa using hclose⟩⟩

/-- Just a text without blanks is the one class that it is read as. -/
theorem ClassList.parse_eq_singleton_iff (hc : c ≠ "") :
    ClassList.parse c = [c] ↔ ∀ b ∈ c.toList, isBlank b = false := by
  have hnil : c.toList ≠ [] := fun h => hc (String.toList_inj.mp h)
  have hparse : ClassList.parse c = [c] ↔ blankWords c.toList = [c.toList] := by
    have hsingle : [c] = [c.toList].map String.ofList := by simp
    rw [ClassList.parse, words, hsingle]
    exact (List.map_injective_iff.mpr fun a b h => String.ofList_injective h).eq_iff
  rw [hparse]
  constructor
  · intro h
    have hword := isWord_of_mem (h ▸ List.mem_singleton_self _ : c.toList ∈ blankWords c.toList)
    exact hword.2
  · intro h
    exact blankWords_of_isWord ⟨hnil, h⟩

theorem utilityClass?_of_rule {rule : Rule} (hrule : rule? (kebabCase (trimmed property)) = some rule)
    (hvalue : plainValue value ≠ "") :
    utilityClass? property value = some (marked (isImportant value) (rule.classOf (plainValue value))) := by
  have hplain : (splitMark (trim value.toList)).2.isEmpty = false := by
    rw [List.isEmpty_eq_false_iff]
    intro hnil
    exact hvalue (by rw [plainValue, hnil])
  rw [utilityClass?]
  dsimp only
  rw [hplain, if_neg Bool.false_ne_true, hrule]
  rfl

/-- The class of a value that is on the scale of a property. -/
def scaleClass? (property value : String) : Option String :=
  (rule? (kebabCase (trimmed property))).bind (Rule.named? (plainValue value))

/-- **A class is on a scale, or it holds the value.** Only a class of a scale has no brackets. -/
theorem utilityClass?_cases (h : utilityClass? property value = some c) :
    ∃ rule, rule? (kebabCase (trimmed property)) = some rule ∧ plainValue value ≠ "" ∧
      (scaleClass? property value ≠ none ∧ '[' ∉ c.toList ∨
        scaleClass? property value = none ∧
          c = marked (isImportant value) (rule.bracketed (plainValue value))) := by
  obtain ⟨rule, hrule, hvalue, rfl⟩ := utilityClass?_eq_some h
  have hscale : scaleClass? property value = rule.named? (plainValue value) := by
    rw [scaleClass?, hrule, Option.bind_some]
  refine ⟨rule, hrule, hvalue, ?_⟩
  rw [hscale]
  cases hnamed : rule.named? (plainValue value) with
  | none =>
    rw [Rule.classOf, hnamed]
    exact .inr ⟨rfl, rfl⟩
  | some name =>
    have hname := Rule.no_bracket_of_named hrule hnamed
    refine .inl ⟨Option.some_ne_none name, ?_⟩
    rw [Rule.classOf, hnamed, Option.getD_some, toList_marked, List.mem_append]
    cases isImportant value <;> simp [hname]

theorem marked_injective {i j : Bool} (h : marked i c = marked j c) : i = j := by
  have hlength := congrArg (fun s : String => s.toList.length) h
  simp only [toList_marked, List.length_append] at hlength
  cases i <;> cases j <;> simp at hlength ⊢

/-- Values that are written alike have the same class in brackets. -/
theorem bracketed_congr {rule : Rule} (h : written v = written w) : rule.bracketed v = rule.bracketed w :=
  congrArg (fun x => rule.opening ++ String.ofList x ++ "]") h

theorem readBack_eq_nil_iff : readBack s = [] ↔ s = [] := List.map_eq_nil_iff

/-- **What a class in brackets tells of its value.** The text in the brackets is the value with
underscores for its spaces. So the class is one token exactly if all blanks of the value are spaces, the
value is read back exactly if it has no underscores, and the other values with the same class are those
that are read back as the same text. -/
theorem holds_utilityClass? (h : utilityClass? property value = some c) (hx : Holds x c) :
    x.toList = written (plainValue value) ∧
    (ClassList.parse c = [c] ↔ ∀ b ∈ (plainValue value).toList, isBlank b = true → b = ' ') ∧
    (readBack x.toList = (plainValue value).toList ↔ '_' ∉ (plainValue value).toList) ∧
    ∀ other, utilityClass? property other = some c ↔
      isImportant other = isImportant value ∧ scaleClass? property other = none ∧
        readBack (plainValue other).toList = readBack (plainValue value).toList := by
  obtain ⟨rule, hrule, hvalue, ⟨-, hbare⟩ | ⟨-, hc⟩⟩ := utilityClass?_cases h
  · exact absurd hx.bracket_mem hbare
  have htext : x = String.ofList (written (plainValue value)) :=
    hx.unique (hc ▸ holds_bracketed hrule)
  have hxlist : x.toList = written (plainValue value) := by rw [htext, String.toList_ofList]
  have hne : c ≠ "" := by
    rintro rfl
    exact absurd hx.bracket_mem (by decide)
  refine ⟨hxlist, ?_, ?_, fun other => ⟨fun hother => ?_, ?_⟩⟩
  · rw [ClassList.parse_eq_singleton_iff hne, hc, bracketed_no_blank_iff hrule, written_no_blank_iff]
  · rw [hxlist, readBack_written, readBack_eq_self_iff]
  · obtain ⟨rule', hrule', -, ⟨-, hbare⟩ | ⟨hscale, hc'⟩⟩ := utilityClass?_cases hother
    · exact absurd hx.bracket_mem hbare
    · obtain rfl : rule = rule' := Option.some.inj (hrule.symm.trans hrule')
      have hwritten : written (plainValue other) = written (plainValue value) := by
        rw [← hxlist, hx.unique (hc' ▸ holds_bracketed hrule), String.toList_ofList]
      rw [bracketed_congr hwritten, hc] at hc'
      exact ⟨(marked_injective hc').symm, hscale, written_eq_iff.mp hwritten⟩
  · rintro ⟨himportant, hscale, hread⟩
    have hother : plainValue other ≠ "" := by
      intro hempty
      have hnil : readBack (plainValue value).toList = [] := by rw [← hread, hempty]; rfl
      exact hvalue (String.toList_inj.mp (readBack_eq_nil_iff.mp hnil))
    rw [scaleClass?, hrule, Option.bind_some] at hscale
    rw [utilityClass?_of_rule hrule hother, Rule.classOf, hscale, Option.getD_none, himportant,
      bracketed_congr (written_eq_iff.mpr hread), hc]

theorem holds_utilityClass?_spaces :
    utilityClass? "padding" "8px 16px" = some "p-[8px_16px]" ∧ Holds "8px_16px" "p-[8px_16px]" ∧
      ClassList.parse "p-[8px_16px]" = ["p-[8px_16px]"] ∧
      readBack "8px_16px".toList = (plainValue "8px 16px").toList := by
  have h : utilityClass? "padding" "8px 16px" = some "p-[8px_16px]" := by decide +kernel
  have hx : Holds "8px_16px" "p-[8px_16px]" := .behindStem false "p" (by decide +kernel)
  obtain ⟨-, htoken, hread, -⟩ := holds_utilityClass? h hx
  refine ⟨h, hx, htoken.mpr ?_, hread.mpr (by decide +kernel)⟩
  have hplain : (plainValue "8px 16px").toList = ['8', 'p', 'x', ' ', '1', '6', 'p', 'x'] := by
    decide +kernel
  rw [hplain]
  simp [isBlank]

/-- A tab in a value breaks its class in two, and a value with an underscore has the class of the value
with a space in its place. -/
theorem holds_utilityClass?_blurred :
    utilityClass? "padding" "1px\t2px" = some "p-[1px\t2px]" ∧ Holds "1px\t2px" "p-[1px\t2px]" ∧
      ClassList.parse "p-[1px\t2px]" = ["p-[1px", "2px]"] ∧
    utilityClass? "width" "var(--a b)" = some "w-[var(--a_b)]" ∧
      utilityClass? "width" "var(--a_b)" = some "w-[var(--a_b)]" ∧
      Holds "var(--a_b)" "w-[var(--a_b)]" ∧
      readBack "var(--a_b)".toList ≠ (plainValue "var(--a_b)").toList :=
  ⟨by decide +kernel, .behindStem false "p" (by decide +kernel), by decide +kernel,
    by decide +kernel, by decide +kernel, .behindStem false "w" (by decide +kernel), by decide +kernel⟩

end MarkupEdit.Style
