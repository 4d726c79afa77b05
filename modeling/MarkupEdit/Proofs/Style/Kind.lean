import MarkupEdit.Proofs.Style.Scales
import MarkupEdit.Proofs.Style.Stem
import MarkupEdit.Proofs.Style.Value

/-!
# Values of one kind

A rule turns a value into a class, and the class alone tells its group. The group depends on the
stem of the rule and on what the value is taken for: a length, a colour, an image, or just any
value.

* `ValueKind`, `Rule.kind?`: what the class of a value is taken for.
* `Rule.Fits`, `Rule.fits_ruleTable`: the stem of a rule is clear for what the rule puts behind it.
* `Rule.Has.inGroup_classOf`: **the classes of the values of one kind are in one group.**
-/

namespace MarkupEdit.Style

open MarkupEdit.Text

/-! ## Kinds of values -/

/-- What the class of a value is taken for. -/
inductive ValueKind where
  /-- A step of a scale. -/
  | named
  | length
  | color
  | image
  /-- Any value at all, or any that is on no scale. -/
  | any
  deriving DecidableEq, Repr

/-- A value as it stands in brackets, with underscores for spaces. -/
def written (value : String) : List Char :=
  value.toList.map (fun c => if c == ' ' then '_' else c)

namespace Rule

/-- The kind of a value of a property. There is none for a value that no class for colours, lengths
or images fits. -/
def kind? (value : String) (rule : Rule) : Option ValueKind :=
  let isNamed := (rule.named? value).isSome
  let w := written value
  match rule with
  | color stem =>
    if isNamed then some .color
    -- a background has no width or size of its own
    else if isNumeric w then if stem == "bg" then none else some .length
    else if stem == "bg" && isImage w then some .image
    else if isColorText w then some .color
    else none
  | fontSize | borderWidth =>
    if isNamed || isNumeric w then some .length
    else if isColorText w then some .color
    else none
  | fontWeight | keywords _ _ => some (if isNamed then .named else .any)
  | _ => some .any

end Rule

/-! ## Rules that the table fits -/

namespace Rule

/-- The stem of the classes of a rule with its hyphen. -/
def head (rule : Rule) : String := rule.stem ++ "-"

/-- Whether the classes of a rule have a stem. -/
def hasStem : Rule → Bool
  | keywords _ _ => false
  | _ => true

theorem opening_eq {rule : Rule} (h : rule.hasStem) : rule.opening = rule.stem ++ "-[" := by
  cases rule <;> first | rfl | cases h

theorem toList_bracketed {rule : Rule} (h : rule.hasStem) (value : String) :
    (rule.bracketed value).toList = rule.head.toList ++ '[' :: (written value ++ [']']) := by
  have hhead : (rule.stem ++ "-[").toList = rule.head.toList ++ ['['] := by
    rw [head, String.toList_append, String.toList_append, List.append_assoc]
    rfl
  rw [bracketed, opening_eq h, String.toList_append, String.toList_append, hhead,
    String.toList_ofList, List.append_assoc, List.append_assoc]
  rfl

/-- Whether the members of a rule are in a group. -/
def membersIn (rule : Rule) (name : String) : Bool :=
  rule.members.all fun token => (memberGroup? token).any fun group => group.name == name

/-- What the group of a stem must be like for the values of a rule. -/
def suits (group : ConflictGroup) : Rule → Bool
  -- backgrounds give their images to another group, all other stems for colours their lengths
  | color stem =>
    (colorGroup? group.name).isNone && colors.all (fun color => isColor color.2.toList) &&
      (lengthGroup? group.name).isSome == (stem != "bg") &&
      (imageGroup? group.name).isSome == (stem == "bg")
  | fontSize =>
    (colorGroup? group.name).isNone && (imageGroup? group.name).isNone &&
      (lengthGroup? group.name).any fontSize.membersIn
  | borderWidth =>
    (colorGroup? group.name).isNone && (imageGroup? group.name).isNone &&
      (lengthGroup? group.name).any borderWidth.membersIn
  -- the names of weights are members of one group, the stem is that of another
  | fontWeight => group.isSteady && fontWeight.membersIn "font_weight"
  -- a count may be any numeral, so nothing may go on behind the stem
  | tracks stem =>
    group.isSteady && (membersBehind (tracks stem).head).isEmpty &&
      (stemsBehind (tracks stem).head).all List.isEmpty
  | keywords _ _ => false
  | rule => group.isSteady && rule.membersIn group.name

/-- The table of groups fits a rule. -/
structure Fits (rule : Rule) (group : ConflictGroup) : Prop where
  start : properStart rule.head.toList
  bracket : NeverNext rule.head '['
  clear : ClearFor rule.head rule.names
  suits : rule.suits group

instance (rule : Rule) (group : ConflictGroup) : Decidable (rule.Fits group) :=
  decidable_of_iff
    (properStart rule.head.toList ∧ NeverNext rule.head '[' ∧ ClearFor rule.head rule.names ∧
      rule.suits group)
    ⟨fun ⟨start, bracket, clear, suits⟩ => ⟨start, bracket, clear, suits⟩,
      fun h => ⟨h.start, h.bracket, h.clear, h.suits⟩⟩

/-- All rules fit. -/
theorem fits_ruleTable :
    ∀ entry ∈ ruleTable, (stemGroup? entry.2.head).any fun group => entry.2.Fits group := by
  decide +kernel

/-- The names behind a stem can be told from values in brackets and carry no mark. -/
theorem names_proper : ∀ entry ∈ ruleTable, ∀ name ∈ entry.2.names, name.toList ≠ [] ∧
    name.toList.head? ≠ some '[' ∧ name.toList.getLast? ≠ some '!' := by
  decide +kernel

/-- So can the classes that are told by themselves. -/
theorem members_proper : ∀ entry ∈ ruleTable, ∀ token ∈ entry.2.members,
    properStart token.toList ∧ token.toList.getLast? ≠ some '!' := by
  decide +kernel

end Rule

/-! ## The group of a kind -/

/-- A rule of the table and the group of its stem. -/
structure Rule.Has (rule : Rule) (group : ConflictGroup) : Prop where
  mem : ∃ property, (property, rule) ∈ ruleTable
  stem : stemGroup? rule.head = some group
  fits : rule.Fits group

theorem written_ne_nil {value : String} (h : value ≠ "") : written value ≠ [] := by
  intro hnil
  have htoList : value.toList = [] := List.map_eq_nil_iff.mp hnil
  exact h (String.toList_inj.mp htoList)

theorem Rule.has_group {rule : Rule} {property : String} (h : (property, rule) ∈ ruleTable) :
    ∃ group, rule.Has group := by
  obtain ⟨group, hgroup, hfits⟩ := Option.any_eq_true _ _ |>.mp (fits_ruleTable _ h)
  exact ⟨group, ⟨property, h⟩, hgroup, of_decide_eq_true hfits⟩

theorem digits_proper {digits : List Char} (h : isDigits digits) :
    digits ≠ [] ∧ digits.getLast? ≠ some '!' := by
  simp only [isDigits, Bool.and_eq_true, Bool.not_eq_true', List.isEmpty_eq_false_iff,
    List.all_eq_true] at h
  refine ⟨h.1, fun hlast => ?_⟩
  have := h.2 _ (List.mem_of_getLast? hlast)
  exact absurd this (by decide)

namespace Rule.Has

variable {rule : Rule} {group : ConflictGroup} {name c value : String}

theorem hasStem (h : rule.Has group) : rule.hasStem := by
  cases rule with
  | keywords property classes => cases h.fits.suits
  | _ => rfl

/-- A value in brackets is in the group of the text behind the stem. -/
theorem bracketed (h : rule.Has group)
    (hname : groupOfValue? group ('[' :: (written value ++ [']'])) = some name) :
    InGroup (rule.bracketed value) (.listed name) := by
  have hlast : ('[' :: (written value ++ [']'])).getLast? ≠ some '!' := by
    rw [← List.cons_append, List.getLast?_concat]
    decide
  have hc : (rule.bracketed value).toList =
      "".toList ++ (rule.head.toList ++ '[' :: (written value ++ [']'])) :=
    toList_bracketed h.hasStem value
  exact inGroup_of_stem List.mem_cons_self h.stem h.fits.start h.fits.bracket.clear
    (List.cons_ne_nil _ _) hlast hname hc

/-- A name behind the stem is in the group of the name. -/
theorem named (h : rule.Has group) (hc : IsNamed rule.stem rule.names c)
    (hname : ∀ value ∈ rule.names, groupOfValue? group value.toList = some name) :
    InGroup c (.listed name) := by
  obtain ⟨property, hmem⟩ := h.mem
  obtain ⟨sign, hsign, value, hvalue, rfl⟩ := hc
  obtain ⟨hnil, -, hlast⟩ := names_proper _ hmem value hvalue
  refine inGroup_of_stem hsign h.stem h.fits.start (h.fits.clear value hvalue) hnil hlast
    (hname value hvalue) ?_
  rw [hyphenated, String.toList_append, String.toList_append, head]

/-- A class that is told by itself is in its group. -/
theorem member (h : rule.Has group) (hc : c ∈ rule.members) (hname : rule.membersIn name) :
    InGroup c (.listed name) := by
  obtain ⟨property, hmem⟩ := h.mem
  obtain ⟨hstart, hlast⟩ := members_proper _ hmem c hc
  obtain ⟨group', hgroup, hname⟩ := (Option.any_eq_true _ _).mp (List.all_eq_true.mp hname c hc)
  rw [← beq_iff_eq.mp hname]
  exact inGroup_of_member hgroup hstart hlast

end Rule.Has

/-- The group of the values of a kind behind a stem. -/
def ConflictGroup.ofKind (group : ConflictGroup) : ValueKind → String
  | .length => (lengthGroup? group.name).getD group.name
  | .image => (imageGroup? group.name).getD group.name
  | .named => "font_weight"
  | .color | .any => group.name

namespace Rule.Has

variable {rule : Rule} {group : ConflictGroup} {stem name c value : String} {kind : ValueKind}

/-- All classes of a rule whose values are of one kind are in the group of its stem. -/
theorem uniform (h : rule.Has group) (hsuits : group.isSteady && rule.membersIn group.name)
    (hnot : ∀ stem, rule ≠ .tracks stem) :
    InGroup (rule.classOf value) (.listed group.name) := by
  obtain ⟨hsteady, hmembers⟩ := Bool.and_eq_true_iff.mp hsuits
  rw [classOf]
  cases hnamed : rule.named? value with
  | none => exact h.bracketed (groupOfValue?_of_isSteady hsteady)
  | some c =>
    rcases named_cases hnamed with hc | hc | ⟨stem, digits, hrule, -⟩
    · exact h.member hc hmembers
    · exact h.named hc fun name _ => groupOfValue?_of_isSteady hsteady
    · exact absurd hrule (hnot stem)

/-- Counts of tracks are in the group of their stem. -/
theorem tracks (h : (Rule.tracks stem).Has group) :
    InGroup ((Rule.tracks stem).classOf value) (.listed group.name) := by
  have hsuits := h.fits.suits
  simp only [suits, Bool.and_eq_true, List.isEmpty_iff, List.all_eq_true] at hsuits
  obtain ⟨⟨hsteady, hmembers⟩, hstems⟩ := hsuits
  rw [classOf]
  cases hnamed : (Rule.tracks stem).named? value with
  | none => exact h.bracketed (groupOfValue?_of_isSteady hsteady)
  | some c =>
    rcases named_cases hnamed with hc | hc | ⟨stem', digits, hrule, hdigits, rfl⟩
    · exact absurd hc List.not_mem_nil
    · exact h.named hc fun name _ => groupOfValue?_of_isSteady hsteady
    · cases hrule
      obtain ⟨hnil, hlast⟩ := digits_proper hdigits
      have hc : (hyphenated stem (String.ofList digits)).toList =
          "".toList ++ ((Rule.tracks stem).head.toList ++ digits) := by
        rw [hyphenated, String.toList_append, String.toList_ofList]
        rfl
      exact inGroup_of_stem List.mem_cons_self h.stem h.fits.start
        (clear_of_alone hmembers hstems) hnil hlast (groupOfValue?_of_isSteady hsteady) hc

/-- The names of colours behind a stem for colours. -/
theorem color_named (h : (Rule.color stem).Has group)
    (hnamed : (Rule.color stem).named? value = some c) : InGroup c (.listed group.name) := by
  have hsuits := h.fits.suits
  simp only [suits, Bool.and_eq_true, Option.isNone_iff_eq_none, List.all_eq_true] at hsuits
  obtain ⟨property, hmem⟩ := h.mem
  rcases named_cases hnamed with hc | hc | ⟨_, _, hrule, -⟩
  · exact absurd hc List.not_mem_nil
  · refine h.named hc fun name hname => ?_
    obtain ⟨color, hcolors, rfl⟩ := List.mem_map.mp hname
    exact groupOfValue?_named (names_proper _ hmem _ hname).2.1 (hsuits.1.1.2 color hcolors)
      hsuits.1.1.1
  · cases hrule

/-- A value in brackets behind a stem for colours: a background has images, and all others have
lengths. -/
theorem color_bracketed (h : (Rule.color stem).Has group) (hvalue : value ≠ "")
    (hnamed : (Rule.color stem).named? value = none)
    (hkind : (Rule.color stem).kind? value = some kind) :
    groupOfValue? group ('[' :: (written value ++ [']'])) = some (group.ofKind kind) := by
  have hsuits := h.fits.suits
  simp only [suits, Bool.and_eq_true, beq_iff_eq, Option.isNone_iff_eq_none] at hsuits
  obtain ⟨⟨⟨hcolor, -⟩, hlength⟩, himage⟩ := hsuits
  have hw := written_ne_nil hvalue
  simp only [kind?, hnamed, Option.isSome_none, Bool.false_eq_true, if_false] at hkind
  split at hkind
  · next hnumeric =>
    split at hkind
    · cases hkind
    · next hbg =>
      cases hkind
      rw [bne_iff_ne.mpr (beq_eq_false_iff_ne.mp (eq_false_of_ne_true hbg))] at hlength
      obtain ⟨name, hname⟩ := Option.isSome_iff_exists.mp hlength
      rw [groupOfValue?_numeric hw hnumeric hname, ConflictGroup.ofKind, hname]
      rfl
  · next hnumeric =>
    have hnumeric := eq_false_of_ne_true hnumeric
    split at hkind
    · next hbg =>
      cases hkind
      obtain ⟨hbg, hw'⟩ := Bool.and_eq_true_iff.mp hbg
      rw [hbg] at himage
      obtain ⟨name, hname⟩ := Option.isSome_iff_exists.mp himage
      rw [groupOfValue?_image hw hnumeric hw' hname, ConflictGroup.ofKind, hname]
      rfl
    · next hbg =>
      split at hkind
      · next hcolored =>
        cases hkind
        refine groupOfValue?_color hw hnumeric ?_ hcolored hcolor
        -- either the stem takes no images, or the value is none
        rcases Bool.and_eq_false_iff.mp (eq_false_of_ne_true hbg) with hbg | hw'
        · rw [hbg] at himage
          exact .inr (Option.not_isSome_iff_eq_none.mp (by rw [himage]; exact Bool.false_ne_true))
        · exact .inl hw'
      · cases hkind

theorem color (h : (Rule.color stem).Has group) (hvalue : value ≠ "")
    (hkind : (Rule.color stem).kind? value = some kind) :
    InGroup ((Rule.color stem).classOf value) (.listed (group.ofKind kind)) := by
  rw [classOf]
  cases hnamed : (Rule.color stem).named? value with
  | some c =>
    rw [kind?, hnamed] at hkind
    cases hkind
    exact h.color_named hnamed
  | none => exact h.bracketed (h.color_bracketed hvalue hnamed hkind)

/-- Lengths on a scale and lengths in brackets behind a stem for colours. -/
theorem length (h : rule.Has group) (hcolor : colorGroup? group.name = none)
    (himage : imageGroup? group.name = none)
    (hmembers : (lengthGroup? group.name).any rule.membersIn) (hnames : rule.names = [])
    (hnot : ∀ stem, rule ≠ .tracks stem) (hvalue : value ≠ "")
    (hkind : (if (rule.named? value).isSome || isNumeric (written value) then some .length
      else if isColorText (written value) then some .color else none) = some kind) :
    InGroup (rule.classOf value) (.listed (group.ofKind kind)) := by
  obtain ⟨name, hname, hmembers⟩ := (Option.any_eq_true _ _).mp hmembers
  have hw := written_ne_nil hvalue
  rw [classOf]
  cases hnamed : rule.named? value with
  | some c =>
    rw [hnamed] at hkind
    cases hkind
    rw [ConflictGroup.ofKind, hname]
    rcases named_cases hnamed with hc | ⟨_, _, name, hc, -⟩ | ⟨stem, _, hrule, -⟩
    · exact h.member hc hmembers
    · rw [hnames] at hc
      exact absurd hc List.not_mem_nil
    · exact absurd hrule (hnot stem)
  | none =>
    rw [hnamed, Option.isSome_none, Bool.false_or] at hkind
    refine h.bracketed ?_
    split at hkind
    · next hnumeric =>
      cases hkind
      rw [groupOfValue?_numeric hw hnumeric hname, ConflictGroup.ofKind, hname]
      rfl
    · next hnumeric =>
      split at hkind
      · next hcolored =>
        cases hkind
        exact groupOfValue?_color hw (eq_false_of_ne_true hnumeric) (.inr himage) hcolored
          hcolor
      · cases hkind

theorem weight (h : Rule.fontWeight.Has group)
    (hkind : Rule.fontWeight.kind? value = some kind) :
    InGroup (Rule.fontWeight.classOf value) (.listed (group.ofKind kind)) := by
  obtain ⟨hsteady, hmembers⟩ := Bool.and_eq_true_iff.mp h.fits.suits
  rw [kind?] at hkind
  rw [classOf]
  cases hnamed : Rule.fontWeight.named? value with
  | none =>
    rw [hnamed] at hkind
    cases hkind
    exact h.bracketed (groupOfValue?_of_isSteady hsteady)
  | some c =>
    rw [hnamed] at hkind
    cases hkind
    rcases named_cases hnamed with hc | ⟨_, _, name, hc, -⟩ | ⟨_, _, hrule, -⟩
    · exact h.member hc hmembers
    · exact absurd hc List.not_mem_nil
    · cases hrule

/-- **The group of the class of a value** with a kind. -/
theorem inGroup_classOf (h : rule.Has group) (hvalue : value ≠ "")
    (hkind : rule.kind? value = some kind) :
    InGroup (rule.classOf value) (.listed (group.ofKind kind)) := by
  have hsuits := h.fits.suits
  cases rule with
  | color stem => exact h.color hvalue hkind
  | fontWeight => exact h.weight hkind
  | fontSize =>
    simp only [suits, Bool.and_eq_true, Option.isNone_iff_eq_none] at hsuits
    exact h.length hsuits.1.1 hsuits.1.2 hsuits.2 rfl nofun hvalue hkind
  | borderWidth =>
    simp only [suits, Bool.and_eq_true, Option.isNone_iff_eq_none] at hsuits
    exact h.length hsuits.1.1 hsuits.1.2 hsuits.2 rfl nofun hvalue hkind
  | tracks stem =>
    cases hkind
    exact h.tracks
  | keywords property classes => cases hsuits
  | _ =>
    cases hkind
    exact h.uniform hsuits nofun

end Rule.Has

end MarkupEdit.Style
