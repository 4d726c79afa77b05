import MarkupEdit.Style.Mapping

/-!
# The classes of the scales

A value on a scale has a class of its own. It is a name behind the stem of its property, perhaps
with a sign in front, or one of a few classes that are told by themselves.

* `Rule.stem`, `Rule.names`, `Rule.members`: the parts of the classes of a rule.
* `Rule.named_cases`: **every class of a scale is made of these parts**, but for the counts of
  tracks.
-/

namespace MarkupEdit.Style

open MarkupEdit.Text

def spacingNames : List String := "auto" :: spacings.map Prod.snd

def sizingNames : List String :=
  ["fit", "min", "max", "screen"] ++ (fractions.map Prod.snd ++ spacingNames)

namespace Rule

/-- The stem of the classes of a rule, without its hyphen. -/
def stem : Rule → String
  | color stem | spacing stem | sizing stem | toggle stem | tracks stem => stem
  | fontSize => "text"
  | fontWeight => "font"
  | lineHeight => "leading"
  | letterSpacing => "tracking"
  | maxWidth => "max-w"
  | radius => "rounded"
  | borderWidth => "border"
  | shadow => "shadow"
  | opacity => "opacity"
  | level => "z"
  | flex => "flex"
  | keywords _ _ => ""

/-- The names that stand behind the stem. -/
def names : Rule → List String
  | color _ => colors.map Prod.snd
  | lineHeight => "normal" :: (lineRatios.map Prod.snd ++ lineHeights.map Prod.snd)
  | letterSpacing => letterSpacings.map Prod.snd
  | spacing _ => spacingNames
  | sizing _ => sizingNames
  | maxWidth => ["none", "full", "fit", "min", "max"] ++ maxWidths.map Prod.snd
  | radius => ["none", "sm", "md", "lg", "xl", "2xl", "3xl", "full"]
  | shadow => ["none"]
  | opacity => opacities.map Prod.snd
  | level => "auto" :: levels
  | toggle _ => ["0"]
  | tracks _ => ["none"]
  | fontSize | fontWeight | borderWidth | flex | keywords _ _ => []

/-- The classes that are told by themselves. -/
def members : Rule → List String
  | fontSize => (fontSizes.map Prod.snd).map (hyphenated "text")
  | fontWeight => (fontWeights.map Prod.snd).map (hyphenated "font")
  | borderWidth => (borderWidths.map Prod.snd).map ("border" ++ ·)
  | radius => ["rounded"]
  | flex => ["1", "auto", "initial", "none"].map (hyphenated "flex")
  | toggle stem => [stem]
  | keywords _ classes => classes.map Prod.snd
  | _ => []

end Rule

/-- A class that is a name behind a stem, perhaps with a sign. -/
def IsNamed (stem : String) (names : List String) (c : String) : Prop :=
  ∃ sign ∈ ["", "-"], ∃ name ∈ names, c = sign ++ hyphenated stem name

section

variable {stem name c value : String} {names : List String}

theorem isNamed_hyphenated (h : name ∈ names) : IsNamed stem names (hyphenated stem name) :=
  ⟨"", List.mem_cons_self, name, h, String.empty_append.symm⟩

theorem isNamed_signedClass {length : Length} (h : name ∈ names) :
    IsNamed stem names (signedClass stem length name) := by
  refine ⟨if length.isNegative then "-" else "", ?_, name, h, rfl⟩
  cases length.isNegative with
  | true => exact List.mem_cons_of_mem _ (List.mem_singleton_self _)
  | false => exact List.mem_cons_self

theorem isNamed_of_map {found : Option String} (h : found.map (hyphenated stem) = some c)
    (hnames : ∀ name, found = some name → name ∈ names) : IsNamed stem names c := by
  obtain ⟨name, hname, rfl⟩ := Option.map_eq_some_iff.mp h
  exact isNamed_hyphenated (hnames name hname)

theorem IsNamed.mono {names' : List String} (h : IsNamed stem names c) (hsub : names ⊆ names') :
    IsNamed stem names' c := by
  obtain ⟨sign, hsign, name, hname, rfl⟩ := h
  exact ⟨sign, hsign, name, hsub hname, rfl⟩

theorem pair_mem_of_lookup {κ α : Type} [BEq κ] [LawfulBEq κ] {table : List (κ × α)} {key : κ}
    {a : α} (h : table.lookup key = some a) : (key, a) ∈ table := by
  obtain ⟨before, behind, rfl, -⟩ := List.lookup_eq_some_iff.mp h
  exact List.mem_append_right _ List.mem_cons_self

theorem mem_of_lookup {κ : Type} [BEq κ] [LawfulBEq κ] {table : List (κ × String)} {key : κ}
    (h : table.lookup key = some name) : name ∈ table.map Prod.snd :=
  List.mem_map.mpr ⟨_, pair_mem_of_lookup h, rfl⟩

/-- The step of a scale that a length is on. -/
theorem mem_of_bind_lookup {κ : Type} {o : Option κ} {table : List (Int × String)} {key : κ → Int}
    (h : (o.bind fun k => table.lookup (key k)) = some name) : name ∈ table.map Prod.snd := by
  obtain ⟨k, -, h⟩ := Option.bind_eq_some_iff.mp h
  exact mem_of_lookup h

theorem spacingClass?_named (h : spacingClass? stem value = some c) :
    IsNamed stem spacingNames c := by
  rw [spacingClass?] at h
  split at h
  · cases h
    exact isNamed_hyphenated List.mem_cons_self
  · obtain ⟨length, -, h⟩ := Option.bind_eq_some_iff.mp h
    obtain ⟨name, hname, rfl⟩ := Option.map_eq_some_iff.mp h
    exact isNamed_signedClass (List.mem_cons_of_mem _ (mem_of_bind_lookup hname))

theorem fractionClass?_named (h : fractionClass? stem value = some c) :
    IsNamed stem (fractions.map Prod.snd) c := by
  obtain ⟨length, -, h⟩ := Option.bind_eq_some_iff.mp h
  split at h
  · obtain ⟨name, hname, rfl⟩ := Option.map_eq_some_iff.mp h
    exact isNamed_signedClass (mem_of_lookup hname)
  · cases h

theorem sizeName?_mem (h : sizeName? stem value = some name) :
    name ∈ ["fit", "min", "max", "screen"] := by
  rw [sizeName?] at h
  repeat' split at h
  all_goals simp_all

theorem maxWidthName?_mem (h : maxWidthName? value = some name) :
    name ∈ Rule.maxWidth.names := by
  rw [maxWidthName?] at h
  repeat' split at h
  all_goals first
    | exact List.mem_append_right _ (mem_of_bind_lookup h)
    | (cases h; simp [Rule.names])

theorem lineHeightName?_mem (h : lineHeightName? value = some name) :
    name ∈ Rule.lineHeight.names := by
  rw [lineHeightName?] at h
  split at h
  · cases h
    exact List.mem_cons_self
  · obtain ⟨length, -, h⟩ := Option.bind_eq_some_iff.mp h
    refine List.mem_cons_of_mem _ (List.mem_append.mpr ?_)
    split at h
    · exact .inl (mem_of_lookup h)
    · exact .inr (mem_of_bind_lookup h)

theorem letterSpacingName?_mem (h : letterSpacingName? value = some name) :
    name ∈ Rule.letterSpacing.names := by
  have hnormal : "normal" ∈ Rule.letterSpacing.names := by simp [Rule.names, letterSpacings]
  rw [letterSpacingName?] at h
  split at h
  · cases h
    exact hnormal
  · obtain ⟨length, -, h⟩ := Option.bind_eq_some_iff.mp h
    split at h
    · exact mem_of_lookup h
    · split at h
      · cases h
        exact hnormal
      · cases h
    · cases h

theorem opacityName?_mem (h : opacityName? value = some name) : name ∈ Rule.opacity.names := by
  obtain ⟨length, -, h⟩ := Option.bind_eq_some_iff.mp h
  split at h
  · exact mem_of_lookup h
  · obtain ⟨step, hfind, rfl⟩ := Option.map_eq_some_iff.mp h
    exact List.mem_map.mpr ⟨step, List.mem_of_find?_eq_some hfind, rfl⟩
  · cases h

theorem flexName?_mem (h : flexName? value = some name) :
    name ∈ ["1", "auto", "initial", "none"] := by
  rw [flexName?] at h
  repeat' split at h
  all_goals simp_all

theorem levelClass?_named (h : levelClass? value = some c) : IsNamed "z" Rule.level.names c := by
  rw [levelClass?] at h
  split at h
  · cases h
    exact isNamed_hyphenated List.mem_cons_self
  · split at h
    next sign magnitude hsplit =>
    split at h
    · next hlevel =>
      cases h
      refine ⟨sign, ?_, magnitude, List.mem_cons_of_mem _ (List.contains_iff_mem.mp hlevel), ?_⟩
      · split at hsplit <;> cases hsplit
        · exact List.mem_cons_of_mem _ (List.mem_singleton_self _)
        · exact List.mem_cons_self
      · rfl
    · cases h

theorem mem_map_of_map {f : String → String} {found : Option String} (h : found.map f = some c)
    (hnames : ∀ name, found = some name → name ∈ names) : c ∈ names.map f := by
  obtain ⟨name, hname, rfl⟩ := Option.map_eq_some_iff.mp h
  exact List.mem_map_of_mem (hnames name hname)

/-- A class for a count of tracks. -/
def IsTracks (rule : Rule) (c : String) : Prop :=
  ∃ stem digits, rule = .tracks stem ∧ isDigits digits ∧ c = hyphenated stem (String.ofList digits)

theorem trackName?_cases (h : trackName? value = some name) :
    name = "none" ∨ ∃ digits, isDigits digits ∧ name = String.ofList digits := by
  rw [trackName?] at h
  split at h
  · cases h
    exact .inl rfl
  · obtain ⟨digits, -, h⟩ := Option.bind_eq_some_iff.mp h
    split at h
    · next hdigits =>
      cases h
      exact .inr ⟨digits, hdigits, rfl⟩
    · cases h

/-- What is added to the class of rounded corners is nothing, or a name with a hyphen. -/
theorem radius_named : ∀ added ∈ radii.map Prod.snd,
    "rounded" ++ added ∈ Rule.radius.members ∨
      IsNamed "rounded" Rule.radius.names ("rounded" ++ added) ∨
      IsTracks .radius ("rounded" ++ added) := by
  have hadded : ∀ added ∈ radii.map Prod.snd, "rounded" ++ added ∈ Rule.radius.members ∨
      ∃ name ∈ Rule.radius.names, "rounded" ++ added = hyphenated "rounded" name := by
    decide +kernel
  intro added hmem
  rcases hadded added hmem with h | ⟨name, hname, h⟩
  · exact .inl h
  · rw [h]
    exact .inr (.inl (isNamed_hyphenated hname))

/-- What the classes of the scales look like. -/
theorem Rule.named_cases {rule : Rule} (h : rule.named? value = some c) :
    c ∈ rule.members ∨ IsNamed rule.stem rule.names c ∨ IsTracks rule c := by
  cases rule <;> rw [named?] at h
  case color => exact .inr (.inl (isNamed_of_map h fun _ => mem_of_lookup))
  case lineHeight => exact .inr (.inl (isNamed_of_map h fun _ => lineHeightName?_mem))
  case letterSpacing => exact .inr (.inl (isNamed_of_map h fun _ => letterSpacingName?_mem))
  case maxWidth => exact .inr (.inl (isNamed_of_map h fun _ => maxWidthName?_mem))
  case opacity => exact .inr (.inl (isNamed_of_map h fun _ => opacityName?_mem))
  case spacing => exact .inr (.inl (spacingClass?_named h))
  case level => exact .inr (.inl (levelClass?_named h))
  case fontSize => exact .inl (mem_map_of_map h fun _ => mem_of_bind_lookup)
  case fontWeight => exact .inl (mem_map_of_map h fun _ => mem_of_lookup)
  case flex => exact .inl (mem_map_of_map h fun _ => flexName?_mem)
  case borderWidth => exact .inl (mem_map_of_map h fun _ => mem_of_bind_lookup)
  case keywords => exact .inl (mem_of_lookup h)
  case sizing stem =>
    refine .inr (.inl ?_)
    split at h
    · next name hname =>
      cases h
      exact isNamed_hyphenated (List.mem_append_left _ (sizeName?_mem hname))
    · rcases Option.or_eq_some_iff.mp h with h | ⟨-, h⟩
      · refine (fractionClass?_named h).mono ?_
        exact List.Subset.trans (List.subset_append_left _ _) (List.subset_append_right _ _)
      · refine (spacingClass?_named h).mono ?_
        exact List.Subset.trans (List.subset_append_right _ _) (List.subset_append_right _ _)
  case radius =>
    split at h
    · cases h
      have hfull : "full" ∈ radius.names := by decide
      exact .inr (.inl (isNamed_hyphenated hfull))
    · obtain ⟨added, hadded, rfl⟩ := Option.map_eq_some_iff.mp h
      exact radius_named _ (mem_of_bind_lookup hadded)
  case shadow =>
    split at h
    · cases h
      exact .inr (.inl (isNamed_hyphenated List.mem_cons_self))
    · cases h
  case toggle stem =>
    split at h
    · cases h
      exact .inl List.mem_cons_self
    · cases h
      exact .inr (.inl (isNamed_hyphenated List.mem_cons_self))
    · cases h
  case tracks stem =>
    obtain ⟨name, hname, rfl⟩ := Option.map_eq_some_iff.mp h
    rcases trackName?_cases hname with rfl | ⟨digits, hdigits, rfl⟩
    · exact .inr (.inl (isNamed_hyphenated List.mem_cons_self))
    · exact .inr (.inr ⟨stem, digits, rfl, hdigits, rfl⟩)

end

end MarkupEdit.Style
