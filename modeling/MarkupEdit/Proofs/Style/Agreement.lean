import MarkupEdit.Proofs.Style.Kind
import MarkupEdit.Proofs.Style.Survivors

/-!
# Classes of one property

The class of a declaration is made from its property, but what it takes away is told from the class
alone. The two agree as long as the values are of one kind; behind a stem for colours and beside a
table of keywords there are several.

* `inGroup_of_tableGroup?`: the group of a class that needs no search for its longest stem.
* `exists_group`: **a property has one group for each kind of value.**
* `ClassList.merge_of_kind`: **the class of a later value of the same kind replaces the earlier
  one.**
* `ClassList.merge_background`: a colour and an image do not replace one another, nor does a class with
  a colon outside brackets replace another.
-/

namespace MarkupEdit.Style

open MarkupEdit.Text

/-! ## Keywords -/

/-- The group of a class behind a steady stem that is clear for its value. -/
def steadyGroup? (c : String) : Option ConflictGroup :=
  (stemTable.find? fun entry => (restBehind? entry.2 c).any fun value =>
      value ≠ [] ∧ properStart entry.2.toList ∧ Clear entry.2 value).bind fun entry =>
    (stemGroup? entry.2).filter ConflictGroup.isSteady

/-- The group of a member, or of a class behind a steady stem. -/
def tableGroup? (c : String) : Option ConflictGroup := (memberGroup? c).or (steadyGroup? c)

variable {c property : String} {group : ConflictGroup}

theorem inGroup_of_tableGroup? (h : tableGroup? c = some group) (hstart : properStart c.toList)
    (hlast : c.toList.getLast? ≠ some '!') : InGroup c (.listed group.name) := by
  rcases Option.or_eq_some_iff.mp h with h | ⟨-, h⟩
  · exact inGroup_of_member h hstart hlast
  · obtain ⟨entry, hfind, h⟩ := Option.bind_eq_some_iff.mp h
    have hfound := List.find?_some hfind
    obtain ⟨value, hvalue, hcheck⟩ := (Option.any_eq_true _ _).mp hfound
    obtain ⟨hnil, hproper, hclear⟩ := of_decide_eq_true hcheck
    obtain ⟨hgroup, hsteady⟩ := Option.filter_eq_some_iff.mp h
    have hc : c.toList = entry.2.toList ++ value := restBehind?_eq_some_iff.mp hvalue
    -- the end of the value is the end of the class
    have hlast : value.getLast? ≠ some '!' := by
      rwa [hc, List.getLast?_append_of_ne_nil _ hnil] at hlast
    exact inGroup_of_stem List.mem_cons_self hgroup hproper hclear hnil hlast
      (groupOfValue?_of_isSteady hsteady) hc

/-- The group of the first one of some keywords. -/
def keywordGroup? (classes : List (String × String)) : Option String :=
  (classes.head?.bind fun keyword => tableGroup? keyword.2).map ConflictGroup.name

/-- The classes of the keywords of a property are in one group. -/
theorem keywordTable_grouped : ∀ entry ∈ keywordTable, (keywordGroup? entry.2).any fun name =>
    entry.2.all fun keyword => (tableGroup? keyword.2).any fun group => group.name == name := by
  decide +kernel

theorem keywordTable_proper : ∀ entry ∈ keywordTable,
    entry.1.toList ≠ [] ∧ ':' ∉ entry.1.toList ∧ ∀ keyword ∈ entry.2,
      properStart keyword.2.toList ∧ keyword.2.toList.getLast? ≠ some '!' := by
  decide +kernel

theorem bracketedProperty?_eq {p w : List Char} (hnil : p ≠ []) (hcolon : ':' ∉ p) :
    bracketedProperty? ('[' :: (p ++ ':' :: (w ++ [']']))) = some p := by
  have hend : dropEnd? [']'] (p ++ ':' :: (w ++ [']'])) = some (p ++ ':' :: w) :=
    dropEnd?_eq_some_iff.mpr (by simp)
  have hsplit : splitFirst? (· == ':') (p ++ ':' :: w) = some (p, w) :=
    splitFirst?_append (fun d hd => beq_false_of_ne (ne_of_mem_of_not_mem hd hcolon)) rfl
  rw [bracketedProperty?, hend, Option.bind_some, hsplit, Option.bind_some]
  exact if_neg (by rwa [List.isEmpty_iff])

/-- A declaration in brackets is in the group of its property. -/
theorem inGroup_of_property {w : List Char} (hnil : property.toList ≠ [])
    (hcolon : ':' ∉ property.toList)
    (hc : c.toList = '[' :: (property.toList ++ ':' :: (w ++ [']']))) :
    InGroup c (.property property) := by
  have hlast : c.toList = ('[' :: (property.toList ++ ':' :: w)) ++ [']'] := by
    rw [hc]
    simp
  refine ⟨?_, ?_, ?_⟩
  · have hunsigned : unsigned c.toList = c.toList := by
      rw [hc]
      rfl
    rw [hunsigned, hc, classify?, bracketedProperty?_eq hnil hcolon]
    simp only [String.ofList_toList]
  · rw [hc]
    exact fun h => absurd (Option.some.inj h) (by decide)
  · rw [hlast, List.getLast?_concat]
    decide

/-- A table of keywords has two kinds of values: its keywords, whose classes are in one group, and
all others, which stand in brackets together with the property. -/
theorem keywords_exists_group {classes : List (String × String)}
    (h : (property, classes) ∈ keywordTable) (kind : ValueKind) :
    ∃ group, ∀ value, (Rule.keywords property classes).kind? value = some kind →
      InGroup ((Rule.keywords property classes).classOf value) group := by
  obtain ⟨name, -, hname⟩ := (Option.any_eq_true _ _).mp (keywordTable_grouped _ h)
  obtain ⟨hnil, hcolon, hproper⟩ := keywordTable_proper _ h
  refine ⟨if kind = .named then .listed name else .property property, fun value hkind => ?_⟩
  rw [Rule.kind?] at hkind
  rw [Rule.classOf]
  cases hnamed : (Rule.keywords property classes).named? value with
  | some c =>
    rw [hnamed] at hkind
    obtain rfl : ValueKind.named = kind := Option.some.inj hkind
    have hmem : (asciiLower value, c) ∈ classes := pair_mem_of_lookup hnamed
    obtain ⟨group, hgroup, hname⟩ := (Option.any_eq_true _ _).mp (List.all_eq_true.mp hname _ hmem)
    obtain ⟨hstart, hlast⟩ := hproper _ hmem
    rw [if_pos rfl, ← beq_iff_eq.mp hname]
    exact inGroup_of_tableGroup? hgroup hstart hlast
  | none =>
    rw [hnamed] at hkind
    obtain rfl : ValueKind.any = kind := Option.some.inj hkind
    rw [if_neg (by decide)]
    refine inGroup_of_property (w := written value) hnil hcolon ?_
    rw [Option.getD_none, Rule.bracketed, Rule.opening]
    simp [written]

/-- **A property has one group for each kind of value.** -/
theorem exists_group {rule : Rule} (h : rule? property = some rule) (kind : ValueKind) :
    ∃ group, ∀ value, value ≠ "" → rule.kind? value = some kind →
      InGroup (rule.classOf value) group := by
  rw [rule?] at h
  split at h
  · next rule' hlookup =>
    cases h
    obtain ⟨group, hgroup⟩ := Rule.has_group (pair_mem_of_lookup hlookup)
    exact ⟨_, fun value hvalue hkind => hgroup.inGroup_classOf hvalue hkind⟩
  · obtain ⟨classes, hlookup, rfl⟩ := Option.map_eq_some_iff.mp h
    obtain ⟨group, hgroup⟩ := keywords_exists_group (pair_mem_of_lookup hlookup) kind
    exact ⟨group, fun value _ => hgroup value⟩

/-! ## Declarations -/

/-- Whether a value ends with the mark `!important`. -/
def isImportant (value : String) : Bool := (splitMark (trim value.toList)).1

/-- A value without that mark and without the blanks at its ends. -/
def plainValue (value : String) : String := String.ofList (splitMark (trim value.toList)).2

/-- The kind of the value of a declaration. -/
def kindOf? (property value : String) : Option ValueKind :=
  (rule? (kebabCase (trimmed property))).bind (Rule.kind? (plainValue value))

/-- A class with its mark of importance, if it has one. -/
def marked (important : Bool) (c : String) : String := (if important then "!" else "") ++ c

variable {important : Bool} {value : String}

theorem utilityClass?_eq_some (h : utilityClass? property value = some c) :
    ∃ rule, rule? (kebabCase (trimmed property)) = some rule ∧ plainValue value ≠ "" ∧
      c = marked (isImportant value) (rule.classOf (plainValue value)) := by
  rw [utilityClass?] at h
  dsimp only at h
  split at h
  · cases h
  · next hplain =>
    obtain ⟨rule, hrule, rfl⟩ := Option.map_eq_some_iff.mp h
    refine ⟨rule, hrule, fun hnil => hplain ?_, rfl⟩
    rw [List.isEmpty_iff]
    exact String.ofList_injective hnil

theorem splitImportant_marked {group : Group} (h : InGroup c group) :
    splitImportant (marked important c).toList = (important, c.toList) := by
  cases important with
  | true =>
    have hc : (marked true c).toList = '!' :: c.toList := by
      rw [marked, String.toList_append]
      rfl
    rw [hc]
    rfl
  | false =>
    have hstart : dropStart? ['!'] c.toList = none := by
      refine Option.eq_none_iff_forall_ne_some.mpr fun rest hrest => h.first ?_
      rw [dropStart?_eq_some_iff.mp hrest]
      rfl
    have hend : dropEnd? ['!'] c.toList = none := by
      refine Option.eq_none_iff_forall_ne_some.mpr fun rest hrest => h.last ?_
      rw [dropEnd?_eq_some_iff.mp hrest, List.getLast?_concat]
    have hc : marked false c = c := String.empty_append
    rw [hc, splitImportant, hstart, hend]

/-- The key of a class of a group that no variants stand in front of. -/
theorem key_of_inGroup {group : Group} (h : InGroup c group)
    (hplain : ClassList.isPlain (marked important c)) :
    Key.of? (marked important c) = some ⟨"", important, group⟩ := by
  -- without variants the whole class is the utility
  have hvariants : (splitVariants (marked important c).toList).1 = [] := List.isEmpty_iff.mp hplain
  have hutility := splitVariants_append (marked important c).toList
  rw [hvariants, List.nil_append] at hutility
  rw [Key.of?]
  simp only [hvariants, hutility, splitImportant_marked h, h.group]
  rfl

namespace ClassList

variable {v₁ v₂ c₁ c₂ : String} {kind : ValueKind}

theorem merge_of_key {k : Key} (h₁ : Key.of? c₁ = some k) (h₂ : Key.of? c₂ = some k) :
    merge [c₁] [c₂] = [c₂] := by
  by_cases hne : c₂ = c₁
  · subst hne
    simp [merge, absorb, displaces_self]
  · simp [merge, absorb, displaces_of_key hne h₂ h₁]

/-- **A later value of the same kind replaces the earlier one.** If a property is given twice, both
times with the mark of importance or both times without, and its values are of one kind, then the
class of the second value takes the place of the class of the first. No colon may stand outside
brackets in the classes; it would be taken for the end of a variant. -/
theorem merge_of_kind (h₁ : utilityClass? property v₁ = some c₁)
    (h₂ : utilityClass? property v₂ = some c₂) (himportant : isImportant v₁ = isImportant v₂)
    (hplain₁ : isPlain c₁) (hplain₂ : isPlain c₂) (hkind₁ : kindOf? property v₁ = some kind)
    (hkind₂ : kindOf? property v₂ = some kind) : merge [c₁] [c₂] = [c₂] := by
  -- one rule makes both classes, and for one kind it has one group
  obtain ⟨rule, hrule, hvalue₁, rfl⟩ := utilityClass?_eq_some h₁
  obtain ⟨rule', hrule', hvalue₂, rfl⟩ := utilityClass?_eq_some h₂
  obtain rfl : rule = rule' := Option.some.inj (hrule.symm.trans hrule')
  rw [kindOf?, hrule, Option.bind_some] at hkind₁ hkind₂
  obtain ⟨group, hgroup⟩ := exists_group hrule kind
  rw [← himportant] at hplain₂ ⊢
  exact merge_of_key (key_of_inGroup (hgroup _ hvalue₁ hkind₁) hplain₁)
    (key_of_inGroup (hgroup _ hvalue₂ hkind₂) hplain₂)

/-- A size of the scale gives way to a size in brackets. -/
theorem merge_fontSize :
    utilityClass? "fontSize" "16px" = some "text-base" ∧
      utilityClass? "fontSize" "1.1rem" = some "text-[1.1rem]" ∧
      merge ["text-base"] ["text-[1.1rem]"] = ["text-[1.1rem]"] := by
  have h₁ : utilityClass? "fontSize" "16px" = some "text-base" := by decide +kernel
  have h₂ : utilityClass? "fontSize" "1.1rem" = some "text-[1.1rem]" := by decide +kernel
  have hkind₁ : kindOf? "fontSize" "16px" = some .length := by decide +kernel
  have hkind₂ : kindOf? "fontSize" "1.1rem" = some .length := by decide +kernel
  exact ⟨h₁, h₂, merge_of_kind h₁ h₂ (by decide +kernel) (by decide +kernel) (by decide +kernel)
    hkind₁ hkind₂⟩

/-- The colour of a background stays beside its image: they are in two groups, though one property
sets both. And of two widths both stay, which are of one kind, if a bracket too many lets a colon stand
outside of the others: what is in front of the colon is a variant then. -/
theorem merge_background :
    (utilityClass? "background" "#fff" = some "bg-white" ∧
      utilityClass? "background" "url(/a.png)" = some "bg-[url(/a.png)]" ∧
      isImportant "#fff" = isImportant "url(/a.png)" ∧
      merge ["bg-white"] ["bg-[url(/a.png)]"] = ["bg-white", "bg-[url(/a.png)]"]) ∧
    (utilityClass? "width" "16px" = some "w-4" ∧
      utilityClass? "width" "a]:b" = some "w-[a]:b]" ∧
      isImportant "16px" = isImportant "a]:b" ∧
      (kindOf? "width" "16px" = some .any ∧ kindOf? "width" "a]:b" = some .any) ∧
      (splitVariants "w-[a]:b]".toList).1 = "w-[a]:".toList ∧
      merge ["w-4"] ["w-[a]:b]"] = ["w-4", "w-[a]:b]"]) := by
  decide +kernel

end ClassList

end MarkupEdit.Style
