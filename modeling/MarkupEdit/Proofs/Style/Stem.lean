import Mathlib.Data.List.Basic
import MarkupEdit.Style.ClassList

/-!
# Classes behind a stem

A utility is a member of a group, or it is a stem of a group with a value behind it. Which one it is
depends on all other members and stems; it is plain where none of them goes on as the value does.

* `membersBehind`, `stemsBehind`: how members and stems go on behind a text.
* `Clear`: nothing but a stem itself is in the way of a value behind it.
* `longestStem?_of_clear`: the longest stem of such a class.
* `classify?_of_clear`, `classify?_of_member`: **the group of a class, by its stem and as a
  member.**
* `InGroup`: a utility of a group, without a mark of importance.
-/

namespace MarkupEdit.Style

open MarkupEdit.Text

/-! ## The entries of the table -/

/-- All members of groups. -/
def memberTable : List String := conflictGroups.flatMap ConflictGroup.members

/-- All stems with their groups. -/
def stemTable : List (ConflictGroup × String) :=
  conflictGroups.flatMap fun group => group.stems.map fun stem => (group, stem)

def bytes (s : String) : List UInt8 := s.toByteArray.data.toList

/-- The rest of a text behind a start of it. Few texts have the start in question, and bytes tell
that faster than characters. -/
def restBehind? (start text : String) : Option (List Char) :=
  if (bytes start).isPrefixOf (bytes text) then dropStart? start.toList text.toList else none

/-- How the members that start with a text go on. -/
def membersBehind (start : String) : List (List Char) := memberTable.filterMap (restBehind? start)

/-- How the stems that start with a text go on. -/
def stemsBehind (start : String) : List (List Char) :=
  stemTable.filterMap fun entry => restBehind? start entry.2

/-- The group with a stem. -/
def stemGroup? (stem : String) : Option ConflictGroup :=
  (stemTable.find? fun entry => entry.2 == stem).map Prod.fst

/-- The group with a member. -/
def memberGroup? (token : String) : Option ConflictGroup :=
  conflictGroups.find? fun group => group.members.contains token

theorem bytes_append (s t : String) : bytes (s ++ t) = bytes s ++ bytes t := by
  rw [bytes, String.toByteArray_append, ByteArray.data_append, Array.toList_append, bytes, bytes]

theorem restBehind?_eq_some_iff {start text : String} {rest : List Char} :
    restBehind? start text = some rest ↔ text.toList = start.toList ++ rest := by
  rw [restBehind?]
  split
  · exact dropStart?_eq_some_iff
  · next h =>
    refine ⟨nofun, fun htext => absurd ?_ h⟩
    have htext : text = start ++ String.ofList rest :=
      String.toList_inj.mp (by rw [htext, String.toList_append, String.toList_ofList])
    rw [htext, bytes_append, List.isPrefixOf_iff_prefix]
    exact List.prefix_append _ _

/-- Of the members and stems none but a stem itself is in the way of a value behind it. -/
structure Clear (stem : String) (value : List Char) : Prop where
  member : value ∉ membersBehind stem
  longer : ∀ rest ∈ stemsBehind stem, rest <+: value → rest = []

instance (stem : String) (value : List Char) : Decidable (Clear stem value) :=
  decidable_of_iff
    (value ∉ membersBehind stem ∧ ∀ rest ∈ stemsBehind stem, rest <+: value → rest = [])
    ⟨fun ⟨member, longer⟩ => ⟨member, longer⟩, fun h => ⟨h.member, h.longer⟩⟩

variable {stem : String} {value utility : List Char} {group : ConflictGroup} {c : Char}

/-- No entry goes on behind a text with a character. -/
def NeverNext (stem : String) (c : Char) : Prop :=
  ∀ rest ∈ membersBehind stem ++ stemsBehind stem, rest.head? ≠ some c

instance (stem : String) (c : Char) : Decidable (NeverNext stem c) :=
  inferInstanceAs (Decidable (∀ rest ∈ membersBehind stem ++ stemsBehind stem, rest.head? ≠ some c))

/-- A stem is clear for what starts with a character that never comes next. -/
theorem NeverNext.clear (h : NeverNext stem c) : Clear stem (c :: value) := by
  constructor
  · intro hmem
    exact h _ (List.mem_append_left _ hmem) rfl
  · intro rest hmem hprefix
    cases rest with
    | nil => rfl
    | cons d rest =>
      have hd : d = c := (List.cons_prefix_cons.mp hprefix).1
      exact absurd (congrArg some hd) (h _ (List.mem_append_right _ hmem))

/-- A stem is clear for all of some values. -/
def ClearFor (stem : String) (names : List String) : Prop := ∀ name ∈ names, Clear stem name.toList

/-- The entries behind a stem are few, so the values are gone through for each of them. -/
theorem clearFor_iff {names : List String} :
    ClearFor stem names ↔
      (∀ rest ∈ membersBehind stem, ∀ name ∈ names, name.toList ≠ rest) ∧
        ∀ rest ∈ stemsBehind stem, rest = [] ∨ ∀ name ∈ names, ¬ rest <+: name.toList := by
  constructor
  · intro h
    refine ⟨fun rest hrest name hname heq => (h name hname).member (heq ▸ hrest), ?_⟩
    intro rest hrest
    by_cases hnil : rest = []
    · exact .inl hnil
    · exact .inr fun name hname hprefix => hnil ((h name hname).longer rest hrest hprefix)
  · rintro ⟨hmember, hlonger⟩ name hname
    refine ⟨fun hmem => hmember _ hmem name hname rfl, fun rest hrest hprefix => ?_⟩
    exact (hlonger rest hrest).resolve_right fun h => h name hname hprefix

instance (stem : String) (names : List String) : Decidable (ClearFor stem names) :=
  decidable_of_iff' _ clearFor_iff

/-- A stem in front of which nothing else stands is clear for every value. -/
theorem clear_of_alone (hmembers : membersBehind stem = [])
    (hstems : ∀ rest ∈ stemsBehind stem, rest = []) : Clear stem value :=
  ⟨by rw [hmembers]; exact List.not_mem_nil, fun rest hrest _ => hstems rest hrest⟩

/-! ## The longest stem -/

/-- The better one of two stems that a utility starts with. -/
def better (utility : List Char) (best : Option (ConflictGroup × List Char))
    (entry : ConflictGroup × String) : Option (ConflictGroup × List Char) :=
  match dropStart? entry.2.toList utility with
  | none | some [] => best
  | some value =>
    match best with
    | none => some (entry.1, value)
    | some (_, other) => if value.length < other.length then some (entry.1, value) else best

theorem longestStem?_eq : longestStem? utility = stemTable.foldl (better utility) none := by
  rw [longestStem?, stemTable, List.foldl_flatMap]
  simp only [List.foldl_map]
  rfl

/-- Of the stems that a class with a clear stem starts with, that one leaves the least. -/
theorem Clear.length_le {entry : ConflictGroup × String} {rest : List Char}
    (h : Clear stem value) (hentry : entry ∈ stemTable)
    (hrest : dropStart? entry.2.toList (stem.toList ++ value) = some rest) :
    value.length ≤ rest.length ∧ (rest.length = value.length → entry.2 = stem) := by
  rcases List.append_eq_append_iff.mp (dropStart?_eq_some_iff.mp hrest) with
    ⟨more, hstem, hvalue⟩ | ⟨more, hstem, hvalue⟩
  · have hmem : more ∈ stemsBehind stem :=
      List.mem_filterMap.mpr ⟨entry, hentry, restBehind?_eq_some_iff.mpr hstem⟩
    obtain rfl : more = [] := h.longer more hmem ⟨rest, hvalue.symm⟩
    rw [List.append_nil] at hstem
    rw [List.nil_append] at hvalue
    exact ⟨Nat.le_of_eq (congrArg List.length hvalue), fun _ => String.toList_inj.mp hstem⟩
  · rw [hvalue, List.length_append]
    refine ⟨Nat.le_add_left _ _, fun hlength => ?_⟩
    obtain rfl : more = [] := List.length_eq_zero_iff.mp (by omega)
    rw [List.append_nil] at hstem
    exact (String.toList_inj.mp hstem).symm

/-- In front of a clear stem, all stems that a class starts with leave more of it. -/
theorem Clear.length_lt {before : List (ConflictGroup × String)} (h : Clear stem value)
    (hmem : ∀ e ∈ before, e ∈ stemTable) (hother : ∀ e ∈ before, e.2 ≠ stem) :
    ∀ best, before.foldl (better (stem.toList ++ value)) none = some best →
      value.length < best.2.length := by
  refine List.foldlRecOn before (better (stem.toList ++ value))
    (motive := fun best => ∀ e, best = some e → value.length < e.2.length) nofun ?_
  intro best hbest e he e' he'
  rw [better] at he'
  split at he'
  · exact hbest e' he'
  · exact hbest e' he'
  · next rest _ hrest =>
    obtain ⟨hle, heq⟩ := h.length_le (hmem e he) hrest
    have hlt : value.length < rest.length :=
      Nat.lt_of_le_of_ne hle fun hlength => hother e he (heq hlength.symm)
    -- the entry is taken, or the best one stays
    split at he'
    · cases he'
      exact hlt
    · split at he'
      · cases he'
        exact hlt
      · exact hbest e' he'

/-- Behind a clear stem, no stem is better. -/
theorem Clear.foldl_better {behind : List (ConflictGroup × String)} (h : Clear stem value)
    (hmem : ∀ e ∈ behind, e ∈ stemTable) :
    behind.foldl (better (stem.toList ++ value)) (some (group, value)) = some (group, value) := by
  refine List.foldlRecOn behind (better (stem.toList ++ value))
    (motive := fun best => best = some (group, value)) rfl ?_
  rintro _ rfl e he
  rw [better]
  split
  · rfl
  · rfl
  · next rest _ hrest =>
    have hle := (h.length_le (hmem e he) hrest).1
    exact if_neg (by omega)

/-- A stem is taken if what the best one so far leaves is longer. -/
theorem better_eq {entry : ConflictGroup × String} {best : Option (ConflictGroup × List Char)}
    (hvalue : value ≠ []) (hbest : ∀ b, best = some b → value.length < b.2.length) :
    better (entry.2.toList ++ value) best entry = some (entry.1, value) := by
  rw [better, dropStart?_eq_some_iff.mpr rfl]
  cases value with
  | nil => exact absurd rfl hvalue
  | cons c value =>
    cases best with
    | none => rfl
    | some best => exact if_pos (hbest best rfl)

/-- The stem of a class for which it is clear. -/
theorem longestStem?_of_clear (hgroup : stemGroup? stem = some group) (hclear : Clear stem value)
    (hvalue : value ≠ []) : longestStem? (stem.toList ++ value) = some (group, value) := by
  obtain ⟨entry, hfind, rfl⟩ := Option.map_eq_some_iff.mp hgroup
  obtain ⟨hstem, before, behind, htable, hbefore⟩ := List.find?_eq_some_iff_append.mp hfind
  obtain rfl : entry.2 = stem := beq_iff_eq.mp hstem
  have hmem : ∀ e, e ∈ before ∨ e = entry ∨ e ∈ behind → e ∈ stemTable := by
    intro e he
    rw [htable, List.mem_append, List.mem_cons]
    exact he
  have hother : ∀ e ∈ before, e.2 ≠ entry.2 := by
    intro e he
    have := hbefore e he
    rwa [Bool.not_eq_true', beq_eq_false_iff_ne] at this
  have hbest := hclear.length_lt (fun e he => hmem e (.inl he)) hother
  rw [longestStem?_eq, htable, List.foldl_append, List.foldl_cons, better_eq hvalue hbest]
  exact hclear.foldl_better fun e he => hmem e (.inr (.inr he))

/-! ## The group of a class -/

theorem bracketedProperty?_eq_none (h : utility.head? ≠ some '[') :
    bracketedProperty? utility = none := by
  rw [bracketedProperty?]
  rintro inside rfl
  exact h rfl

/-- **The group of a class whose stem is clear** for its value depends on both alone. -/
theorem classify?_of_clear (hgroup : stemGroup? stem = some group) (hclear : Clear stem value)
    (hvalue : value ≠ []) (hfirst : (stem.toList ++ value).head? ≠ some '[') :
    classify? (stem.toList ++ value) = (groupOfValue? group value).map .listed := by
  have hmember : conflictGroups.find?
      (fun g => g.members.contains (String.ofList (stem.toList ++ value))) = none := by
    refine List.find?_eq_none.mpr fun g hg h => hclear.member (List.mem_filterMap.mpr ?_)
    refine ⟨_, List.mem_flatMap.mpr ⟨g, hg, List.contains_iff_mem.mp h⟩, ?_⟩
    exact restBehind?_eq_some_iff.mpr String.toList_ofList
  rw [classify?, bracketedProperty?_eq_none hfirst]
  simp only [hmember, longestStem?_of_clear hgroup hclear hvalue]

/-- **The group of a member.** -/
theorem classify?_of_member {token : String} (hgroup : memberGroup? token = some group)
    (hfirst : token.toList.head? ≠ some '[') :
    classify? token.toList = some (.listed group.name) := by
  rw [memberGroup?] at hgroup
  rw [classify?, bracketedProperty?_eq_none hfirst]
  simp only [String.ofList_toList, hgroup]

/-! ## Utilities of a group -/

/-- A utility of a group, perhaps with a sign, but without a mark of importance. -/
structure InGroup (c : String) (group : Group) : Prop where
  group : classify? (unsigned c.toList) = some group
  first : c.toList.head? ≠ some '!'
  last : c.toList.getLast? ≠ some '!'

/-- Whether a text starts with a letter or the like, neither with a bracket nor with a mark. -/
def properStart (s : List Char) : Bool :=
  (s.head?.map (fun c => c != '[' && c != '-' && c != '!')).getD false

variable {sign c name : String} {s : List Char}

theorem properStart_cases (h : properStart s) :
    ∃ c rest, s = c :: rest ∧ c ≠ '[' ∧ c ≠ '-' ∧ c ≠ '!' := by
  cases s with
  | nil => cases h
  | cons c rest =>
    simp only [properStart, List.head?_cons, Option.map_some, Option.getD_some, Bool.and_eq_true,
      bne_iff_ne] at h
    exact ⟨c, rest, rfl, h.1.1, h.1.2, h.2⟩

theorem unsigned_of_properStart (h : properStart s) : unsigned s = s := by
  obtain ⟨c, rest, rfl, -, hc, -⟩ := properStart_cases h
  rw [unsigned, dropStart?, if_neg (Ne.symm hc)]
  rfl

theorem unsigned_minus : unsigned ('-' :: s) = s := rfl

theorem properStart_append (h : properStart s) : properStart (s ++ value) := by
  obtain ⟨c, rest, rfl, -⟩ := properStart_cases h
  exact h

theorem head?_ne_of_properStart (h : properStart s) :
    s.head? ≠ some '[' ∧ s.head? ≠ some '!' := by
  obtain ⟨c, rest, rfl, hbracket, -, hmark⟩ := properStart_cases h
  exact ⟨fun h => hbracket (Option.some.inj h), fun h => hmark (Option.some.inj h)⟩

theorem inGroup_of_member (hgroup : memberGroup? c = some group) (hstart : properStart c.toList)
    (hlast : c.toList.getLast? ≠ some '!') : InGroup c (.listed group.name) := by
  obtain ⟨hbracket, hmark⟩ := head?_ne_of_properStart hstart
  refine ⟨?_, hmark, hlast⟩
  rw [unsigned_of_properStart hstart]
  exact classify?_of_member hgroup hbracket

/-- A value behind a clear stem, with a sign in front or without, is in the group of the value. -/
theorem inGroup_of_stem (hsign : sign ∈ ["", "-"]) (hgroup : stemGroup? stem = some group)
    (hstart : properStart stem.toList) (hclear : Clear stem value) (hvalue : value ≠ [])
    (hlast : value.getLast? ≠ some '!') (hname : groupOfValue? group value = some name)
    (hc : c.toList = sign.toList ++ (stem.toList ++ value)) : InGroup c (.listed name) := by
  have hstart' : properStart (stem.toList ++ value) := properStart_append hstart
  obtain ⟨hbracket, hmark⟩ := head?_ne_of_properStart hstart'
  have hclassify : classify? (stem.toList ++ value) = some (.listed name) := by
    rw [classify?_of_clear hgroup hclear hvalue hbracket, hname]
    rfl
  have hlast' : (stem.toList ++ value).getLast? ≠ some '!' := by
    rwa [List.getLast?_append_of_ne_nil _ hvalue]
  have hne : stem.toList ++ value ≠ [] := List.append_ne_nil_of_right_ne_nil _ hvalue
  rcases List.mem_cons.mp hsign with rfl | hsign
  · have hc : c.toList = stem.toList ++ value := hc
    refine ⟨?_, ?_, ?_⟩
    · rw [hc, unsigned_of_properStart hstart', hclassify]
    · rwa [hc]
    · rwa [hc]
  · obtain rfl := List.mem_singleton.mp hsign
    have hc : c.toList = '-' :: (stem.toList ++ value) := hc
    refine ⟨?_, ?_, ?_⟩
    · rw [hc, unsigned_minus, hclassify]
    · rw [hc]
      exact fun h => absurd (Option.some.inj h) (by decide)
    · rwa [hc, List.getLast?_cons_of_ne_nil hne]

end MarkupEdit.Style
