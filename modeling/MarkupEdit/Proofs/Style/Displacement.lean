import MarkupEdit.Style.ClassList

/-!
# Which classes displace which

A class displaces another if their keys have the same variants and importance, and the group of the one
is that of the other or covers it. What a group of the table covers is listed in full: the groups that a
covered group covers are in the list too. So displacement goes through: what displaces a class displaces
all that this class displaces, itself apart.

* `Group.replaces_iff`, `displaces_iff`: both relations, taken apart.
* `mem_covers_trans`: **a group covers what the groups that it covers cover.**
* `displaces_trans`: **a class displaces what the classes that it displaces displace.**
* `variantsOf`: the variants of a class, which it shares with what it displaces.
-/

namespace MarkupEdit.Style

/-! ## Groups -/

variable {g h k : Group}

/-- A group replaces itself and the groups that it covers, which are groups of the table. -/
theorem Group.replaces_iff :
    g.replaces h = true ↔
      g = h ∨ ∃ wide narrow group, g = .listed wide ∧ h = .listed narrow ∧
        conflictGroup? wide = some group ∧ narrow ∈ group.covers := by
  unfold Group.replaces
  rw [Bool.or_eq_true, beq_iff_eq]
  refine or_congr_right ?_
  constructor
  · intro hcovers
    split at hcovers
    · next wide narrow =>
      cases hwide : conflictGroup? wide with
      | none =>
        rw [hwide] at hcovers
        cases hcovers
      | some group =>
        rw [hwide] at hcovers
        exact ⟨wide, narrow, group, rfl, rfl, hwide, List.contains_iff_mem.mp hcovers⟩
    · cases hcovers
  · rintro ⟨wide, narrow, group, rfl, rfl, hwide, hmem⟩
    dsimp only
    rw [hwide, Option.map_some, Option.getD_some]
    exact List.contains_iff_mem.mpr hmem

/-- **A group covers what the groups that it covers cover.** -/
theorem mem_covers_trans {wide middle : ConflictGroup} (hwide : wide ∈ conflictGroups)
    {name narrow : String} (hname : name ∈ wide.covers) (hmiddle : conflictGroup? name = some middle)
    (hnarrow : narrow ∈ middle.covers) : narrow ∈ wide.covers := by
  have hall : ∀ wide ∈ conflictGroups, ∀ name ∈ wide.covers, ∀ middle ∈ conflictGroup? name,
      ∀ narrow ∈ middle.covers, narrow ∈ wide.covers := by decide +kernel
  exact hall wide hwide name hname middle hmiddle narrow hnarrow

theorem Group.replaces_trans (hgh : g.replaces h = true) (hhk : h.replaces k = true) :
    g.replaces k = true := by
  obtain rfl | ⟨wide, name, group, rfl, rfl, hwide, hname⟩ := Group.replaces_iff.mp hgh
  · exact hhk
  obtain rfl | ⟨middle, narrow, other, heq, rfl, hmiddle, hnarrow⟩ := Group.replaces_iff.mp hhk
  · exact hgh
  obtain rfl : name = middle := Group.listed.inj heq
  have hgroup : group ∈ conflictGroups := List.mem_of_find?_eq_some hwide
  exact Group.replaces_iff.mpr (.inr ⟨wide, narrow, group, rfl, rfl, hwide,
    mem_covers_trans hgroup hname hmiddle hnarrow⟩)

/-! ## Keys -/

theorem Key.displaces_iff {k l : Key} :
    k.displaces l = true ↔
      k.variants = l.variants ∧ k.important = l.important ∧ k.group.replaces l.group = true := by
  rw [Key.displaces, Bool.and_eq_true, Bool.and_eq_true, beq_iff_eq, beq_iff_eq, and_assoc]

theorem Key.displaces_trans {k l m : Key} (hkl : k.displaces l = true) (hlm : l.displaces m = true) :
    k.displaces m = true := by
  obtain ⟨hvariants, himportant, hgroups⟩ := Key.displaces_iff.mp hkl
  obtain ⟨hvariants', himportant', hgroups'⟩ := Key.displaces_iff.mp hlm
  exact Key.displaces_iff.mpr ⟨hvariants.trans hvariants', himportant.trans himportant',
    Group.replaces_trans hgroups hgroups'⟩

/-! ## Classes -/

namespace ClassList

variable {c d t : String}

/-- A class displaces another one if its key displaces that of the other. -/
theorem displaces_iff :
    displaces t c = true ↔
      t ≠ c ∧ ∃ k l, Key.of? t = some k ∧ Key.of? c = some l ∧ k.displaces l = true := by
  unfold displaces
  rw [Bool.and_eq_true, bne_iff_ne]
  refine and_congr_right fun _ => ?_
  constructor
  · intro h
    split at h
    · next k l hk hl => exact ⟨k, l, hk, hl, h⟩
    · cases h
  · rintro ⟨k, l, hk, hl, h⟩
    rw [hk, hl]
    exact h

/-- **A class displaces what the classes that it displaces displace**, but not itself. -/
theorem displaces_trans (htd : displaces t d = true) (hdc : displaces d c = true) (hne : t ≠ c) :
    displaces t c = true := by
  obtain ⟨-, k, l, hk, hl, hkl⟩ := displaces_iff.mp htd
  obtain ⟨-, l', m, hl', hm, hlm⟩ := displaces_iff.mp hdc
  obtain rfl : l = l' := Option.some.inj (hl.symm.trans hl')
  exact displaces_iff.mpr ⟨hne, k, m, hk, hm, Key.displaces_trans hkl hlm⟩

/-- The variants of a class, with their colons. -/
def variantsOf (token : String) : String := String.ofList (splitVariants token.toList).1

theorem variants_of_key {k : Key} (h : Key.of? t = some k) : k.variants = variantsOf t := by
  unfold Key.of? at h
  dsimp only at h
  obtain ⟨group, -, rfl⟩ := Option.map_eq_some_iff.mp h
  rfl

/-- A class displaces classes with its own variants only. -/
theorem variantsOf_of_displaces (h : displaces t c = true) : variantsOf t = variantsOf c := by
  obtain ⟨-, k, l, hk, hl, hkl⟩ := displaces_iff.mp h
  rw [← variants_of_key hk, ← variants_of_key hl, (Key.displaces_iff.mp hkl).1]

end ClassList

end MarkupEdit.Style
