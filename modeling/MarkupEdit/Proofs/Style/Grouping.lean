import MarkupEdit.Proofs.Style.Displacement
import MarkupEdit.Proofs.Style.Remerge

/-!
# The grouping of merges

Classes that are added in one merge or in several give one list. Merging the added classes among
themselves first can lose some that would have displaced others, but those that stay displace the same:
what displaces a lost class displaces all that it displaced.

* `absorbed_absorbed_append`: adding classes to a merge goes on where it ended.
* `redone_absorbed`: **of the classes that displace another one, some stay**, or that one is added again.
* `survives_append_absorbed`: what is behind other classes can be merged first.
* `merge_assoc`: **the grouping of merges does not change the classes.**
-/

namespace MarkupEdit.Style.ClassList

variable {s l : ClassList} {c t : String}

/-! ## Going on with a merge -/

theorem absorbed_append (l s : ClassList) : absorbed (l ++ s) = s.foldl absorb (absorbed l) :=
  List.foldl_append

/-- Adding classes to what is left of others is adding them to these others. -/
theorem absorbed_absorbed_append (l s : ClassList) : absorbed (absorbed l ++ s) = absorbed (l ++ s) := by
  rw [absorbed_append, absorbed_append, absorbed_absorbed]

/-! ## Merging what is added first -/

theorem redone_iff : redone s c = true ↔ ∃ d ∈ s, displaces d c = true := List.any_eq_true

/-- Classes that are left displace no more than all of them. -/
theorem redone_of_absorbed (h : redone (absorbed s) c = true) : redone s c = true := by
  obtain ⟨d, hd, hdisplaces⟩ := redone_iff.mp h
  exact redone_iff.mpr ⟨d, mem_of_survives (mem_absorbed.mp hd), hdisplaces⟩

/-- **Of the classes that displace another one, some stay**, or that one is added again behind them. -/
theorem redone_absorbed (h : redone s c = true) :
    redone (absorbed s) c = true ∨ Survives s c := by
  induction s using List.reverseRecOn with
  | nil => cases h
  | append_singleton s t ih =>
    cases htc : displaces t c with
    | true => exact .inl (redone_iff.mpr ⟨t, mem_absorbed.mpr (survives_concat.mpr (.inr rfl)), htc⟩)
    | false =>
      rw [redone_concat, htc, Bool.or_false] at h
      rcases ih h with hredone | hsurvives
      · -- if the new class takes away the one that displaces, it is the displaced class itself
        obtain ⟨d, hd, hdc⟩ := redone_iff.mp hredone
        cases htd : displaces t d with
        | false =>
          rw [absorbed_concat]
          exact .inl (redone_iff.mpr ⟨d, mem_absorb.mpr (.inl ⟨hd, htd⟩), hdc⟩)
        | true =>
          have hct : c = t := by
            by_contra hne
            rw [displaces_trans htd hdc (Ne.symm hne)] at htc
            cases htc
          exact .inr (survives_concat.mpr (.inr hct))
      · exact .inr (survives_concat.mpr (.inl ⟨hsurvives, htc⟩))

/-- **What is added can be merged first**: the same classes survive. -/
theorem survives_append_absorbed : Survives (l ++ absorbed s) c ↔ Survives (l ++ s) c := by
  have hsame : Survives (absorbed s) c ↔ Survives s c := by
    rw [← mem_absorbed, absorbed_absorbed, mem_absorbed]
  rw [survives_append, survives_append, hsame]
  constructor
  · rintro (⟨hl, hkept⟩ | hs)
    · cases hredone : redone s c with
      | false => exact .inl ⟨hl, rfl⟩
      | true =>
        rcases redone_absorbed hredone with hleft | hs
        · rw [hkept] at hleft
          cases hleft
        · exact .inr hs
    · exact .inr hs
  · rintro (⟨hl, hkept⟩ | hs)
    · refine .inl ⟨hl, Bool.eq_false_iff.mpr fun hleft => ?_⟩
      rw [redone_of_absorbed hleft] at hkept
      cases hkept
    · exact .inr hs

/-! ## Three lists -/

theorem merge_eq_absorbed (existing incoming : ClassList) :
    merge existing incoming = absorbed (existing ++ incoming) := rfl

/-- **The grouping of merges does not change the classes.** Merging two lists in, one after the other,
gives what merging both in at once gives, class by class; merging them among themselves first gives the
same classes, though maybe in another order. -/
theorem merge_assoc (a b c : ClassList) :
    (∀ t, t ∈ merge (merge a b) c ↔ t ∈ merge a (merge b c)) ∧
    (merge (merge a b) c).Perm (merge a (merge b c)) ∧
    merge (merge a b) c = merge a (b ++ c) := by
  have hleft : merge (merge a b) c = absorbed (a ++ (b ++ c)) := by
    rw [merge_eq_absorbed, merge_eq_absorbed, absorbed_absorbed_append, List.append_assoc]
  have hmem : ∀ t, t ∈ merge (merge a b) c ↔ t ∈ merge a (merge b c) := by
    intro t
    rw [hleft, merge_eq_absorbed, merge_eq_absorbed, mem_absorbed, mem_absorbed,
      survives_append_absorbed]
  refine ⟨hmem, ?_, hleft⟩
  exact (List.perm_ext_iff_of_nodup nodup_absorbed nodup_absorbed).mpr hmem

/-- The order can differ: a class that was displaced and added again is behind the others. -/
example : merge (merge ["p-4", "flex"] ["p-8"]) ["p-4"] = ["flex", "p-4"] ∧
    merge ["p-4", "flex"] (merge ["p-8"] ["p-4"]) = ["p-4", "flex"] := by
  decide +kernel

end MarkupEdit.Style.ClassList
