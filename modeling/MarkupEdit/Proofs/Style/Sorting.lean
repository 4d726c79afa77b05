import MarkupEdit.Proofs.Style.Displacement
import MarkupEdit.Proofs.Style.Survivors

/-!
# Sorting and merging commute

The canonical order moves classes past one another, but only classes of different ranks. Classes that
conflict have one rank: they have the same variants, and a group only covers groups of its own
category. So what merging does to the classes of a rank depends on these alone, and the order leaves
them as they are.

* `rank_of_displaces`: **a class displaces classes of its own rank only.**
* `filter_absorbed`: merging goes on among the classes with a property that classes share with those
  that they displace.
* `ofRank_absorbed`, `ofRank_sort`: merging goes on within each rank, and sorting changes no rank.
* `eq_of_ofRank`: a list in the canonical order is told by the classes of each rank.
* `sort_merge`: **sorting a merge is merging what was sorted.**
-/

namespace MarkupEdit.Style

/-! ## Categories of groups that conflict -/

/-- A group covers groups of its own category. -/
theorem category_of_mem_covers {group : ConflictGroup} (h : group ∈ conflictGroups) {name : String}
    (hname : name ∈ group.covers) : (Group.listed name).category = group.category := by
  have hall : ∀ group ∈ conflictGroups, ∀ name ∈ group.covers,
      (Group.listed name).category = group.category := by decide +kernel
  exact hall group h name hname

theorem Group.category_of_replaces {g h : Group} (hr : g.replaces h = true) :
    g.category = h.category := by
  obtain rfl | ⟨wide, narrow, group, rfl, rfl, hwide, hnarrow⟩ := Group.replaces_iff.mp hr
  · rfl
  · have hgroup : group ∈ conflictGroups := List.mem_of_find?_eq_some hwide
    rw [category_of_mem_covers hgroup hnarrow, Group.category, hwide]
    rfl

namespace ClassList

variable {l s : ClassList} {c t : String} {r : Nat}

/-! ## Ranks -/

theorem isPlain_eq (t : String) : isPlain t = (variantsOf t).toList.isEmpty := by
  rw [variantsOf, String.toList_ofList]
  rfl

theorem categoryOf_of_key {k : Key} (h : Key.of? t = some k) : categoryOf t = k.group.category := by
  rw [categoryOf, h, Option.map_some, Option.getD_some]

/-- **A class displaces classes of its own rank only.** -/
theorem rank_of_displaces (h : displaces t c = true) : rank t = rank c := by
  obtain ⟨-, k, m, ht, hc, hkm⟩ := displaces_iff.mp h
  have hgroups := (Key.displaces_iff.mp hkm).2.2
  rw [rank, rank, categoryOf_of_key ht, categoryOf_of_key hc, Group.category_of_replaces hgroups,
    isPlain_eq, isPlain_eq, variantsOf_of_displaces h]

/-! ## Merging in parts -/

/-- A property that a class shares with all that it displaces. -/
def IsShared (p : String → Bool) : Prop := ∀ t c, displaces t c = true → p t = p c

variable {p : String → Bool}

theorem filter_concat_of_pos (h : p t = true) : (l ++ [t]).filter p = l.filter p ++ [t] := by
  rw [List.filter_append, List.filter_cons_of_pos h, List.filter_nil]

theorem filter_concat_of_neg (h : p t = false) : (l ++ [t]).filter p = l.filter p := by
  rw [List.filter_append, List.filter_cons_of_neg (Bool.eq_false_iff.mp h), List.filter_nil,
    List.append_nil]

/-- A class with the property is absorbed by the classes with it. -/
theorem filter_absorb_of_pos (h : p t = true) :
    (absorb l t).filter p = absorb (l.filter p) t := by
  have hkept : (l.filter (fun other => !displaces t other)).filter p =
      (l.filter p).filter (fun other => !displaces t other) := List.filter_comm _ _ _
  have hmem : t ∈ (l.filter p).filter (fun other => !displaces t other) ↔
      t ∈ l.filter (fun other => !displaces t other) := by
    rw [← hkept, List.mem_filter (p := p)]
    exact and_iff_left h
  unfold absorb
  dsimp only
  by_cases hthere : t ∈ l.filter (fun other => !displaces t other)
  · rw [if_pos (List.contains_iff_mem.mpr hthere),
      if_pos (List.contains_iff_mem.mpr (hmem.mpr hthere)), hkept]
  · rw [if_neg (mt List.contains_iff_mem.mp hthere),
      if_neg (mt List.contains_iff_mem.mp (mt hmem.mp hthere)), filter_concat_of_pos h, hkept]

/-- A class without it leaves the classes with it as they are. -/
theorem filter_absorb_of_neg (hp : IsShared p) (h : p t = false) :
    (absorb l t).filter p = l.filter p := by
  have hkept : (l.filter (fun other => !displaces t other)).filter p = l.filter p := by
    rw [List.filter_filter]
    refine List.filter_congr fun c _ => ?_
    cases hdisplaced : displaces t c with
    | false => rw [Bool.not_false, Bool.and_true]
    | true => rw [← hp t c hdisplaced, h, Bool.false_and]
  unfold absorb
  dsimp only
  split
  · exact hkept
  · rw [filter_concat_of_neg h, hkept]

/-- **Merging goes on among the classes with a property that classes share with those that they
displace.** -/
theorem filter_absorbed (hp : IsShared p) (s : ClassList) :
    (absorbed s).filter p = absorbed (s.filter p) := by
  induction s using List.reverseRecOn with
  | nil => rfl
  | append_singleton s t ih =>
    rw [absorbed_concat]
    cases h : p t with
    | true => rw [filter_absorb_of_pos h, ih, filter_concat_of_pos h, absorbed_concat]
    | false => rw [filter_absorb_of_neg hp h, ih, filter_concat_of_neg h]

/-! ## The classes of one rank -/

/-- The classes of one rank, in their order. -/
def ofRank (r : Nat) (l : ClassList) : ClassList := l.filter (fun c => rank c == r)

theorem mem_ofRank : c ∈ ofRank r l ↔ c ∈ l ∧ rank c = r := by
  rw [ofRank, List.mem_filter, beq_iff_eq]

theorem ofRank_cons_of_eq (h : rank t = r) : ofRank r (t :: l) = t :: ofRank r l :=
  List.filter_cons_of_pos (beq_iff_eq.mpr h)

theorem ofRank_cons_of_ne (h : rank t ≠ r) : ofRank r (t :: l) = ofRank r l :=
  List.filter_cons_of_neg (mt beq_iff_eq.mp h)

/-- **Merging goes on within each rank.** -/
theorem ofRank_absorbed (r : Nat) (s : ClassList) :
    ofRank r (absorbed s) = absorbed (ofRank r s) := by
  have hshared : IsShared (fun c => rank c == r) := fun t c h => by
    dsimp only
    rw [rank_of_displaces h]
  exact filter_absorbed hshared s

/-! ## Lists in the canonical order -/

/-- A list in the canonical order. -/
def IsSorted (l : ClassList) : Prop := l.Pairwise (fun c d => rank c ≤ rank d)

theorem rank_le_trans (a b c : String) (hab : decide (rank a ≤ rank b) = true)
    (hbc : decide (rank b ≤ rank c) = true) : decide (rank a ≤ rank c) = true :=
  decide_eq_true (Nat.le_trans (of_decide_eq_true hab) (of_decide_eq_true hbc))

theorem rank_le_total (a b : String) :
    (decide (rank a ≤ rank b) || decide (rank b ≤ rank a)) = true := by
  rw [Bool.or_eq_true, decide_eq_true_eq, decide_eq_true_eq]
  exact Nat.le_total _ _

theorem isSorted_sort (l : ClassList) : IsSorted (sort l) :=
  (List.pairwise_mergeSort rank_le_trans rank_le_total l).imp of_decide_eq_true

/-- **Sorting changes no rank.** The classes of one rank keep their order. -/
theorem ofRank_sort (r : Nat) (l : ClassList) : ofRank r (sort l) = ofRank r l := by
  have hequal : (ofRank r l).Pairwise (fun c d => decide (rank c ≤ rank d) = true) := by
    refine List.pairwise_of_forall_mem_list fun c hc d hd => decide_eq_true ?_
    exact Nat.le_of_eq ((mem_ofRank.mp hc).2.trans (mem_ofRank.mp hd).2.symm)
  have hsub : (ofRank r l).Sublist (sort l) :=
    List.sublist_mergeSort rank_le_trans rank_le_total hequal (List.filter_sublist (l := l))
  have hsub' : (ofRank r l).Sublist (ofRank r (sort l)) := by
    have hfilter := hsub.filter (fun c => rank c == r)
    rw [ofRank, List.filter_filter, List.filter_congr fun c _ => Bool.and_self _] at hfilter
    exact hfilter
  have hperm : (ofRank r (sort l)).Perm (ofRank r l) := (List.mergeSort_perm l _).filter _
  exact (hsub'.eq_of_length hperm.length_eq.symm).symm

/-- A class is not in front of the classes of lower ranks. -/
theorem rank_le_of_mem (h : IsSorted (t :: l)) (hc : c ∈ t :: l) : rank t ≤ rank c := by
  rcases List.mem_cons.mp hc with rfl | hc
  · exact Nat.le_refl _
  · exact (List.pairwise_cons.mp h).1 c hc

theorem mem_iff_of_ofRank (h : ∀ r, ofRank r l = ofRank r s) (c : String) : c ∈ l ↔ c ∈ s := by
  have hc : c ∈ ofRank (rank c) l ↔ c ∈ ofRank (rank c) s := by rw [h]
  rwa [mem_ofRank, mem_ofRank, and_iff_left rfl, and_iff_left rfl] at hc

/-- **A list in the canonical order is told by the classes of each rank.** -/
theorem eq_of_ofRank (hl : IsSorted l) (hs : IsSorted s) (h : ∀ r, ofRank r l = ofRank r s) :
    l = s := by
  have hmem := mem_iff_of_ofRank h
  induction l generalizing s with
  | nil =>
    refine (List.eq_nil_iff_forall_not_mem.mpr fun c hc => ?_).symm
    exact List.not_mem_nil ((hmem c).mpr hc)
  | cons c l ih =>
    cases s with
    | nil => exact absurd ((hmem c).mp List.mem_cons_self) List.not_mem_nil
    | cons d s =>
      -- both lists start with a class of the lowest rank
      have hrank : rank c = rank d :=
        Nat.le_antisymm (rank_le_of_mem hl ((hmem d).mpr List.mem_cons_self))
          (rank_le_of_mem hs ((hmem c).mp List.mem_cons_self))
      have hfirst := h (rank c)
      rw [ofRank_cons_of_eq rfl, ofRank_cons_of_eq hrank.symm] at hfirst
      obtain ⟨rfl, hrest⟩ := List.cons.inj hfirst
      have hranks : ∀ r, ofRank r l = ofRank r s := by
        intro r
        by_cases hr : rank c = r
        · rw [← hr, hrest]
        · have hother := h r
          rwa [ofRank_cons_of_ne hr, ofRank_cons_of_ne hr] at hother
      rw [ih (List.pairwise_cons.mp hl).2 (List.pairwise_cons.mp hs).2 hranks
        (mem_iff_of_ofRank hranks)]

/-- Merging keeps the canonical order. -/
theorem isSorted_absorbed (h : IsSorted s) : IsSorted (absorbed s) := by
  induction s using List.reverseRecOn with
  | nil => exact List.Pairwise.nil
  | append_singleton s t ih =>
    obtain ⟨hs, -, hlast⟩ := List.pairwise_append.mp h
    rw [absorbed_concat]
    refine pairwise_absorb (ih hs) (fun _ _ _ _ _ _ hle => hle) ?_
    -- a new class goes behind classes that were in front of it
    intro _ c hc _
    obtain ⟨front, behind, rfl, -⟩ := mem_absorbed.mp hc
    exact hlast c (List.mem_append_right _ List.mem_cons_self) t (List.mem_singleton_self t)

/-! ## Sorting and merging -/

theorem sort_absorbed (l : ClassList) : sort (absorbed l) = absorbed (sort l) := by
  refine eq_of_ofRank (isSorted_sort _) (isSorted_absorbed (isSorted_sort l)) fun r => ?_
  rw [ofRank_sort, ofRank_absorbed, ofRank_absorbed, ofRank_sort]

/-- No class is lost where none displaces an earlier one. -/
theorem survives_of_pairwise (h : s.Pairwise (fun c d => displaces d c = false)) (hc : c ∈ s) :
    Survives s c := by
  induction s using List.reverseRecOn with
  | nil => exact absurd hc List.not_mem_nil
  | append_singleton s t ih =>
    obtain ⟨hs, -, hlast⟩ := List.pairwise_append.mp h
    rw [survives_concat]
    rcases List.mem_append.mp hc with hc | hc
    · exact .inl ⟨ih hs hc, hlast c hc t (List.mem_singleton_self t)⟩
    · exact .inr (List.mem_singleton.mp hc)

/-- **Sorting a merge is merging what was sorted.** So the canonical order never changes which of two
classes that conflict stays, and a list in which no class displaces an earlier one loses none. -/
theorem sort_merge (l : ClassList) :
    sort (merge [] l) = merge [] (sort l) ∧
    (∀ c, c ∈ merge [] (sort l) ↔ c ∈ merge [] l) ∧
    (l.Pairwise (fun c d => displaces d c = false) → ∀ c ∈ l, c ∈ merge [] (sort l)) := by
  have hsort : sort (merge [] l) = merge [] (sort l) := sort_absorbed l
  have hmem : ∀ c, c ∈ merge [] (sort l) ↔ c ∈ merge [] l := by
    intro c
    rw [← hsort, sort, List.mem_mergeSort]
  refine ⟨hsort, hmem, ?_⟩
  intro hapart c hc
  rw [hmem]
  exact mem_absorbed.mpr (survives_of_pairwise hapart hc)

end ClassList

end MarkupEdit.Style
