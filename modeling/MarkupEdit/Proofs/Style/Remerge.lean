import MarkupEdit.Proofs.Style.Survivors

/-!
# Merging the same classes again

The merge of two lists holds the outcome of the second one already. Merging that list in once more
keeps all classes, but it displaces some of them on the way: these leave their places and are added
again behind the others.

* `redone`: whether absorbing a list displaces a class.
* `survives_append`: what survives a list and another one behind it.
* `mem_remerge`: **a second merge keeps exactly the classes of the first.**
* `place_append_of_redone`, `place_append_of_spared`: where they stand afterwards.
* `redoneLast`: the classes that are redone, moved behind the others.
* `merge_merge`: **a second merge makes this move and no other change, a third one none.**
-/

namespace MarkupEdit.Style.ClassList

variable {s l existing incoming : ClassList} {c t : String}

/-- Whether absorbing the classes of a list displaces a class. -/
def redone (s : ClassList) (c : String) : Bool := s.any (fun d => displaces d c)

theorem redone_concat : redone (s ++ [t]) c = (redone s c || displaces t c) := by
  rw [redone, List.any_append, List.any_cons, List.any_nil, Bool.or_false, redone]

/-! ## The same classes -/

/-- **What survives two lists**: what survives the second one, and what survives the first and is
not displaced by the second. -/
theorem survives_append :
    Survives (l ++ s) c ↔ (Survives l c ∧ redone s c = false) ∨ Survives s c := by
  induction s using List.reverseRecOn with
  | nil =>
    rw [List.append_nil]
    exact ⟨fun h => .inl ⟨h, rfl⟩, fun h => (h.resolve_right not_survives_nil).1⟩
  | append_singleton s t ih =>
    rw [← List.append_assoc, survives_concat, survives_concat, ih, redone_concat,
      Bool.or_eq_false_iff]
    tauto

theorem absorbed_merge : absorbed (merge existing incoming) = merge existing incoming :=
  absorbed_absorbed _

theorem survives_merge : Survives (merge existing incoming) c ↔ c ∈ merge existing incoming := by
  rw [← mem_absorbed, absorbed_merge]

/-- **A second merge keeps exactly the classes of the first.** -/
theorem mem_remerge :
    c ∈ merge (merge existing incoming) incoming ↔ c ∈ merge existing incoming := by
  have hmerge : c ∈ merge existing incoming ↔
      (Survives existing c ∧ redone incoming c = false) ∨ Survives incoming c :=
    mem_absorbed.trans survives_append
  have hremerge : c ∈ merge (merge existing incoming) incoming ↔
      (Survives (merge existing incoming) c ∧ redone incoming c = false) ∨ Survives incoming c :=
    mem_absorbed.trans survives_append
  rw [survives_merge] at hremerge
  rw [hremerge, hmerge]
  tauto

/-! ## Their places -/

theorem lastDisplacing_append_of_redone (h : redone s c) :
    lastDisplacing (l ++ s) c = l.length + lastDisplacing s c := by
  induction s using List.reverseRecOn with
  | nil => cases h
  | append_singleton s t ih =>
    rw [← List.append_assoc, lastDisplacing_concat, lastDisplacing_concat, List.length_append]
    rw [redone_concat] at h
    cases ht : displaces t c with
    | true => rfl
    | false =>
      rw [ht, Bool.or_false] at h
      exact ih h

/-- A class that is redone stands where the second list puts it. -/
theorem place_append_of_redone (h : redone s c) : place (l ++ s) c = l.length + place s c := by
  rw [place, lastDisplacing_append_of_redone h, List.drop_append, List.drop_eq_nil_of_le (by omega),
    Nat.add_sub_cancel_left, List.nil_append, Nat.add_assoc, place]

/-- A class that is not redone keeps its place. -/
theorem place_append_of_spared (h : Survives l c) (hs : redone s c = false) :
    place (l ++ s) c = place l c := by
  induction s using List.reverseRecOn with
  | nil => rw [List.append_nil]
  | append_singleton s t ih =>
    rw [redone_concat, Bool.or_eq_false_iff] at hs
    rw [← List.append_assoc, place_concat_of_survives (survives_append.mpr (.inl ⟨h, hs.1⟩)) hs.2,
      ih hs.1]

/-! ## The second merge -/

/-- The classes that are not redone, in their order, and behind them the others, in theirs. -/
def redoneLast (s l : ClassList) : ClassList :=
  l.filter (fun c => !redone s c) ++ l.filter (redone s)

theorem perm_redoneLast : (redoneLast s l).Perm l := by
  have h := List.filter_append_perm (fun c => !redone s c) l
  simp only [Bool.not_not] at h
  exact h

theorem redoneLast_redoneLast : redoneLast s (redoneLast s l) = redoneLast s l := by
  simp [redoneLast, List.filter_append, List.filter_filter]

/-- Moving the redone classes behind the others changes nothing if they are there. -/
theorem redoneLast_eq_self_iff :
    redoneLast s l = l ↔ l.Pairwise (fun c d => redone s c → redone s d) := by
  constructor
  · intro h
    rw [← h, redoneLast]
    refine List.pairwise_append.mpr ⟨?_, ?_, ?_⟩
    · refine List.pairwise_filter.mpr (List.pairwise_of_forall fun c d hc _ hredone => ?_)
      rw [hredone] at hc
      cases hc
    · exact List.pairwise_filter.mpr (List.pairwise_of_forall fun _ _ _ hd _ => hd)
    · exact fun c _ d hd _ => (List.mem_filter.mp hd).2
  · intro h
    induction l with
    | nil => rfl
    | cons c l ih =>
      obtain ⟨hc, hl⟩ := List.pairwise_cons.mp h
      cases hredone : redone s c with
      | false =>
        have hrest := ih hl
        rw [redoneLast] at hrest
        rw [redoneLast, List.filter_cons_of_pos (by rw [hredone]; rfl),
          List.filter_cons_of_neg (by rw [hredone]; exact Bool.false_ne_true), List.cons_append,
          hrest]
      | true =>
        have hspared : (c :: l).filter (fun d => !redone s d) = [] :=
          List.filter_eq_nil_iff.mpr fun d hd => by
            rcases List.mem_cons.mp hd with rfl | hd
            · rw [hredone]
              exact Bool.false_ne_true
            · rw [hc d hd hredone]
              exact Bool.false_ne_true
        have hall : (c :: l).filter (redone s) = c :: l :=
          List.filter_eq_self.mpr fun d hd => by
            rcases List.mem_cons.mp hd with rfl | hd
            · exact hredone
            · exact hc d hd hredone
        rw [redoneLast, hspared, hall, List.nil_append]

/-- These are the places of the classes when the second list is merged in again. -/
theorem pairwise_place_redoneLast :
    (redoneLast incoming (merge existing incoming)).Pairwise fun c d =>
      place (merge existing incoming ++ incoming) c <
        place (merge existing incoming ++ incoming) d := by
  refine List.pairwise_append.mpr ⟨?_, ?_, ?_⟩
  · -- spared classes stand where they stood
    have hplaces := pairwise_place_absorbed (s := merge existing incoming)
    rw [absorbed_merge] at hplaces
    refine (hplaces.filter _).imp_of_mem ?_
    intro c d hc hd hlt
    obtain ⟨hc, hcs⟩ := List.mem_filter.mp hc
    obtain ⟨hd, hds⟩ := List.mem_filter.mp hd
    rw [Bool.not_eq_true'] at hcs hds
    rwa [place_append_of_spared (survives_merge.mpr hc) hcs,
      place_append_of_spared (survives_merge.mpr hd) hds]
  · -- redone classes stand as in the list that is merged in, both times
    have hplaces : (merge existing incoming).Pairwise fun c d =>
        place (existing ++ incoming) c < place (existing ++ incoming) d :=
      pairwise_place_absorbed
    refine (hplaces.filter _).imp_of_mem ?_
    intro c d hc hd hlt
    have hcs := (List.mem_filter.mp hc).2
    have hds := (List.mem_filter.mp hd).2
    rw [place_append_of_redone hcs, place_append_of_redone hds] at hlt ⊢
    omega
  · intro c hc d hd
    obtain ⟨hc, hcs⟩ := List.mem_filter.mp hc
    have hds := (List.mem_filter.mp hd).2
    have hsurvives := survives_merge.mpr hc
    have hlt := place_lt_length hsurvives
    rw [Bool.not_eq_true'] at hcs
    rw [place_append_of_spared hsurvives hcs, place_append_of_redone hds]
    omega

/-- A second merge moves the classes that are redone behind the others. -/
theorem remerge_eq :
    merge (merge existing incoming) incoming = redoneLast incoming (merge existing incoming) := by
  have hperm : (merge (merge existing incoming) incoming).Perm
      (redoneLast incoming (merge existing incoming)) := by
    refine List.Perm.trans ?_ perm_redoneLast.symm
    exact (List.perm_ext_iff_of_nodup nodup_absorbed nodup_absorbed).mpr fun c => mem_remerge
  -- both are sorted by the same places
  refine hperm.eq_of_pairwise ?_ pairwise_place_absorbed pairwise_place_redoneLast
  intro c d _ _ hlt hgt
  exact absurd hlt (Nat.lt_asymm hgt)

/-- **Merging the same classes again.** A second merge keeps the classes of the first, and moves
those that a class of the merged list displaces behind the others. So it changes nothing exactly if
these stand behind the others already, and a third merge never changes anything. -/
theorem merge_merge (existing incoming : ClassList) :
    merge (merge existing incoming) incoming =
      (merge existing incoming).filter (fun c => !incoming.any (fun d => displaces d c)) ++
        (merge existing incoming).filter (fun c => incoming.any (fun d => displaces d c)) ∧
    (merge (merge existing incoming) incoming).Perm (merge existing incoming) ∧
    (merge (merge existing incoming) incoming = merge existing incoming ↔
      (merge existing incoming).Pairwise fun c d =>
        incoming.any (fun t => displaces t c) → incoming.any (fun t => displaces t d)) ∧
    merge (merge (merge existing incoming) incoming) incoming =
      merge (merge existing incoming) incoming := by
  refine ⟨remerge_eq, ?_, ?_, ?_⟩
  · rw [remerge_eq]
    exact perm_redoneLast
  · rw [remerge_eq]
    exact redoneLast_eq_self_iff
  · rw [remerge_eq, remerge_eq, redoneLast_redoneLast]

/-- Merging the same classes again can change their order: the padding on all sides takes away the
one on two sides, which is then added behind the class that stood behind it. -/
theorem remerge_reorders :
    merge (merge [] ["p-4", "px-2", "flex"]) ["p-4", "px-2", "flex"] ≠
      merge [] ["p-4", "px-2", "flex"] := by
  decide +kernel

end MarkupEdit.Style.ClassList
