import Mathlib.Data.List.Basic
import Mathlib.Data.List.Induction
import Mathlib.Data.List.Pairwise
import MarkupEdit.Style.ClassList

/-!
# Which classes survive

Classes are absorbed one after the other. A class survives if none of the classes behind its last
place displaces it, and it stands where it was added first since it was displaced last.

* `Survives`, `place`: both, told from the absorbed classes alone.
* `survives_iff_mem_drop`: a class survives if it stands behind the last class that displaces it.
* `mem_absorbed`, `pairwise_place_absorbed`: **absorbing keeps exactly the survivors, in the order of
  their places.**
* `merge_survivors`: the same for the merge of two lists, which merging again leaves as it is.
-/

namespace MarkupEdit.Style.ClassList

variable {s l : ClassList} {c t : String}

/-! ## Survivors -/

/-- No class behind the last place of a class displaces it. -/
def Survives (s : ClassList) (c : String) : Prop :=
  ∃ front behind, s = front ++ c :: behind ∧ c ∉ behind ∧ ∀ d ∈ behind, displaces d c = false

/-- The number of classes up to the last one that displaces a class, that one counted. -/
def lastDisplacing (s : ClassList) (c : String) : Nat :=
  s.length - s.reverse.findIdx (fun d => displaces d c)

/-- The first place of a class behind the last class that displaces it. -/
def place (s : ClassList) (c : String) : Nat :=
  lastDisplacing s c + (s.drop (lastDisplacing s c)).idxOf c

theorem displaces_self (c : String) : displaces c c = false := by
  rw [displaces, bne_self_eq_false, Bool.false_and]

theorem mem_of_survives (h : Survives s c) : c ∈ s := by
  obtain ⟨front, behind, rfl, -⟩ := h
  exact List.mem_append_right _ List.mem_cons_self

theorem not_survives_nil : ¬ Survives [] c := fun h => List.not_mem_nil (mem_of_survives h)

/-- One more class survives itself, and what it does not displace survives it. -/
theorem survives_concat : Survives (s ++ [t]) c ↔ (Survives s c ∧ displaces t c = false) ∨ c = t := by
  constructor
  · rintro ⟨front, behind, hs, hc, hd⟩
    rcases List.eq_nil_or_concat' behind with rfl | ⟨behind, u, rfl⟩
    · obtain ⟨-, hct⟩ := List.append_inj' hs rfl
      exact .inr (List.cons.inj hct).1.symm
    · -- the new class is the last one behind `c`
      have hs' : s ++ [t] = (front ++ c :: behind) ++ [u] := by
        rw [hs, List.append_assoc, List.cons_append]
      obtain ⟨rfl, htu⟩ := List.append_inj' hs' rfl
      obtain ⟨rfl, -⟩ := List.cons.inj htu
      refine .inl ⟨⟨front, behind, rfl, fun hm => hc (List.mem_append_left _ hm),
        fun d hm => hd d (List.mem_append_left _ hm)⟩, hd t ?_⟩
      exact List.mem_append_right _ (List.mem_singleton_self t)
  · intro h
    by_cases hct : c = t
    · exact ⟨s, [], by rw [hct], by simp, by simp⟩
    obtain ⟨⟨front, behind, rfl, hc, hd⟩, ht⟩ := h.resolve_right hct
    refine ⟨front, behind ++ [t], by simp, by simp [hc, hct], ?_⟩
    intro d hm
    rcases List.mem_append.mp hm with hm | hm
    · exact hd d hm
    · rw [List.mem_singleton.mp hm, ht]

theorem lastDisplacing_concat :
    lastDisplacing (s ++ [t]) c =
      if displaces t c then s.length + 1 else lastDisplacing s c := by
  unfold lastDisplacing
  rw [List.reverse_append, List.reverse_singleton, List.singleton_append, List.findIdx_cons,
    List.length_append, List.length_singleton]
  cases displaces t c with
  | true => rfl
  | false => simp

theorem lastDisplacing_le_length : lastDisplacing s c ≤ s.length := Nat.sub_le _ _

theorem drop_lastDisplacing_concat (h : displaces t c = false) :
    (s ++ [t]).drop (lastDisplacing (s ++ [t]) c) = s.drop (lastDisplacing s c) ++ [t] := by
  rw [lastDisplacing_concat, h, if_neg Bool.false_ne_true,
    List.drop_append_of_le_length lastDisplacing_le_length]

/-- **A class survives if it stands behind the last class that displaces it.** -/
theorem survives_iff_mem_drop : Survives s c ↔ c ∈ s.drop (lastDisplacing s c) := by
  induction s using List.reverseRecOn with
  | nil => exact iff_of_false not_survives_nil (by simp)
  | append_singleton s t ih =>
    rw [survives_concat]
    cases h : displaces t c with
    | true =>
      -- nothing stands behind the new class, and it does not displace itself
      have hne : c ≠ t := by
        rintro rfl
        rw [displaces_self] at h
        cases h
      have hdrop : (s ++ [t]).drop (s.length + 1) = [] := List.drop_eq_nil_of_le (by simp)
      rw [lastDisplacing_concat, if_pos h, hdrop]
      simp [hne]
    | false =>
      rw [drop_lastDisplacing_concat h, List.mem_append, List.mem_singleton, ih]
      simp

/-! ## Places -/

/-- A survivor stands at its place. -/
theorem getElem?_place (h : Survives s c) : s[place s c]? = some c := by
  have hmem := survives_iff_mem_drop.mp h
  rw [place, ← List.getElem?_drop, List.getElem?_idxOf hmem]

theorem place_lt_length (h : Survives s c) : place s c < s.length :=
  (List.getElem?_eq_some_iff.mp (getElem?_place h)).1

/-- A survivor that one more class does not displace keeps its place. -/
theorem place_concat_of_survives (h : Survives s c) (ht : displaces t c = false) :
    place (s ++ [t]) c = place s c := by
  have hmem := survives_iff_mem_drop.mp h
  rw [place, drop_lastDisplacing_concat ht, List.idxOf_append_of_mem hmem, lastDisplacing_concat,
    ht, if_neg Bool.false_ne_true, place]

/-- A class that does not survive gets the last place when it is added again. -/
theorem place_concat_self (h : ¬ Survives s t) : place (s ++ [t]) t = s.length := by
  have hmem := mt survives_iff_mem_drop.mpr h
  have hself := displaces_self t
  have hle := lastDisplacing_le_length (s := s) (c := t)
  rw [place, drop_lastDisplacing_concat hself, List.idxOf_append_of_notMem hmem,
    lastDisplacing_concat, hself, if_neg Bool.false_ne_true, List.length_drop, List.idxOf_cons_self]
  omega

/-! ## Absorbing -/

theorem mem_absorb : c ∈ absorb l t ↔ (c ∈ l ∧ displaces t c = false) ∨ c = t := by
  have hkept : c ∈ l.filter (fun other => !displaces t other) ↔
      c ∈ l ∧ displaces t c = false := by
    rw [List.mem_filter, Bool.not_eq_true']
  unfold absorb
  dsimp only
  split
  · next ht =>
    rw [List.contains_iff_mem] at ht
    rw [← hkept]
    exact ⟨.inl, fun h => h.elim id (fun hct => hct ▸ ht)⟩
  · rw [List.mem_append, List.mem_singleton, hkept]

/-- A class that was just absorbed changes nothing. -/
theorem absorb_absorb (l : ClassList) (t : String) : absorb (absorb l t) t = absorb l t := by
  have hmem : t ∈ absorb l t := mem_absorb.mpr (.inr rfl)
  have hkept : (absorb l t).filter (fun other => !displaces t other) = absorb l t := by
    refine List.filter_eq_self.mpr fun c hc => ?_
    rw [Bool.not_eq_true']
    rcases mem_absorb.mp hc with ⟨-, hstays⟩ | rfl
    · exact hstays
    · exact displaces_self c
  generalize absorb l t = absorbed at *
  unfold absorb
  rw [hkept]
  exact if_pos (List.contains_iff_mem.mpr hmem)

/-- A relation between the classes of a list gives one between the classes afterwards, if it does so
for those that stay, and these are related to a new class. -/
theorem pairwise_absorb {q r : String → String → Prop} (h : l.Pairwise q)
    (hstay : ∀ c ∈ l, ∀ d ∈ l, displaces t c = false → displaces t d = false → q c d → r c d)
    (hnew : t ∉ l → ∀ c ∈ l, displaces t c = false → r c t) : (absorb l t).Pairwise r := by
  have hmem : ∀ c ∈ l.filter (fun other => !displaces t other), c ∈ l ∧ displaces t c = false := by
    intro c hc
    rwa [List.mem_filter, Bool.not_eq_true'] at hc
  have hkept : (l.filter (fun other => !displaces t other)).Pairwise r :=
    (h.filter _).imp_of_mem fun hc hd hq =>
      hstay _ (hmem _ hc).1 _ (hmem _ hd).1 (hmem _ hc).2 (hmem _ hd).2 hq
  unfold absorb
  dsimp only
  split
  · exact hkept
  · next hnot =>
    rw [List.contains_iff_mem, List.mem_filter, displaces_self] at hnot
    rw [List.pairwise_append]
    refine ⟨hkept, List.pairwise_singleton _ _, ?_⟩
    intro c hc d hd
    rw [List.mem_singleton.mp hd]
    exact hnew (fun hm => hnot ⟨hm, rfl⟩) c (hmem c hc).1 (hmem c hc).2

/-- The classes after some were absorbed one after the other. -/
def absorbed (s : ClassList) : ClassList := s.foldl absorb []

theorem absorbed_concat : absorbed (s ++ [t]) = absorb (absorbed s) t := by
  rw [absorbed, List.foldl_append]
  rfl

/-- **Absorbing keeps exactly the survivors.** -/
theorem mem_absorbed : c ∈ absorbed s ↔ Survives s c := by
  induction s using List.reverseRecOn with
  | nil => exact iff_of_false (by simp [absorbed]) not_survives_nil
  | append_singleton s t ih => rw [absorbed_concat, mem_absorb, ih, survives_concat]

/-- **They stand in the order of their places.** -/
theorem pairwise_place_absorbed :
    (absorbed s).Pairwise (fun c d => place s c < place s d) := by
  induction s using List.reverseRecOn with
  | nil => exact List.Pairwise.nil
  | append_singleton s t ih =>
    rw [absorbed_concat]
    refine pairwise_absorb ih ?_ ?_
    · intro c hc d hd hct hdt hlt
      rwa [place_concat_of_survives (mem_absorbed.mp hc) hct,
        place_concat_of_survives (mem_absorbed.mp hd) hdt]
    · -- a new class stands behind all that stays
      intro hnot c hc hct
      have hsurvives := mem_absorbed.mp hc
      rw [place_concat_of_survives hsurvives hct, place_concat_self (mt mem_absorbed.mpr hnot)]
      exact place_lt_length hsurvives

theorem pairwise_displaces_absorbed :
    (absorbed s).Pairwise (fun c d => displaces d c = false) := by
  induction s using List.reverseRecOn with
  | nil => exact List.Pairwise.nil
  | append_singleton s t ih =>
    rw [absorbed_concat]
    exact pairwise_absorb ih (fun _ _ _ _ _ _ h => h) (fun _ _ _ h => h)

theorem nodup_absorbed : (absorbed s).Nodup :=
  pairwise_place_absorbed.imp fun hlt heq => by
    rw [heq] at hlt
    exact Nat.lt_irrefl _ hlt

/-- A class takes the place of another one with its key. -/
theorem displaces_of_key {k : Key} (hne : t ≠ c) (ht : Key.of? t = some k)
    (hc : Key.of? c = some k) : displaces t c = true := by
  simp [displaces, ht, hc, hne, Key.displaces, Group.replaces]

/-- No two classes that stay have one key. -/
theorem eq_of_key_absorbed (hc : c ∈ absorbed s) (ht : t ∈ absorbed s) {k : Key}
    (hck : Key.of? c = some k) (htk : Key.of? t = some k) : c = t := by
  have hpairs : (absorbed s).Pairwise (fun a b =>
      Key.of? a = some k → Key.of? b = some k → a = b) := by
    refine pairwise_displaces_absorbed.imp ?_
    intro a b hab ha hb
    by_contra hne
    rw [displaces_of_key (Ne.symm hne) hb ha] at hab
    cases hab
  have : Std.Symm (fun a b => Key.of? a = some k → Key.of? b = some k → a = b) :=
    ⟨fun a b h hb ha => (h ha hb).symm⟩
  exact hpairs.forall_of_forall (fun _ _ _ _ => rfl) hc ht hck htk

/-- Absorbing classes that do not displace one another appends them. -/
theorem foldl_absorb_of_pairwise (h : (l ++ s).Nodup)
    (hd : (l ++ s).Pairwise (fun c d => displaces d c = false)) : s.foldl absorb l = l ++ s := by
  induction s generalizing l with
  | nil => rw [List.foldl_nil, List.append_nil]
  | cons t s ih =>
    -- the next class is new, and all that is there stays
    have ht : ∀ c ∈ l, displaces t c = false := fun c hc =>
      (List.pairwise_append.mp hd).2.2 c hc t List.mem_cons_self
    have hnot : t ∉ l := fun hm =>
      (List.nodup_append.mp h).2.2 t hm t List.mem_cons_self rfl
    have hkept : l.filter (fun other => !displaces t other) = l :=
      List.filter_eq_self.mpr fun c hc => by rw [ht c hc, Bool.not_false]
    have habsorb : absorb l t = l ++ [t] := by
      unfold absorb
      rw [hkept]
      exact if_neg (by rwa [List.contains_iff_mem])
    rw [List.foldl_cons, habsorb, ih, List.append_assoc, List.singleton_append]
    · rwa [List.append_assoc]
    · rwa [List.append_assoc]

/-- Absorbing what is left of some classes changes nothing. -/
theorem absorbed_absorbed (s : ClassList) : absorbed (absorbed s) = absorbed s :=
  foldl_absorb_of_pairwise nodup_absorbed pairwise_displaces_absorbed

/-- **What a merge keeps.** A class is in the merge of two lists if no class behind its last place
displaces it. Each is there once, in the order of the places at which the classes were added since
they were displaced last. So no class displaces an earlier one, no two have the same variants,
importance and group, and merging again changes nothing. -/
theorem merge_survivors (existing incoming : ClassList) :
    (∀ c, c ∈ merge existing incoming ↔ Survives (existing ++ incoming) c) ∧
    (merge existing incoming).Nodup ∧
    (merge existing incoming).Pairwise (fun c d =>
      place (existing ++ incoming) c < place (existing ++ incoming) d) ∧
    (merge existing incoming).Pairwise (fun c d => displaces d c = false) ∧
    (∀ c ∈ merge existing incoming, ∀ d ∈ merge existing incoming, ∀ k,
      Key.of? c = some k → Key.of? d = some k → c = d) ∧
    merge (merge existing incoming) [] = merge existing incoming := by
  refine ⟨fun c => mem_absorbed, nodup_absorbed, pairwise_place_absorbed,
    pairwise_displaces_absorbed, fun c hc d hd k => eq_of_key_absorbed hc hd, ?_⟩
  rw [merge, List.append_nil]
  exact foldl_absorb_of_pairwise nodup_absorbed pairwise_displaces_absorbed

/-- A padding on all sides takes away one on two sides, but not the other way round. -/
example : merge ["px-2"] ["p-1", "px-3"] = ["p-1", "px-3"] := by decide +kernel

end MarkupEdit.Style.ClassList
