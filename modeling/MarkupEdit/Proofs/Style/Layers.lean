import MarkupEdit.Proofs.Style.Sorting

/-!
# Layers of variants

The classes with the same variants in front are a layer of their own: no class displaces one of another
layer, and the variants that a whole layer has in front make no difference within it.

* `layer`: the classes with some variants, in their order.
* `layer_absorbed`: **merging goes on within each layer.**
* `IsVariants`, `splitVariants_append_of_isVariants`: variants in front of a class join its own.
* `displaces_append`: **classes displace each other with variants in front as they do without.**
* `merge_layers`: layers are merged each for itself, and all in the same way.
-/

namespace MarkupEdit.Style

variable {w s : List Char} {depth n : Nat} {c : Char}

/-! ## The end of the variants -/

theorem variantLength_cons_of_eq_zero (h : variantLength (bracketDepth depth c) s = 0) :
    variantLength depth (c :: s) = if c == ':' && depth == 0 then 1 else 0 := by
  rw [variantLength, h]

theorem variantLength_cons_of_eq_succ (h : variantLength (bracketDepth depth c) s = n + 1) :
    variantLength depth (c :: s) = n + 2 := by
  rw [variantLength, h]

theorem variantLength_le_length (depth : Nat) (s : List Char) : variantLength depth s ≤ s.length := by
  induction s generalizing depth with
  | nil => exact Nat.le_refl _
  | cons c s ih =>
    have hle := ih (bracketDepth depth c)
    cases hlength : variantLength (bracketDepth depth c) s with
    | zero =>
      rw [variantLength_cons_of_eq_zero hlength, List.length_cons]
      split <;> omega
    | succ n =>
      rw [variantLength_cons_of_eq_succ hlength, List.length_cons]
      omega

/-- Behind variants, which end in a colon outside brackets, no bracket is open. -/
theorem variantLength_append (hne : w ≠ []) (h : variantLength depth w = w.length) (s : List Char) :
    variantLength depth (w ++ s) = w.length + variantLength 0 s := by
  induction w generalizing depth with
  | nil => exact absurd rfl hne
  | cons c w ih =>
    cases hlength : variantLength (bracketDepth depth c) w with
    | zero =>
      -- there is nothing behind the colon
      rw [variantLength_cons_of_eq_zero hlength, List.length_cons] at h
      split at h
      · next hcolon =>
        obtain ⟨hc, hdepth⟩ := Bool.and_eq_true_iff.mp hcolon
        obtain rfl : c = ':' := beq_iff_eq.mp hc
        obtain rfl : depth = 0 := beq_iff_eq.mp hdepth
        obtain rfl : w = [] := List.eq_nil_of_length_eq_zero (by omega)
        have hopen : bracketDepth 0 ':' = 0 := rfl
        rw [List.singleton_append, List.length_singleton]
        cases hs : variantLength 0 s with
        | zero => exact variantLength_cons_of_eq_zero (by rw [hopen, hs])
        | succ n =>
          rw [variantLength_cons_of_eq_succ (by rw [hopen, hs])]
          omega
      · omega
    | succ n =>
      rw [variantLength_cons_of_eq_succ hlength, List.length_cons] at h
      have hrest : variantLength (bracketDepth depth c) (w ++ s) = n + variantLength 0 s + 1 := by
        rw [ih (by rintro rfl; cases hlength) (by omega)]
        omega
      rw [List.cons_append, variantLength_cons_of_eq_succ hrest, List.length_cons]
      omega

/-- A text that is variants as a whole. -/
def IsVariants (w : String) : Prop := splitVariants w.toList = (w.toList, [])

instance : DecidablePred IsVariants := fun w =>
  inferInstanceAs (Decidable (splitVariants w.toList = (w.toList, [])))

theorem variantLength_of_isVariants {w : String} (h : IsVariants w) :
    variantLength 0 w.toList = w.toList.length := by
  have hbehind : w.toList.drop (variantLength 0 w.toList) = [] := (Prod.mk.inj h).2
  exact Nat.le_antisymm (variantLength_le_length _ _) (List.drop_eq_nil_iff.mp hbehind)

/-- **Variants in front of a class join its own.** -/
theorem splitVariants_append_of_isVariants {w : String} (h : IsVariants w) (s : List Char) :
    splitVariants (w.toList ++ s) = (w.toList ++ (splitVariants s).1, (splitVariants s).2) := by
  have hlength : variantLength 0 (w.toList ++ s) = w.toList.length + variantLength 0 s := by
    by_cases hempty : w.toList = []
    · rw [hempty, List.nil_append, List.length_nil, Nat.zero_add]
    · exact variantLength_append hempty (variantLength_of_isVariants h) s
  rw [splitVariants, hlength, List.take_length_add_append, List.drop_length_add_append]
  rfl

theorem Key.of?_append {w : String} (h : IsVariants w) (t : String) :
    Key.of? (w ++ t) = (Key.of? t).map (fun k => { k with variants := w ++ k.variants }) := by
  unfold Key.of?
  rw [String.toList_append, splitVariants_append_of_isVariants h]
  dsimp only
  rw [Option.map_map]
  refine congrArg (Option.map · _) (funext fun group => ?_)
  rw [Function.comp_apply, String.ofList_append, String.ofList_toList]

namespace ClassList

variable {l : ClassList} {t : String} {f : String → String}

/-! ## Merging within a layer -/

/-- The classes with some variants, in their order. -/
def layer (w : String) (l : ClassList) : ClassList := l.filter (fun token => variantsOf token == w)

/-- **Merging goes on within each layer.** -/
theorem layer_absorbed (w : String) (s : ClassList) : layer w (absorbed s) = absorbed (layer w s) := by
  have hshared : IsShared (fun token => variantsOf token == w) := fun t c h => by
    dsimp only
    rw [variantsOf_of_displaces h]
  exact filter_absorbed hshared s

/-! ## Variants in front of all classes -/

/-- **Classes displace each other with variants in front as they do without.** -/
theorem displaces_append {w : String} (h : IsVariants w) (t c : String) :
    displaces (w ++ t) (w ++ c) = displaces t c := by
  have hkeys : ∀ k l : Key, Key.displaces { k with variants := w ++ k.variants }
      { l with variants := w ++ l.variants } = k.displaces l := fun k l => by
    rw [Bool.eq_iff_iff, Key.displaces_iff, Key.displaces_iff]
    dsimp only
    rw [String.append_right_inj]
  rw [Bool.eq_iff_iff, displaces_iff, displaces_iff, Key.of?_append h, Key.of?_append h, ne_eq,
    String.append_right_inj]
  refine and_congr_right fun _ => ?_
  constructor
  · rintro ⟨_, _, hkey, hother, hdisplaces⟩
    obtain ⟨k, hk, rfl⟩ := Option.map_eq_some_iff.mp hkey
    obtain ⟨l, hl, rfl⟩ := Option.map_eq_some_iff.mp hother
    exact ⟨k, l, hk, hl, (hkeys k l).symm.trans hdisplaces⟩
  · rintro ⟨k, l, hk, hl, hdisplaces⟩
    exact ⟨_, _, Option.map_eq_some_iff.mpr ⟨k, hk, rfl⟩, Option.map_eq_some_iff.mpr ⟨l, hl, rfl⟩,
      (hkeys k l).trans hdisplaces⟩

/-- Other names for all classes make no difference, if they displace each other as before. -/
theorem absorb_map (hf : Function.Injective f)
    (hdisplaces : ∀ t c, displaces (f t) (f c) = displaces t c) (l : ClassList) (t : String) :
    absorb (l.map f) (f t) = (absorb l t).map f := by
  have hkept : (l.map f).filter (fun other => !displaces (f t) other) =
      (l.filter (fun other => !displaces t other)).map f := by
    rw [List.filter_map]
    refine congrArg (List.map f) (List.filter_congr fun c _ => ?_)
    rw [Function.comp_apply, hdisplaces]
  unfold absorb
  dsimp only
  rw [hkept]
  by_cases hthere : t ∈ l.filter (fun other => !displaces t other)
  · rw [if_pos (List.contains_iff_mem.mpr hthere),
      if_pos (List.contains_iff_mem.mpr (List.mem_map_of_mem hthere))]
  · rw [if_neg (mt List.contains_iff_mem.mp hthere),
      if_neg (mt List.contains_iff_mem.mp (mt (List.mem_map_of_injective hf).mp hthere)),
      List.map_append, List.map_singleton]

theorem absorbed_map (hf : Function.Injective f)
    (hdisplaces : ∀ t c, displaces (f t) (f c) = displaces t c) (s : ClassList) :
    absorbed (s.map f) = (absorbed s).map f := by
  induction s using List.reverseRecOn with
  | nil => rfl
  | append_singleton s t ih =>
    rw [List.map_append, List.map_singleton, absorbed_concat, absorbed_concat, ih,
      absorb_map hf hdisplaces]

/-! ## Layers -/

/-- **Layers of variants are independent.** What a merge leaves of the classes with some variants is what
merging these classes alone leaves; and the same variants in front of all classes stay in front of those
that a merge leaves. -/
theorem merge_layers :
    (∀ (w : String) (existing incoming : ClassList),
      layer w (merge existing incoming) = merge (layer w existing) (layer w incoming)) ∧
    ∀ w, IsVariants w → ∀ existing incoming : ClassList,
      merge (existing.map (w ++ ·)) (incoming.map (w ++ ·)) =
        (merge existing incoming).map (w ++ ·) := by
  constructor
  · intro w existing incoming
    have happend : layer w (existing ++ incoming) = layer w existing ++ layer w incoming :=
      List.filter_append _ _
    have hlayer := layer_absorbed w (existing ++ incoming)
    rw [happend] at hlayer
    exact hlayer
  · intro w hw existing incoming
    have hinjective : Function.Injective (w ++ ·) := fun _ _ heq => (String.append_right_inj w).mp heq
    have hmap := absorbed_map hinjective (displaces_append hw) (existing ++ incoming)
    rw [List.map_append] at hmap
    exact hmap

/-- A bracket that is closed too often, or a colon inside brackets, does no harm. -/
theorem merge_layers_group :
    IsVariants "]group-[:is(a,b)]:" ∧
      merge (["px-2", "md:flex"].map ("]group-[:is(a,b)]:" ++ ·))
        (["[a:b]", "p-4"].map ("]group-[:is(a,b)]:" ++ ·)) =
        ["]group-[:is(a,b)]:md:flex", "]group-[:is(a,b)]:[a:b]", "]group-[:is(a,b)]:p-4"] := by
  have hvariants : IsVariants "]group-[:is(a,b)]:" := by decide +kernel
  have hmerge : merge ["px-2", "md:flex"] ["[a:b]", "p-4"] = ["md:flex", "[a:b]", "p-4"] := by
    decide +kernel
  refine ⟨hvariants, ?_⟩
  rw [merge_layers.2 _ hvariants, hmerge]
  rfl

end ClassList

end MarkupEdit.Style
