import MarkupEdit.Proofs.Text.Words
import MarkupEdit.Style.Declaration

/-!
# Two spellings of a property

In a style object a property is a key with capitals, and it is read with hyphens. The name with hyphens
can change in this (`a-1` is written `a1`), but the key does not.

* `not_isUpper_of_mem_kebabChars`: a name with hyphens has no capitals.
* `camelChars_cases`: **a key has no hyphens**, unless it is a custom property.
* `exists_kebabChars_eq_flatMap`: a name is written with hyphens letter by letter.
* `exists_splitAtEach_kebabChars`: the words that a key is read with make up the key.
* `camelCase_kebabCase_camelCase`: **a property that was written is read with the key it had.**
* `kebabChars_camelChars`: **a hyphenated name is read as it was written.**
* `joinedWords`: the name that some words make.
* `spellings_inverse`: a key is written again from its name, and a name of words from its key.
-/

namespace MarkupEdit.Style

open MarkupEdit.Text

variable {c : Char} {s : List Char}

/-! ## Capitals -/

/-- What holds for the 26 capitals holds for every capital. -/
theorem forall_isUpper {p : Char → Prop} (h : ∀ n < 26, p (Char.ofNat (65 + n)))
    (hc : c.isUpper = true) : p c := by
  obtain ⟨hlow, hhigh⟩ : 65 ≤ c.toNat ∧ c.toNat ≤ 90 := of_decide_eq_true hc
  have hp := h (c.toNat - 65) (by omega)
  rwa [Nat.add_sub_cancel' hlow, Char.ofNat_toNat] at hp

/-- What holds for the 26 small letters holds for every small letter. -/
theorem forall_isLower {p : Char → Prop} (h : ∀ n < 26, p (Char.ofNat (97 + n)))
    (hc : c.isLower = true) : p c := by
  obtain ⟨hfirst, hlast⟩ := Bool.and_eq_true_iff.mp hc
  have hlow : 97 ≤ c.toNat := of_decide_eq_true hfirst
  have hhigh : c.toNat ≤ 122 := of_decide_eq_true hlast
  have hp := h (c.toNat - 97) (by omega)
  rwa [Nat.add_sub_cancel' hlow, Char.ofNat_toNat] at hp

theorem upperChar_toLower (hc : c.isUpper = true) : upperChar c.toLower = [c] :=
  forall_isUpper (p := fun c => upperChar c.toLower = [c]) (by decide) hc

theorem toLower_of_not_isUpper (h : c.isUpper = false) : c.toLower = c :=
  dif_neg (of_decide_eq_false h)

theorem isUpper_toLower (c : Char) : c.toLower.isUpper = false := by
  cases hc : c.isUpper with
  | true => exact forall_isUpper (p := fun c => c.toLower.isUpper = false) (by decide) hc
  | false => rw [toLower_of_not_isUpper hc, hc]

/-- A text without capitals is one whose letters are small already. -/
theorem map_toLower_eq_self_iff : s.map Char.toLower = s ↔ ∀ c ∈ s, c.isUpper = false := by
  constructor
  · intro h c hc
    rw [← h] at hc
    obtain ⟨d, -, rfl⟩ := List.mem_map.mp hc
    exact isUpper_toLower d
  · intro h
    exact (List.map_congr_left fun c hc => toLower_of_not_isUpper (h c hc)).trans (List.map_id s)

theorem toLower_ne_hyphen_of_isUpper (hc : c.isUpper = true) : c.toLower ≠ '-' :=
  forall_isUpper (p := fun c => c.toLower ≠ '-') (by decide) hc

/-- What a run of letters is shifted to is no hyphen. -/
theorem shift_upperRuns_ne {n : Nat} (h : 128 ≤ n) : shift upperRuns n ≠ 45 := by
  have hall : ∀ run ∈ upperRuns, 46 ≤ (run.1 : Int) + run.2.2.2 := by decide +kernel
  unfold shift
  split
  · next first last stride offset hfind =>
    have hrun := hall _ (List.mem_of_find?_eq_some hfind)
    have hfound := List.find?_some hfind
    simp only [Bool.and_eq_true, decide_eq_true_eq] at hfound
    dsimp only at hrun
    omega
  · omega

/-- A letter that is no hyphen has none in its capitals. -/
theorem hyphen_not_mem_upperChar (hc : c ≠ '-') : '-' ∉ upperChar c := by
  unfold upperChar
  split
  · next hascii =>
    rw [List.mem_singleton]
    intro heq
    have hall : ∀ n < 128, (Char.ofNat n).toUpper = '-' → Char.ofNat n = '-' := by decide
    have hc' := hall c.toNat hascii
    rw [Char.ofNat_toNat] at hc'
    exact hc (hc' heq.symm)
  next hascii =>
  split
  · next entry letters hfind =>
    have hall : ∀ e ∈ upperSequences, '-' ∉ e.2.map Char.ofNat := by decide +kernel
    exact hall _ (List.mem_of_find?_eq_some hfind)
  · rw [List.mem_singleton]
    intro heq
    have hnat : (Char.ofNat (shift upperRuns c.toNat)).toNat = 45 := by rw [← heq]; rfl
    by_cases hvalid : (shift upperRuns c.toNat).isValidChar
    · rw [show Char.ofNat (shift upperRuns c.toNat) = Char.ofNatAux _ hvalid from dif_pos hvalid] at hnat
      exact shift_upperRuns_ne (by omega) hnat
    · rw [show Char.ofNat (shift upperRuns c.toNat) = '\x00' from dif_neg hvalid] at hnat
      cases hnat

theorem hyphen_not_mem_capitalized (h : '-' ∉ s) : '-' ∉ capitalized s := by
  cases s with
  | nil => exact h
  | cons c s =>
    rw [List.mem_cons, not_or] at h
    rw [capitalized, List.mem_append, not_or]
    exact ⟨hyphen_not_mem_upperChar (Ne.symm h.1), h.2⟩

theorem hyphen_not_mem_flatMap_capitalized {words : List (List Char)}
    (h : ∀ word ∈ words, '-' ∉ word) : '-' ∉ words.flatMap capitalized := fun hmem => by
  obtain ⟨word, hword, hmem⟩ := List.mem_flatMap.mp hmem
  exact hyphen_not_mem_capitalized (h word hword) hmem

theorem capitalized_toLower (hc : c.isUpper = true) (s : List Char) :
    capitalized (c.toLower :: s) = c :: s := by
  rw [capitalized, upperChar_toLower hc]
  rfl

/-! ## Names with hyphens -/

/-- **A name with hyphens has no capitals.** -/
theorem not_isUpper_of_mem_kebabChars (h : c ∈ kebabChars s) : c.isUpper = false := by
  unfold kebabChars at h
  split at h
  · obtain ⟨d, -, rfl⟩ := List.mem_map.mp h
    exact isUpper_toLower d
  · obtain ⟨d, -, hd⟩ := List.mem_flatMap.mp h
    split at hd
    · rcases List.mem_cons.mp hd with rfl | hd
      · rfl
      · rw [List.mem_singleton.mp hd]
        exact isUpper_toLower d
    · next hupper =>
      rw [List.mem_singleton.mp hd]
      exact Bool.not_eq_true _ |>.mp hupper

/-- Only a name without hyphens is written with others. -/
theorem kebabChars_of_hyphen (hmem : '-' ∈ s) (h : ∀ c ∈ s, c.isUpper = false) :
    kebabChars s = s := by
  rw [kebabChars, if_pos (List.contains_iff_mem.mpr hmem), map_toLower_eq_self_iff.mpr h]

/-! ## Keys -/

/-- **A key has no hyphens**, unless it is a custom property, which keeps its name. -/
theorem camelChars_cases (s : List Char) :
    ((∃ rest, s = '-' :: '-' :: rest) ∧ camelChars s = s) ∨ '-' ∉ camelChars s := by
  unfold camelChars
  split
  · next rest => exact .inl ⟨⟨rest, rfl⟩, rfl⟩
  refine .inr ?_
  split
  · exact List.not_mem_nil
  next first rest hsplit =>
  have hpieces : ∀ piece ∈ first :: rest, '-' ∉ piece := fun piece hpiece hmem =>
    absurd (forall_of_mem_splitAtEach (hsplit ▸ hpiece) '-' hmem) (by decide)
  rw [List.mem_append, not_or]
  constructor
  · split
    · exact hyphen_not_mem_capitalized (hpieces first List.mem_cons_self)
    · exact hpieces first List.mem_cons_self
  · exact hyphen_not_mem_flatMap_capitalized fun piece hpiece =>
      hpieces piece (List.mem_cons_of_mem _ hpiece)

theorem kebabChars_eq_flatMap (h : '-' ∉ s) :
    kebabChars s = s.flatMap (fun c => if c.isUpper then ['-', c.toLower] else [c]) := by
  rw [kebabChars, if_neg (by rwa [List.contains_iff_mem])]

theorem kebabChars_append {t : List Char} (hs : '-' ∉ s) (ht : '-' ∉ t) :
    kebabChars (s ++ t) = kebabChars s ++ kebabChars t := by
  rw [kebabChars_eq_flatMap hs, kebabChars_eq_flatMap ht, kebabChars_eq_flatMap, List.flatMap_append]
  rw [List.mem_append, not_or]
  exact ⟨hs, ht⟩

/-- A text without hyphens and capitals is read as it is. -/
theorem kebabChars_of_forall (hnot : '-' ∉ s) (h : ∀ c ∈ s, c.isUpper = false) :
    kebabChars s = s := by
  rw [kebabChars_eq_flatMap hnot]
  refine (List.flatMap_congr fun c hc => ?_).trans (List.flatMap_singleton' s)
  rw [if_neg (by rw [h c hc]; exact Bool.false_ne_true)]

theorem kebabChars_cons_of_isUpper (h : '-' ∉ c :: s) (hc : c.isUpper = true) :
    kebabChars (c :: s) = '-' :: c.toLower :: kebabChars s := by
  rw [kebabChars_eq_flatMap h, List.flatMap_cons, if_pos hc,
    kebabChars_eq_flatMap fun hmem => h (List.mem_cons_of_mem _ hmem)]
  rfl

theorem kebabChars_cons_of_not_isUpper (h : '-' ∉ c :: s) (hc : c.isUpper = false) :
    kebabChars (c :: s) = c :: kebabChars s := by
  rw [kebabChars_eq_flatMap h, List.flatMap_cons, if_neg (by rw [hc]; exact Bool.false_ne_true),
    kebabChars_eq_flatMap fun hmem => h (List.mem_cons_of_mem _ hmem)]
  rfl

/-! ## Letter by letter -/

/-- A name is written with hyphens letter by letter: a capital becomes small and may get a hyphen, and
anything else stays. -/
theorem exists_kebabChars_eq_flatMap (s : List Char) :
    ∃ f : Char → List Char, kebabChars s = s.flatMap f ∧
      ∀ c, f c = [c] ∨ c.isUpper = true ∧ (f c = [c.toLower] ∨ f c = ['-', c.toLower]) := by
  by_cases hmem : '-' ∈ s
  · refine ⟨fun c => [c.toLower], ?_, fun c => ?_⟩
    · rw [kebabChars, if_pos (List.contains_iff_mem.mpr hmem), List.map_eq_flatMap]
    · cases hc : c.isUpper with
      | true => exact .inr ⟨rfl, .inl rfl⟩
      | false =>
        exact .inl (congrArg (fun d => [d]) (toLower_of_not_isUpper hc))
  · refine ⟨_, kebabChars_eq_flatMap hmem, fun c => ?_⟩
    cases hc : c.isUpper with
    | true => exact .inr ⟨rfl, .inr (if_pos rfl)⟩
    | false => exact .inl (if_neg Bool.false_ne_true)

theorem kebabChars_eq_nil (h : kebabChars s = []) : s = [] := by
  obtain ⟨f, hs, hf⟩ := exists_kebabChars_eq_flatMap s
  rw [hs, List.flatMap_eq_nil_iff] at h
  refine List.eq_nil_iff_forall_not_mem.mpr fun c hc => ?_
  rcases hf c with hletter | ⟨-, hletter | hletter⟩ <;> rw [h c hc] at hletter <;> cases hletter

/-- A name with hyphens has hyphens again as it is. -/
theorem kebabChars_kebabChars (s : List Char) : kebabChars (kebabChars s) = kebabChars s := by
  have hupper : ∀ c ∈ kebabChars s, c.isUpper = false := fun c hc => not_isUpper_of_mem_kebabChars hc
  by_cases hmem : '-' ∈ kebabChars s
  · exact kebabChars_of_hyphen hmem hupper
  · exact kebabChars_of_forall hmem hupper

/-! ## The words of a key -/

theorem splitAtEach_hyphen_cons (hc : c ≠ '-') {piece : List Char} {rest : List (List Char)}
    (hs : splitAtEach (· == '-') s = piece :: rest) :
    splitAtEach (· == '-') (c :: s) = (c :: piece) :: rest :=
  splitAtEach_cons_of_neg (p := (· == '-')) (beq_false_of_ne hc) hs

/-- **The words that a key is read with make up the key**, with a capital in front of each but the
first. -/
theorem exists_splitAtEach_kebabChars (h : '-' ∉ s) :
    ∃ first rest, splitAtEach (· == '-') (kebabChars s) = first :: rest ∧
      first ++ rest.flatMap capitalized = s := by
  induction s with
  | nil => exact ⟨[], [], rfl, rfl⟩
  | cons c s ih =>
    rw [List.mem_cons, not_or] at h
    obtain ⟨first, rest, hsplit, hs⟩ := ih h.2
    have hnot : '-' ∉ c :: s := by rw [List.mem_cons, not_or]; exact h
    cases hc : c.isUpper with
    | true =>
      refine ⟨[], (c.toLower :: first) :: rest, ?_, ?_⟩
      · rw [kebabChars_cons_of_isUpper hnot hc, splitAtEach_cons_of_pos rfl,
          splitAtEach_hyphen_cons (toLower_ne_hyphen_of_isUpper hc) hsplit]
      · rw [List.nil_append, List.flatMap_cons, capitalized_toLower hc, List.cons_append, hs]
    | false =>
      refine ⟨c :: first, rest, ?_, ?_⟩
      · rw [kebabChars_cons_of_not_isUpper hnot hc,
          splitAtEach_hyphen_cons (Ne.symm h.1) hsplit]
      · rw [List.cons_append, hs]

/-- **A key without hyphens is read and written again.** -/
theorem camelChars_kebabChars (h : '-' ∉ s) : camelChars (kebabChars s) = s := by
  cases s with
  | nil => rfl
  | cons c s =>
    have htail : '-' ∉ s := fun hmem => h (List.mem_cons_of_mem _ hmem)
    obtain ⟨first, rest, hsplit, hs⟩ := exists_splitAtEach_kebabChars htail
    cases hc : c.isUpper with
    | true =>
      have hlower := toLower_ne_hyphen_of_isUpper hc
      rw [kebabChars_cons_of_isUpper h hc, camelChars]
      · rw [List.dropWhile_cons_of_pos rfl, List.dropWhile_cons_of_neg (by simpa using hlower),
          splitAtEach_hyphen_cons hlower hsplit]
        dsimp only
        rw [List.head?_cons, if_pos (beq_self_eq_true _), capitalized_toLower hc, List.cons_append,
          hs]
      · exact fun rest heq => hlower (List.cons.inj (List.cons.inj heq).2).1
    | false =>
      have hne : c ≠ '-' := fun heq => h (heq ▸ List.mem_cons_self)
      rw [kebabChars_cons_of_not_isUpper h hc, camelChars]
      · rw [List.dropWhile_cons_of_neg (by simpa using hne), splitAtEach_hyphen_cons hne hsplit]
        dsimp only
        rw [List.head?_cons, if_neg (by simpa using hne), List.cons_append, hs]
      · exact fun rest heq => hne (List.cons.inj heq).1

/-- **A property that was written is read with the key it had.** -/
theorem camelCase_kebabCase_camelCase (name : String) :
    camelCase (kebabCase (camelCase (kebabCase name))) = camelCase (kebabCase name) := by
  rw [camelCase, camelCase, kebabCase, kebabCase]
  simp only [String.toList_ofList]
  generalize hs : kebabChars name.toList = s
  rcases camelChars_cases s with ⟨⟨rest, hrest⟩, hsame⟩ | hnot
  · have hupper : ∀ c ∈ s, c.isUpper = false := fun c hc =>
      not_isUpper_of_mem_kebabChars (hs ▸ hc)
    rw [hsame, kebabChars_of_hyphen (by rw [hrest]; exact List.mem_cons_self) hupper, hsame]
  · rw [camelChars_kebabChars hnot]

/-! ## Names that keep their spelling -/

/-- A word of a name has a small letter in front, and no capitals. -/
def IsNameWord : List Char → Prop
  | [] => False
  | c :: s => c.isLower = true ∧ ∀ d ∈ s, d.isUpper = false

/-- A name is hyphenated if it has words between its hyphens, one of which may stand in front of all
words. A custom property has only to have no capitals. -/
def IsHyphenated (s : List Char) : Prop :=
  if ['-', '-'] <+: s then ∀ c ∈ s, c.isUpper = false
  else ∀ word ∈ splitAtEach (· == '-') (s.dropWhile (· == '-')), IsNameWord word

-- the instances for lists are named, for all characters are not to be tried
instance : DecidablePred IsNameWord
  | [] => isFalse id
  | _ :: s => @instDecidableAnd _ _ _ (List.decidableBAll _ s)

instance (s : List Char) : Decidable (IsHyphenated s) :=
  @instDecidableIte _ _ _ _ (List.decidableBAll _ s) _

theorem not_isUpper_of_isNameWord (h : IsNameWord s) : ∀ c ∈ s, c.isUpper = false := by
  cases s with
  | nil => exact h.elim
  | cons c s =>
    intro d hd
    rcases List.mem_cons.mp hd with rfl | hd
    · exact forall_isLower (p := fun c => c.isUpper = false) (by decide) h.1
    · exact h.2 d hd

/-- A word that was made capital is read with a hyphen in front. -/
theorem kebabChars_capitalized (h : IsNameWord s) (hnot : '-' ∉ s) :
    kebabChars (capitalized s) = '-' :: s := by
  cases s with
  | nil => exact h.elim
  | cons c s =>
    obtain ⟨hupper, hcapital, hlower⟩ :
        upperChar c = [c.toUpper] ∧ c.toUpper.isUpper = true ∧ c.toUpper.toLower = c :=
      forall_isLower (p := fun c => upperChar c = [c.toUpper] ∧ c.toUpper.isUpper = true ∧
        c.toUpper.toLower = c) (by decide) h.1
    have hnot' : '-' ∉ capitalized (c :: s) := hyphen_not_mem_capitalized hnot
    rw [capitalized, hupper, List.singleton_append] at hnot' ⊢
    rw [kebabChars_cons_of_isUpper hnot' hcapital, hlower,
      kebabChars_of_forall (fun hmem => hnot (List.mem_cons_of_mem _ hmem)) h.2]

/-- The words of a key are read with hyphens between them. -/
theorem kebabChars_flatMap_capitalized {words : List (List Char)}
    (h : ∀ word ∈ words, IsNameWord word ∧ '-' ∉ word) :
    kebabChars (words.flatMap capitalized) = words.flatMap (List.cons '-') := by
  induction words with
  | nil => rfl
  | cons word rest ih =>
    have hrest : ∀ word ∈ rest, IsNameWord word ∧ '-' ∉ word := fun word hword =>
      h word (List.mem_cons_of_mem _ hword)
    obtain ⟨hword, hnot⟩ := h word List.mem_cons_self
    rw [List.flatMap_cons, List.flatMap_cons, kebabChars_append (hyphen_not_mem_capitalized hnot)
      (hyphen_not_mem_flatMap_capitalized fun word hword => (hrest word hword).2),
      kebabChars_capitalized hword hnot, ih hrest]

/-- **A hyphenated name is read as it was written.** -/
theorem kebabChars_camelChars (h : IsHyphenated s) : kebabChars (camelChars s) = s := by
  unfold IsHyphenated at h
  unfold camelChars
  split
  · next rest =>
    have hcustom : ['-', '-'] <+: '-' :: '-' :: rest := ⟨rest, rfl⟩
    rw [if_pos hcustom] at h
    exact kebabChars_of_hyphen List.mem_cons_self h
  next hcustom =>
  rw [if_neg fun ⟨rest, hrest⟩ => hcustom rest hrest.symm] at h
  obtain ⟨first, rest, hsplit⟩ := List.exists_cons_of_ne_nil
    (splitAtEach_ne_nil (· == '-') (s.dropWhile (· == '-')))
  rw [hsplit] at h ⊢
  have hwords : ∀ word ∈ first :: rest, IsNameWord word ∧ '-' ∉ word := fun word hword =>
    ⟨h word hword, fun hmem =>
      absurd (forall_of_mem_splitAtEach (hsplit ▸ hword) '-' hmem) (by decide)⟩
  obtain ⟨hfirst, hnot⟩ := hwords first List.mem_cons_self
  have hrest : ∀ word ∈ rest, IsNameWord word ∧ '-' ∉ word := fun word hword =>
    hwords word (List.mem_cons_of_mem _ hword)
  have hnotRest := hyphen_not_mem_flatMap_capitalized fun word hword => (hrest word hword).2
  have hjoin : first ++ rest.flatMap (List.cons '-') = s.dropWhile (· == '-') :=
    join_splitAtEach hsplit
  dsimp only
  split
  · next hvendor =>
    -- the first word was made capital too
    obtain ⟨t, rfl⟩ := List.head?_eq_some_iff.mp (beq_iff_eq.mp hvendor)
    have hdrop : ('-' :: t).dropWhile (· == '-') = t := by
      cases t with
      | nil => rfl
      | cons c t =>
        have hc : c ≠ '-' := fun heq => hcustom t (by rw [heq])
        rw [List.dropWhile_cons_of_pos rfl, List.dropWhile_cons_of_neg (by simpa using hc)]
    rw [← List.flatMap_cons, kebabChars_flatMap_capitalized hwords, List.flatMap_cons,
      List.cons_append, hjoin, hdrop]
  · next hplain =>
    have hdrop : s.dropWhile (· == '-') = s := by
      cases s with
      | nil => rfl
      | cons c s => exact List.dropWhile_cons_of_neg (by simpa using hplain)
    rw [kebabChars_append hnot hnotRest, kebabChars_of_forall hnot (not_isUpper_of_isNameWord hfirst),
      kebabChars_flatMap_capitalized hrest, hjoin, hdrop]

/-! ## Names made of words -/

/-- The name that words make: hyphens between them, and one in front if the name is a vendor's. -/
def joinedWords (vendor : Bool) (words : List (List Char)) : List Char :=
  (if vendor then ['-'] else []) ++ ['-'].intercalate words

variable {words : List (List Char)}

/-- The text of the words starts with a small letter, the first of the first word. -/
theorem exists_cons_of_words (hne : words ≠ []) (h : ∀ word ∈ words, IsNameWord word) :
    ∃ c t, ['-'].intercalate words = c :: t ∧ c ≠ '-' := by
  obtain ⟨first, rest, rfl⟩ := List.exists_cons_of_ne_nil hne
  have hfirst := h first List.mem_cons_self
  cases first with
  | nil => exact hfirst.elim
  | cons c first =>
    have hc : c ≠ '-' := forall_isLower (p := fun c => c ≠ '-') (by decide) hfirst.1
    cases rest with
    | nil => exact ⟨c, first, List.intercalate_singleton, hc⟩
    | cons next rest => exact ⟨c, _, List.intercalate_cons_cons, hc⟩

theorem isHyphenated_joinedWords (vendor : Bool) (hne : words ≠ [])
    (h : ∀ word ∈ words, IsNameWord word ∧ '-' ∉ word) :
    IsHyphenated (joinedWords vendor words) := by
  have hsplit := splitAtEach_intercalate hne fun word hword => (h word hword).2
  obtain ⟨c, t, ht, hc⟩ := exists_cons_of_words hne fun word hword => (h word hword).1
  -- one hyphen at most stands in front of the words
  have hcustom : ¬ ['-', '-'] <+: joinedWords vendor words := by
    rintro ⟨rest, hrest⟩
    cases vendor <;> rw [joinedWords, ht] at hrest
    · exact hc (List.cons.inj hrest).1.symm
    · exact hc (List.cons.inj (List.cons.inj hrest).2).1.symm
  have hdrop : (joinedWords vendor words).dropWhile (· == '-') = ['-'].intercalate words := by
    have hstop : (c :: t).dropWhile (· == '-') = c :: t :=
      List.dropWhile_cons_of_neg (by simpa using hc)
    cases vendor <;> rw [joinedWords, ht]
    · exact hstop
    · exact (List.dropWhile_cons_of_pos rfl).trans hstop
  rw [IsHyphenated, if_neg hcustom, hdrop, hsplit]
  exact fun word hword => (h word hword).1

/-- **A key is written again from its name, and a name of words from its key.** A key is any name without
a hyphen. A word starts with a small letter and has no capitals; letters beyond ASCII count as neither. -/
theorem spellings_inverse :
    (∀ key : String, '-' ∉ key.toList → camelCase (kebabCase key) = key) ∧
      ∀ (vendor : Bool) (words : List (List Char)), words ≠ [] →
        (∀ word ∈ words, IsNameWord word ∧ '-' ∉ word) →
        kebabCase (camelCase (String.ofList (joinedWords vendor words))) =
          String.ofList (joinedWords vendor words) := by
  constructor
  · intro key hkey
    rw [camelCase, kebabCase, String.toList_ofList, camelChars_kebabChars hkey, String.ofList_toList]
  · intro vendor words hne hwords
    rw [kebabCase, camelCase, String.toList_ofList, String.toList_ofList,
      kebabChars_camelChars (isHyphenated_joinedWords vendor hne hwords)]

/-- Capitals in a row at the start of a key, and a word with a digit and letters beyond ASCII. -/
theorem spellings_inverse_vendor :
    '-' ∉ "MSÜberB2".toList ∧ kebabCase "MSÜberB2" = "-m-sÜber-b2" ∧
      camelCase "-m-sÜber-b2" = "MSÜberB2" ∧
      kebabCase (camelCase "-webkit-b2É-x") = "-webkit-b2É-x" := by
  have hkey : '-' ∉ "MSÜberB2".toList := by decide
  have hkebab : kebabCase "MSÜberB2" = "-m-sÜber-b2" := by decide
  have hname := spellings_inverse.2 true ["webkit".toList, "b2É".toList, "x".toList]
    (List.cons_ne_nil _ _) (by decide)
  exact ⟨hkey, hkebab, hkebab ▸ spellings_inverse.1 _ hkey, hname⟩

end MarkupEdit.Style
