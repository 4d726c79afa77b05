import MarkupEdit.Tree.Cache

/-!
# The cache holds parses

Whatever is stored, dropped and looked up, an entry holds the tree that its text parses to. So an
answer from the cache is the answer that parsing would give.

* `ParseCache.Sound`: every entry holds the parse of its text.
* `ParseCache.Sets`: a change of the entry of one file.
* `parse_snd`, `sets_parse`: **parsing through a sound cache gives the parse, and records it.**
-/

namespace MarkupEdit.Tree.ParseCache

variable {cache after last : ParseCache} {file other source : String} {tree : SourceTree}
  {entry entry' : Option CacheEntry}

/-- Every entry holds the parse of its text, in the language of its file. -/
def Sound (cache : ParseCache) : Prop :=
  ∀ entry ∈ cache.entries, Tree.parse entry.source (Language.ofFile entry.file) = .ok entry.tree

theorem sound_empty : empty.Sound := by
  intro entry hentry
  cases hentry

theorem sound_clear (cache : ParseCache) : cache.clear.Sound := by
  intro entry hentry
  cases hentry

theorem sound_drop (h : cache.Sound) (file : String) : (cache.drop file).Sound := fun entry hentry =>
  h entry (List.mem_filter.mp hentry).1

theorem sound_store (h : cache.Sound) (hparse : Tree.parse source (Language.ofFile file) = .ok tree) :
    (cache.store file source tree).Sound := by
  intro entry hentry
  rcases List.mem_cons.mp hentry with rfl | hentry
  · exact hparse
  · exact sound_drop h file entry hentry

/-! ## Entries -/

theorem find?_drop_other (h : other ≠ file) : (cache.drop file).find? other = cache.find? other := by
  unfold find? drop
  dsimp only
  rw [List.find?_filter]
  congr 1
  funext entry
  by_cases hentry : entry.file = other
  · simp [hentry, h]
  · simp [hentry]

theorem find?_drop_self : (cache.drop file).find? file = none := by
  simp [find?, drop]

theorem find?_store_self : (cache.store file source tree).find? file = some ⟨file, source, tree⟩ := by
  simp [find?, store]

theorem find?_store_other (h : other ≠ file) :
    (cache.store file source tree).find? other = cache.find? other := by
  have hdrop : (cache.drop file).find? other = cache.find? other := find?_drop_other h
  rw [← hdrop, find?, store, List.find?_cons, beq_false_of_ne (Ne.symm h)]
  rfl

/-- What the cache finds for a text of a file is an entry for both, with the parse of the text. -/
theorem lookup?_eq_some (h : cache.Sound) (hl : cache.lookup? file source = some tree) :
    cache.find? file = some ⟨file, source, tree⟩ ∧
      Tree.parse source (Language.ofFile file) = .ok tree := by
  obtain ⟨entry, hfind, htree⟩ := Option.bind_eq_some_iff.mp hl
  have hmem := List.mem_of_find?_eq_some hfind
  have hfile : entry.file = file := by simpa using List.find?_some hfind
  split at htree
  · next hsource =>
    cases htree
    obtain rfl := eq_of_beq hsource
    subst hfile
    exact ⟨hfind, h entry hmem⟩
  · cases htree

/-- The cache afterwards is sound, has an entry for a file, and the entries of all other files are
those that were there before. -/
structure Sets (cache after : ParseCache) (file : String) (entry : Option CacheEntry) : Prop where
  sound : after.Sound
  here : after.find? file = entry
  others : ∀ other, other ≠ file → after.find? other = cache.find? other

theorem Sets.trans (h : cache.Sets after file entry) (h' : after.Sets last file entry') :
    cache.Sets last file entry' :=
  ⟨h'.sound, h'.here, fun other hne => by rw [h'.others other hne, h.others other hne]⟩

theorem Sets.refl (h : cache.Sound) (file : String) : cache.Sets cache file (cache.find? file) :=
  ⟨h, rfl, fun _ _ => rfl⟩

theorem sets_drop (h : cache.Sound) (file : String) : cache.Sets (cache.drop file) file none :=
  ⟨sound_drop h file, find?_drop_self, fun _ hne => find?_drop_other hne⟩

theorem sets_store (h : cache.Sound) (hparse : Tree.parse source (Language.ofFile file) = .ok tree) :
    cache.Sets (cache.store file source tree) file (some ⟨file, source, tree⟩) :=
  ⟨sound_store h hparse, find?_store_self, fun _ hne => find?_store_other hne⟩

/-! ## Parsing -/

/-- **Parsing through a sound cache gives the parse of the text.** -/
theorem parse_snd (h : cache.Sound) (source file : String) :
    (cache.parse source file).2 = Tree.parse source (Language.ofFile file) := by
  unfold parse
  cases hl : cache.lookup? file source with
  | some tree => exact (lookup?_eq_some h hl).2.symm
  | none => cases hparse : Tree.parse source (Language.ofFile file) <;> rfl

/-- A text that was parsed is answered from the cache. -/
theorem parse_again (h : (cache.parse source file).2 = .ok tree) :
    ((cache.parse source file).1.parse source file).2 = .ok tree := by
  unfold parse at h ⊢
  cases hl : cache.lookup? file source with
  | some found =>
    rw [hl] at h
    have hl' : ParseCache.lookup? { cache with hits := cache.hits + 1 } file source = some found := hl
    dsimp only
    rw [hl']
    exact h
  | none =>
    rw [hl] at h
    cases hparse : Tree.parse source (Language.ofFile file) with
    | error fault =>
      rw [hparse] at h
      cases h
    | ok parsed =>
      rw [hparse] at h
      have hstored : ∀ cache : ParseCache,
          (cache.store file source parsed).lookup? file source = some parsed := by
        intro cache
        rw [lookup?, find?_store_self, Option.bind_some, if_pos (beq_self_eq_true source)]
      dsimp only
      rw [hstored]
      exact h

/-- **It records the parse**, and leaves the entry of the file as it was if there is none. -/
theorem sets_parse (h : cache.Sound) (source file : String) :
    cache.Sets (cache.parse source file).1 file
      (match Tree.parse source (Language.ofFile file) with
      | .ok tree => some ⟨file, source, tree⟩
      | .error _ => cache.find? file) := by
  unfold parse
  cases hl : cache.lookup? file source with
  | some tree =>
    obtain ⟨hfind, hparse⟩ := lookup?_eq_some h hl
    rw [hparse]
    exact ⟨h, hfind, fun _ _ => rfl⟩
  | none =>
    cases hparse : Tree.parse source (Language.ofFile file) with
    | ok tree =>
      -- the count of misses is no part of the entries
      have hstore : (ParseCache.mk cache.entries cache.hits (cache.misses + 1)).Sets _ file _ :=
        sets_store h hparse
      exact ⟨hstore.sound, hstore.here, hstore.others⟩
    | error fault => exact ⟨h, rfl, fun _ _ => rfl⟩

end MarkupEdit.Tree.ParseCache
