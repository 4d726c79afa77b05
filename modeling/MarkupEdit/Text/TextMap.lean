/-!
# Maps between texts

Finite maps from texts to texts, in the order of their keys. Two maps with the same entries are
equal.

* `TextMap.insert`: a map with one more entry, in place of an older one for its key.
* `TextMap.ofList`: the map of some entries, of which the last one for a key counts.
-/

namespace MarkupEdit.Text

/-- Entries with one more, in place of an older one for its key. -/
def insertEntry (key value : String) : List (String × String) → List (String × String)
  | [] => [(key, value)]
  | (k, v) :: rest =>
    if key < k then (key, value) :: (k, v) :: rest
    else if key = k then (key, value) :: rest
    else (k, v) :: insertEntry key value rest

theorem mem_insertEntry {key value : String} {entries : List (String × String)}
    {e : String × String} (h : e ∈ insertEntry key value entries) :
    e = (key, value) ∨ e ∈ entries := by
  induction entries with
  | nil => simpa [insertEntry] using h
  | cons entry rest ih =>
    simp only [insertEntry] at h
    split at h
    · simpa using h
    · split at h
      · rcases List.mem_cons.1 h with h | h <;> simp [h]
      · rcases List.mem_cons.1 h with h | h
        · simp [h]
        · rcases ih h with h | h <;> simp [h]

/-- Entries whose keys grow. -/
def IsSorted (entries : List (String × String)) : Prop := entries.Pairwise (fun a b => a.1 < b.1)

theorem isSorted_insertEntry {key value : String} {entries : List (String × String)}
    (h : IsSorted entries) : IsSorted (insertEntry key value entries) := by
  induction entries with
  | nil => simp [insertEntry, IsSorted]
  | cons entry rest ih =>
    obtain ⟨hhead, hrest⟩ := List.pairwise_cons.1 h
    simp only [insertEntry]
    split
    · rename_i hlt
      refine List.pairwise_cons.2 ⟨fun e he => ?_, h⟩
      rcases List.mem_cons.1 he with he | he
      · exact he ▸ hlt
      · exact String.lt_trans hlt (hhead e he)
    · rename_i hge
      split
      · rename_i heq
        exact List.pairwise_cons.2 ⟨fun e he => heq ▸ hhead e he, hrest⟩
      · rename_i hne
        refine List.pairwise_cons.2 ⟨fun e he => ?_, ih hrest⟩
        rcases mem_insertEntry he with he | he
        · subst he
          exact Classical.byContradiction fun hlt =>
            hne (Std.Trichotomous.trichotomous (r := (· < ·)) _ _ hge hlt)
        · exact hhead e he

/-- A finite map from texts to texts. -/
structure TextMap where
  entries : List (String × String)
  isSorted : IsSorted entries

namespace TextMap

theorem ext_entries {m n : TextMap} (h : m.entries = n.entries) : m = n := by
  cases m
  cases n
  simpa using h

def empty : TextMap := ⟨[], List.Pairwise.nil⟩

def isEmpty (m : TextMap) : Bool := m.entries.isEmpty

def insert (m : TextMap) (key value : String) : TextMap :=
  ⟨insertEntry key value m.entries, isSorted_insertEntry m.isSorted⟩

/-- The map of some entries; of several for one key the last one counts. -/
def ofList (entries : List (String × String)) : TextMap :=
  entries.foldl (fun m entry => m.insert entry.1 entry.2) empty

end TextMap

end MarkupEdit.Text
