import MarkupEdit.Proofs.Edit.Transparency

/-!
# Edits in a row

Edits in a row are made one by one, each in what the one before it left, and the first that fails ends
the row. So a row may be cut anywhere: its second part is made in the text that the first one left.

* `transform_cases`: an edit succeeds with a text, or fails with none.
* `batchFrom_append`: two rows as one, with the cache and the count handed on.
* `tally_batchFrom`: **what the results of a row tell of its text, its success and its length.**
* `batch_append`: both, whatever was called before.
-/

namespace MarkupEdit.Edit

open MarkupEdit.Tree

variable {config : Config} {cache after : ParseCache} {file source text : String}
  {edit : BatchEdit}

/-! ## One edit of a row -/

/-- **An edit succeeds with a text, or fails with none.** -/
theorem transform_cases (config : Config) (cache : ParseCache) (request : Request) :
    ∃ after, (∃ text changes strategy,
        transform config cache request = (after, .succeeded text changes strategy)) ∨
      ∃ fault, transform config cache request = (after, .failed fault) := by
  unfold transform
  dsimp only
  split
  · exact ⟨_, .inr ⟨_, rfl⟩⟩
  · split
    · exact ⟨_, .inr ⟨_, rfl⟩⟩
    · split
      · exact ⟨_, .inr ⟨_, rfl⟩⟩
      · exact ⟨_, .inl ⟨_, _, _, rfl⟩⟩

/-- One edit of a row, on its own. -/
def BatchEdit.request (edit : BatchEdit) (source file : String) : Request :=
  ⟨source, file, edit.locator, edit.operation⟩

namespace BatchOutcome

/-- The outcome of a row behind edits with some results. -/
def behind (results : List Outcome) (outcome : BatchOutcome) : BatchOutcome :=
  { outcome with results := results ++ outcome.results }

/-- The outcome of a row that is counted from a later number on. -/
def shifted (count : Nat) (outcome : BatchOutcome) : BatchOutcome :=
  { outcome with failedAt := outcome.failedAt.map (count + ·) }

end BatchOutcome

/-- A row goes on behind an edit that succeeds, in the text that it left. -/
theorem batchFrom_of_succeeded {changes : List Change} {strategy : Strategy}
    (h : transform config cache (edit.request source file) =
      (after, .succeeded text changes strategy)) (index : Nat) (rest : List BatchEdit) :
    batchFrom config file cache index source (edit :: rest) =
      (batchFrom config file after (index + 1) text rest).map id
        (·.behind [.succeeded text changes strategy]) := by
  rw [BatchEdit.request] at h
  rw [batchFrom, h]
  rfl

/-- A row ends with an edit that fails. -/
theorem batchFrom_of_failed {fault : EditFault}
    (h : transform config cache (edit.request source file) = (after, .failed fault)) (index : Nat)
    (rest : List BatchEdit) :
    batchFrom config file cache index source (edit :: rest) =
      (after, ⟨false, source, [.failed fault], some index⟩) := by
  rw [BatchEdit.request] at h
  rw [batchFrom, h]
  rfl

/-! ## Rows -/

/-- A row is counted from where it starts. -/
theorem batchFrom_shifted (config : Config) (file : String) (cache : ParseCache)
    (count index : Nat) (source : String) (edits : List BatchEdit) :
    batchFrom config file cache (count + index) source edits =
      (batchFrom config file cache index source edits).map id (·.shifted count) := by
  induction edits generalizing cache index source with
  | nil => rfl
  | cons edit rest ih =>
    obtain ⟨after, ⟨text, changes, strategy, h⟩ | ⟨fault, h⟩⟩ :=
      transform_cases config cache (edit.request source file)
    · rw [batchFrom_of_succeeded h, batchFrom_of_succeeded h, Nat.add_assoc, ih]
      rfl
    · rw [batchFrom_of_failed h, batchFrom_of_failed h]
      rfl

/-- **Two rows as one.** The second is made where the first one ends, if that succeeds, and not at
all if it fails. -/
theorem batchFrom_append (config : Config) (file : String) (cache : ParseCache) (index : Nat)
    (source : String) (front rest : List BatchEdit) :
    batchFrom config file cache index source (front ++ rest) =
      let (after, first) := batchFrom config file cache index source front
      if first.success then
        (batchFrom config file after (index + front.length) first.newSource rest).map id
          (·.behind first.results)
      else (after, first) := by
  induction front generalizing cache index source with
  | nil => rfl
  | cons edit front ih =>
    obtain ⟨after, ⟨text, changes, strategy, h⟩ | ⟨fault, h⟩⟩ :=
      transform_cases config cache (edit.request source file)
    · rw [List.cons_append, batchFrom_of_succeeded h, batchFrom_of_succeeded h, ih]
      -- the first edit has its result in front, whether the others succeed or not
      generalize hfront : batchFrom config file after (index + 1) text front = between
      obtain ⟨last, first⟩ := between
      have hcount : index + (front.length + 1) = index + 1 + front.length := by omega
      dsimp only [Prod.map, id, BatchOutcome.behind, List.length_cons]
      rw [hcount]
      split <;> rfl
    · rw [List.cons_append, batchFrom_of_failed h, batchFrom_of_failed h]
      rfl

/-! ## What the results tell -/

/-- What the results of a row tell of its outcome. The row has a number of edits, and starts with a
text. -/
structure Tally (source : String) (count : Nat) (outcome : BatchOutcome) : Prop where
  /-- An edit succeeds if it leaves a text. -/
  texts : ∀ result ∈ outcome.results, result.success = result.newSource.isSome
  /-- The text is what the last edit that succeeded left, or else the one at the start. -/
  newSource : outcome.newSource =
    ((outcome.results.filter (·.success)).getLast?.bind (·.newSource)).getD source
  success : outcome.success = outcome.failedAt.isNone
  /-- In a row that succeeds all edits were tried, and succeeded. -/
  all : outcome.failedAt = none →
    outcome.results.map (·.success) = List.replicate count true
  /-- In a row that fails the last edit that was tried failed, and all in front of it succeeded. -/
  upTo : ∀ index, outcome.failedAt = some index → index < count ∧
    outcome.results.map (·.success) = List.replicate index true ++ [false]

namespace Tally

variable {count : Nat} {outcome : BatchOutcome}

theorem nil (source : String) : Tally source 0 ⟨true, source, [], none⟩ where
  texts := fun _ h => nomatch h
  newSource := rfl
  success := rfl
  all := fun _ => rfl
  upTo := fun _ h => nomatch h

theorem failed (source : String) (count : Nat) (fault : EditFault) :
    Tally source (count + 1) ⟨false, source, [.failed fault], some 0⟩ where
  texts := by
    intro result hresult
    rw [List.mem_singleton.mp hresult]
    rfl
  newSource := rfl
  success := rfl
  all := fun h => nomatch h
  upTo := by
    intro index h
    cases h
    exact ⟨Nat.succ_pos count, rfl⟩

/-- One more edit in front, from which the row goes on. -/
theorem cons (h : Tally text count outcome) (source : String) (changes : List Change)
    (strategy : Strategy) :
    Tally source (count + 1)
      ((outcome.shifted 1).behind [.succeeded text changes strategy]) where
  texts := by
    intro result hresult
    rcases List.mem_cons.mp hresult with rfl | hresult
    · rfl
    · exact h.texts result hresult
  newSource := by
    have hlast : ((Outcome.succeeded text changes strategy :: outcome.results).filter
        (·.success)).getLast? = some (((outcome.results.filter (·.success)).getLast?).getD
          (.succeeded text changes strategy)) := by
      rw [List.filter_cons_of_pos rfl, List.getLast?_cons]
    refine h.newSource.trans ?_
    rw [BatchOutcome.behind, BatchOutcome.shifted]
    dsimp only [List.singleton_append]
    rw [hlast]
    -- what succeeded has a text, so the one at the start counts in neither row
    cases hresults : (outcome.results.filter (·.success)).getLast? with
    | none => rfl
    | some result =>
      obtain ⟨hmem, hsuccess⟩ := List.mem_filter.mp (List.mem_of_getLast? hresults)
      rw [h.texts result hmem] at hsuccess
      obtain ⟨left, hleft⟩ := Option.isSome_iff_exists.mp hsuccess
      rw [Option.bind_some, Option.getD_some, Option.bind_some, hleft]
      rfl
  success := by
    rw [BatchOutcome.behind, BatchOutcome.shifted]
    dsimp only
    rw [h.success, Option.isNone_map]
  all := by
    intro hnone
    have hnone : outcome.failedAt = none := Option.map_eq_none_iff.mp hnone
    rw [List.replicate_succ, ← h.all hnone]
    rfl
  upTo := by
    intro index hindex
    obtain ⟨i, hi, rfl⟩ := Option.map_eq_some_iff.mp hindex
    obtain ⟨hlt, hresults⟩ := h.upTo i hi
    refine ⟨by omega, ?_⟩
    rw [Nat.add_comm, List.replicate_succ, List.cons_append, ← hresults]
    rfl

theorem length_results (h : Tally source count outcome) {index : Nat}
    (hindex : outcome.failedAt = some index) : outcome.results.length = index + 1 := by
  have hmap := congrArg List.length (h.upTo index hindex).2
  simpa using hmap

end Tally

/-- **What the results of a row tell of its text, its success and its length.** -/
theorem tally_batchFrom (config : Config) (file : String) (cache : ParseCache) (source : String)
    (edits : List BatchEdit) :
    Tally source edits.length (batchFrom config file cache 0 source edits).2 := by
  induction edits generalizing cache source with
  | nil => exact .nil source
  | cons edit rest ih =>
    obtain ⟨after, ⟨text, changes, strategy, h⟩ | ⟨fault, h⟩⟩ :=
      transform_cases config cache (edit.request source file)
    · -- the others are counted from one
      rw [batchFrom_of_succeeded h, ← Nat.add_comm 1 0, batchFrom_shifted]
      exact (ih after text).cons source changes strategy
    · rw [batchFrom_of_failed h]
      exact .failed source rest.length fault

/-- **A row of edits may be cut anywhere.** After whatever was called before, two rows as one give the
results of both, the second made in the text that the first one left, with the text and the success of
the second, and its failure counted behind the first; if the first one fails, that is all. Of every
row, an edit has left a text if it succeeded, and the text is that of the last one that did, or the one
at the start; where the row fails at an edit, the results are those of the edits up to that one. -/
theorem batch_append (config : Config) (calls calls' : List Call) (source file : String)
    (front rest : List BatchEdit) :
    let cache := (runCalls .empty calls).1
    let first := (batch config cache ⟨source, file, front⟩).2
    let whole := (batch config cache ⟨source, file, front ++ rest⟩).2
    let second := (batch config (runCalls .empty calls').1 ⟨first.newSource, file, rest⟩).2
    (first.success = true →
      whole = ⟨second.success, second.newSource, first.results ++ second.results,
        second.failedAt.map (front.length + ·)⟩) ∧
    (first.success = false → whole = first) ∧
    (∀ result ∈ first.results, result.success = result.newSource.isSome) ∧
    first.newSource =
      ((first.results.filter (·.success)).getLast?.bind (·.newSource)).getD source ∧
    (first.success = true ↔ first.failedAt = none) ∧
    (first.success = true → first.results.map (·.success) = List.replicate front.length true) ∧
    ∀ index, first.failedAt = some index → first.results.length = index + 1 ∧
      first.results.map (·.success) = List.replicate index true ++ [false] := by
  intro cache first whole second
  have htally : Tally source front.length first := tally_batchFrom config file cache source front
  have hsound : cache.Sound := sound_runCalls ParseCache.sound_empty calls
  have hsound' := sound_runCalls ParseCache.sound_empty calls'
  have happend := batchFrom_append config file cache 0 source front rest
  have hsuccess : first.success = true ↔ first.failedAt = none := by
    rw [htally.success, Option.isNone_iff_eq_none]
  refine ⟨fun h => ?_, fun h => ?_, htally.texts, htally.newSource, hsuccess,
    fun h => htally.all (hsuccess.mp h), fun index h =>
      ⟨htally.length_results h, (htally.upTo index h).2⟩⟩
  · -- the second row runs from the cache that the first one left, which does not show
    obtain ⟨⟨_, hsets⟩, -⟩ := batchFrom_spec hsound hsound config file 0 source front
    have hsecond := batch_snd hsets.sound hsound' config ⟨first.newSource, file, rest⟩
    have hshifted := batchFrom_shifted config file
      (batchFrom config file cache 0 source front).1 front.length 0 first.newSource rest
    calc whole
      _ = ((batchFrom config file (batchFrom config file cache 0 source front).1
            (front.length + 0) first.newSource rest).2).behind first.results := by
          rw [Nat.add_comm]
          exact (congrArg Prod.snd happend).trans (congrArg Prod.snd (if_pos h))
      _ = (second.shifted front.length).behind first.results := by
          rw [hshifted]
          exact congrArg (fun outcome : BatchOutcome =>
            (outcome.shifted front.length).behind first.results) hsecond
  · exact (congrArg Prod.snd happend).trans (congrArg Prod.snd (if_neg (Bool.eq_false_iff.mp h)))

end MarkupEdit.Edit
