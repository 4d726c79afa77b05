import Mathlib.Data.List.Forall2
import MarkupEdit.Edit.Session
import MarkupEdit.Proofs.Edit.Locality
import MarkupEdit.Proofs.Tree.Cache

/-!
# The cache does not show

Trees go into the cache where a text is parsed and where an edited tree is written and read again.
Both ways an entry holds the parse of its text, so no answer tells whether the cache was used.

* `language_of_editTree`: an edited tree stays in its language, in which its text is read again.
* `sets_transform`: what an edit leaves in the cache.
* `transform_snd`, `batch_snd`, `findNodes_snd`: **what a call answers does not depend on the cache.**
* `sets_run`, `sound_runCalls`: no call changes the entry of another file, and whatever is called, the
  cache stays sound.
* `cache_transparent`: all of this for every session.
-/

namespace MarkupEdit.Edit

open MarkupEdit.Tree MarkupEdit.Print

variable {cache : ParseCache} {tree : SourceTree} {source : String} {language : Language}

/-! ## Languages -/

theorem language_of_parse (h : Tree.parse source language = .ok tree) : tree.language = language := by
  unfold Tree.parse at h
  dsimp only at h
  split at h
  · obtain ⟨-, rfl⟩ := convert_eq_ok h
    rfl
  · cases h

/-- Only literals are edited where no element is found. -/
theorem editLiteral_eq_ok {config : Config} {criteria : Criteria} {operation : Operation}
    {fault : EditFault} {edited : SourceTree} {change : Change}
    (h : editLiteral config tree criteria operation fault = .ok (edited, change)) :
    ∃ found value, replaceLiteral tree found value config = .ok (edited, change) := by
  unfold editLiteral at h
  split at h
  · split at h
    · cases h
    · split at h
      · next found _ => exact ⟨found, _, h⟩
      · cases h
  · cases h

/-- **An edited tree stays in its language.** -/
theorem language_of_editTree {config : Config} {request : Request} {edited : Edited}
    (h : editTree config tree request = .ok edited) : edited.tree.language = tree.language := by
  unfold editTree at h
  split at h
  · obtain ⟨⟨t, changes⟩, happly, h⟩ := ok_of_map h
    cases h
    obtain ⟨element, -, hedit⟩ := editsAt_of_apply happly
    rw [hedit.rest]
  · obtain ⟨⟨t, change⟩, hliteral, h⟩ := ok_of_map h
    cases h
    obtain ⟨found, value, hreplace⟩ := editLiteral_eq_ok hliteral
    obtain ⟨literal, new, -, hplaced⟩ := replaceLiteral_eq_ok hreplace
    obtain ⟨root, -, rfl⟩ := placed_eq_ok hplaced
    rfl

/-- What is given out parses to the tree that comes with it, whichever printer wrote it. -/
theorem parse_of_render {rendered : Rendered} (h : render tree = .ok rendered) :
    Tree.parse rendered.text tree.language = .ok rendered.tree := by
  unfold render at h
  split at h
  · next reread hparse =>
    cases h
    exact hparse
  · split at h
    · next reread hparse =>
      cases h
      exact hparse
    · cases h

/-! ## One edit -/

/-- The entry of a file after an edit: the new text if the edit succeeds, the text that was to be
edited if it fails, and what was there before if that text does not parse. -/
def EntryAfter (before : Option CacheEntry) (request : Request) (outcome : Outcome)
    (entry : Option CacheEntry) : Prop :=
  match Tree.parse request.source (Language.ofFile request.file) with
  | .error _ => outcome.success = false ∧ entry = before
  | .ok tree =>
    match outcome.newSource with
    | some text =>
      outcome.success = true ∧ ∃ edited,
        Tree.parse text (Language.ofFile request.file) = .ok edited ∧
        entry = some ⟨request.file, text, edited⟩
    | none => outcome.success = false ∧ entry = some ⟨request.file, request.source, tree⟩

/-- **What an edit leaves in the cache.** -/
theorem sets_transform (h : cache.Sound) (config : Config) (request : Request) :
    ∃ entry, cache.Sets (transform config cache request).1 request.file entry ∧
      EntryAfter (cache.find? request.file) request (transform config cache request).2 entry := by
  have hsnd := ParseCache.parse_snd h request.source request.file
  have hsets := ParseCache.sets_parse h request.source request.file
  unfold transform EntryAfter
  generalize cache.parse request.source request.file = parsed at hsnd hsets
  -- from here on the cache is the one that parsing left
  obtain ⟨after, result⟩ := parsed
  dsimp only at hsnd hsets ⊢
  subst hsnd
  cases hparse : Tree.parse request.source (Language.ofFile request.file) with
  | error fault =>
    rw [hparse] at hsets
    exact ⟨_, hsets, rfl, rfl⟩
  | ok tree =>
    rw [hparse] at hsets
    dsimp only
    cases hedit : editTree config tree request with
    | error fault => exact ⟨_, hsets, rfl, rfl⟩
    | ok edited =>
      dsimp only
      cases hrender : render edited.tree with
      | error fault => exact ⟨_, hsets, rfl, rfl⟩
      | ok rendered =>
        -- the text that is given out was read again in the language of the file
        have hreread := parse_of_render hrender
        rw [language_of_editTree hedit, language_of_parse hparse] at hreread
        exact ⟨_, hsets.trans (ParseCache.sets_store hsets.sound hreread), rfl, _, hreread, rfl⟩

/-! ## Answers -/

variable {other : ParseCache}

/-- **The outcome of an edit does not depend on the cache.** -/
theorem transform_snd (h : cache.Sound) (h' : other.Sound) (config : Config) (request : Request) :
    (transform config cache request).2 = (transform config other request).2 := by
  have hsame := ParseCache.parse_snd h request.source request.file
  rw [← ParseCache.parse_snd h' request.source request.file] at hsame
  unfold transform
  dsimp only
  rw [hsame]
  split
  · rfl
  · split
    · rfl
    · split <;> rfl

/-- Edits in a row change the entry of their file, and what comes out does not depend on the cache. -/
theorem batchFrom_spec (h : cache.Sound) (h' : other.Sound) (config : Config) (file : String)
    (index : Nat) (source : String) (edits : List BatchEdit) :
    (∃ entry, cache.Sets (batchFrom config file cache index source edits).1 file entry) ∧
      (batchFrom config file cache index source edits).2 =
        (batchFrom config file other index source edits).2 := by
  induction edits generalizing cache other index source with
  | nil => exact ⟨⟨_, .refl h file⟩, rfl⟩
  | cons edit rest ih =>
    have hsame := transform_snd h h' config ⟨source, file, edit.locator, edit.operation⟩
    obtain ⟨entry, hsets, -⟩ :=
      sets_transform h config ⟨source, file, edit.locator, edit.operation⟩
    obtain ⟨_, hsets', -⟩ :=
      sets_transform h' config ⟨source, file, edit.locator, edit.operation⟩
    -- both go on with the same text, each with its own cache
    unfold batchFrom
    dsimp only
    rw [hsame]
    split
    · obtain ⟨⟨last, hrest⟩, hanswer⟩ := ih hsets.sound hsets'.sound (index + 1) _
      exact ⟨⟨last, hsets.trans hrest⟩, by rw [hanswer]⟩
    · exact ⟨⟨entry, hsets⟩, rfl⟩

theorem batch_snd (h : cache.Sound) (h' : other.Sound) (config : Config) (request : BatchRequest) :
    (batch config cache request).2 = (batch config other request).2 :=
  (batchFrom_spec h h' config request.file 0 request.source request.edits).2

theorem findNodes_snd (h : cache.Sound) (h' : other.Sound) (config : Config)
    (source file : String) :
    (findNodes config cache source file).2 = (findNodes config other source file).2 := by
  unfold findNodes
  dsimp only
  rw [ParseCache.parse_snd h, ParseCache.parse_snd h']

/-! ## Sessions -/

/-- A call that reads a text. The others are about the cache itself. -/
def Call.reads : Call → Bool
  | .transform _ _ | .batch _ _ | .findNodes _ _ _ => true
  | .invalidate _ | .clear => false

/-- A call changes no entry but that of its file. -/
theorem sets_run (h : cache.Sound) {call : Call} {file : String} (hfile : call.file? = some file) :
    ∃ entry, cache.Sets (call.run cache).1 file entry := by
  cases call with
  | transform config request =>
    cases hfile
    obtain ⟨entry, hsets, -⟩ := sets_transform h config request
    exact ⟨entry, hsets⟩
  | batch config request =>
    cases hfile
    exact (batchFrom_spec h h config _ 0 _ request.edits).1
  | findNodes config source file =>
    cases hfile
    exact ⟨_, ParseCache.sets_parse h source file⟩
  | invalidate file =>
    cases hfile
    exact ⟨none, ParseCache.sets_drop h file⟩
  | clear => cases hfile

theorem sound_run (h : cache.Sound) (call : Call) : (call.run cache).1.Sound := by
  cases hfile : call.file? with
  | some file =>
    obtain ⟨entry, hsets⟩ := sets_run h hfile
    exact hsets.sound
  | none =>
    cases call with
    | clear => exact ParseCache.sound_clear cache
    | _ => cases hfile

theorem run_snd (h : cache.Sound) (h' : other.Sound) {call : Call} (hreads : call.reads = true) :
    (call.run cache).2 = (call.run other).2 := by
  cases call with
  | transform config request => exact congrArg Answer.transformed (transform_snd h h' config request)
  | batch config request => exact congrArg Answer.batched (batch_snd h h' config request)
  | findNodes config source file =>
    exact congrArg Answer.listed (findNodes_snd h h' config source file)
  | invalidate file => cases hreads
  | clear => cases hreads

/-- **Whatever is called, the cache stays sound.** -/
theorem sound_runCalls (h : cache.Sound) (calls : List Call) : (runCalls cache calls).1.Sound := by
  induction calls generalizing cache with
  | nil => exact h
  | cons call rest ih => exact ih (sound_run h call)

/-- Each of the calls that read a text answers as it does without any cache. -/
theorem answers_runCalls (h : cache.Sound) (calls : List Call) :
    List.Forall₂ (fun call answer => call.reads = true → answer = (call.run ParseCache.empty).2)
      calls (runCalls cache calls).2 := by
  induction calls generalizing cache with
  | nil => exact .nil
  | cons call rest ih =>
    exact .cons (fun hreads => run_snd h ParseCache.sound_empty hreads) (ih (sound_run h call))

/-- **The cache does not show.** After any session each entry holds the parse of its text, and every
call that reads a text has answered as it would with an empty cache. Another edit then leaves, as the
entry of its file, its new text with the parse of that; the text that it was to edit, if it fails;
and what was there, if that text does not parse. No call changes the entry of another file. -/
theorem cache_transparent (calls : List Call) :
    (runCalls .empty calls).1.Sound ∧
    List.Forall₂ (fun call answer => call.reads = true → answer = (call.run .empty).2)
      calls (runCalls .empty calls).2 ∧
    (∀ config request,
      EntryAfter ((runCalls .empty calls).1.find? request.file) request
        (transform config (runCalls .empty calls).1 request).2
        ((transform config (runCalls .empty calls).1 request).1.find? request.file)) ∧
    ∀ (call : Call) file, call.file? = some file → ∀ other, other ≠ file →
      (call.run (runCalls .empty calls).1).1.find? other =
        (runCalls .empty calls).1.find? other := by
  have hsound := sound_runCalls ParseCache.sound_empty calls
  refine ⟨hsound, answers_runCalls ParseCache.sound_empty calls, ?_, ?_⟩
  · intro config request
    obtain ⟨entry, hsets, hentry⟩ := sets_transform hsound config request
    rwa [hsets.here]
  · intro call file hfile
    obtain ⟨entry, hsets⟩ := sets_run hsound hfile
    exact hsets.others

end MarkupEdit.Edit
