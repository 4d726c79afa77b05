import MarkupEdit.Tree.Parse

/-!
# Parse cache

The last tree of each file with the text it was parsed from. Only the same text is answered from
the cache; any other is parsed, and takes its place if it parses.

* `ParseCache.parse`: the tree of a text, and the cache afterwards.
-/

namespace MarkupEdit.Tree

/-- The tree that a file was last known to have. -/
structure CacheEntry where
  file : String
  source : String
  tree : SourceTree

/-- One entry at most for a file, and the counts of answers with and without parsing. -/
structure ParseCache where
  entries : List CacheEntry
  hits : Nat
  misses : Nat

namespace ParseCache

def empty : ParseCache := ⟨[], 0, 0⟩

def find? (cache : ParseCache) (file : String) : Option CacheEntry :=
  cache.entries.find? (·.file == file)

/-- Drops the entry of a file. -/
def drop (cache : ParseCache) (file : String) : ParseCache :=
  { cache with entries := cache.entries.filter (·.file != file) }

/-- Records a tree as the parse of a text. -/
def store (cache : ParseCache) (file source : String) (tree : SourceTree) : ParseCache :=
  { cache with entries := ⟨file, source, tree⟩ :: (cache.drop file).entries }

/-- Drops the entry of a file, and tells whether there was one. -/
def invalidate (cache : ParseCache) (file : String) : ParseCache × Bool :=
  (cache.drop file, (cache.find? file).isSome)

/-- Drops all entries; the counts stay. -/
def clear (cache : ParseCache) : ParseCache := { cache with entries := [] }

/-- The tree in the cache for exactly this text of a file. -/
def lookup? (cache : ParseCache) (file source : String) : Option SourceTree :=
  (cache.find? file).bind (fun entry => if entry.source == source then some entry.tree else none)

/-- The tree of a text. A text that does not parse leaves the entry of its file as it is. -/
def parse (cache : ParseCache) (source file : String) :
    ParseCache × Except SyntaxFault SourceTree :=
  match cache.lookup? file source with
  | some tree => ({ cache with hits := cache.hits + 1 }, .ok tree)
  | none =>
    let cache := { cache with misses := cache.misses + 1 }
    match Tree.parse source (Language.ofFile file) with
    | .ok tree => (cache.store file source tree, .ok tree)
    | .error fault => (cache, .error fault)

end ParseCache

end MarkupEdit.Tree
