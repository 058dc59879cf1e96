import ScriptAnalysis.Symbol.Indexer

/-!
# A cache of symbol indexes

The cache keeps the indexes computed since the last invalidation. A look-up is identified by the
kind of symbols, the root up to the spelling of its path, the version of its text, the revision of
the cache, and whether the text was given in memory; the text itself does not count. Any change of
a script file starts a new revision and drops all indexes.

* `Cache.lookup`: the stored index of a look-up, or the one computed for it.
* `Cache.invalidate`, `Cache.notify`: start a new revision.
-/

namespace ScriptAnalysis

/-- What identifies a look-up. -/
structure CacheKey where
  /-- The kind of symbols. -/
  kind : SymbolKind
  /-- The root of the closure. -/
  root : Path
  /-- The version of the root's text, if it has one. -/
  version : Option Int
  /-- The revision of the cache. -/
  revision : Nat
  /-- Whether the text of the root was given in memory. -/
  hasText : Bool
  deriving DecidableEq, Repr

/-- Whether two keys identify the same look-up: roots are compared by their parts. -/
def CacheKey.same (left right : CacheKey) : Bool :=
  left.kind = right.kind && left.root.parts = right.root.parts && left.version = right.version &&
    left.revision = right.revision && left.hasText = right.hasText

/-- An index with the look-up it was computed for. -/
structure CacheEntry where
  /-- The look-up. -/
  key : CacheKey
  /-- How many indexes the cache had computed before this one. -/
  serial : Nat
  /-- The index. -/
  index : SymbolIndex
  deriving DecidableEq, Repr

/-- The indexes computed for a vocabulary. -/
structure Cache where
  /-- The vocabulary of the scripts. -/
  vocabulary : Vocabulary
  /-- The number of invalidations, as a word of 64 bits. -/
  revision : Nat
  /-- The stored indexes. -/
  entries : List CacheEntry
  /-- How many indexes have been computed. -/
  computed : Nat
  deriving Repr

namespace Cache

/-- The cache before the first look-up. -/
def empty (vocabulary : Vocabulary) : Cache :=
  ⟨vocabulary, 0, [], 0⟩

/-- The number of stored indexes. -/
def size (cache : Cache) : Nat :=
  cache.entries.length

/-- The key of a look-up made now. -/
def key (cache : Cache) (kind : SymbolKind) (root : Path) (text : Option Text)
    (version : Option Int) : CacheKey :=
  ⟨kind, root, version, cache.revision, text.isSome⟩

/-- Drop all indexes and start a new revision. -/
def invalidate (cache : Cache) : Cache :=
  { cache with revision := (cache.revision + 1) % UInt64.size, entries := [] }

/-- Whether one of the paths is a script. -/
def touchesScript (cache : Cache) (paths : List Path) : Bool :=
  paths.any cache.vocabulary.isScriptPath

/-- Take note of changed files, of which scripts invalidate the cache. -/
def notify (cache : Cache) (paths : List Path) : Cache :=
  if cache.touchesScript paths then cache.invalidate else cache

/-- The stored entry of a look-up, or a new one with the index that `compute` gives for its root
and text. -/
def lookup (cache : Cache) (compute : Path → Option Text → SymbolIndex) (kind : SymbolKind)
    (root : Path) (text : Option Text) (version : Option Int) : CacheEntry × Cache :=
  let key := cache.key kind root text version
  match cache.entries.find? (·.key.same key) with
  | some entry => (entry, cache)
  | none =>
    -- Serial numbers are never used again, so that equal ones mean the same computation.
    let entry : CacheEntry := ⟨key, cache.computed, compute root text⟩
    (entry, { cache with entries := entry :: cache.entries, computed := cache.computed + 1 })

/-- The entry of the index of `root` under the vocabulary of the cache. -/
def indexEntry (cache : Cache) (fs : FileSystem) (kind : SymbolKind) (root : Path)
    (text : Option Text) (version : Option Int) : CacheEntry × Cache :=
  cache.lookup (kind.index fs cache.vocabulary) kind root text version

/-- The names defined in the closure of `root`. -/
def definedNames (cache : Cache) (fs : FileSystem) (kind : SymbolKind) (root : Path)
    (text : Option Text) (version : Option Int) : List Text × Cache :=
  let (entry, next) := cache.indexEntry fs kind root text version
  (entry.index.definedNames, next)

end Cache

end ScriptAnalysis
