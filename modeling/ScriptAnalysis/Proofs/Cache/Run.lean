import Mathlib.Data.List.Find
import ScriptAnalysis.Cache

/-!
# Runs of a cache

A cache is used by one operation after the other, each on the disk of its time. An operation makes a
look-up, invalidates the cache, or leaves it as it is. A look-up comes with the indexer that
computes its index if the cache does not hold one.

* `Cache.Operation`, `Cache.perform`: the operations, and what one of them does.
* `Cache.after`: the cache after a run.
* `Cache.perform_of_lookup?`, `Cache.perform_of_invalidates`, `Cache.perform_of_neither`: what an
  operation does, in the three cases; `Cache.perform_cases`: there is no other.
* `Cache.look_of_find?_some`, `Cache.look_of_find?_none`: a look-up that finds an entry, and one
  that computes it; `Cache.look_cases`: there is no other.
-/

namespace ScriptAnalysis

/-- What computes an index on a disk, for a root whose content is the text if that is given. -/
abbrev Indexer := FileSystem → Path → Option Text → SymbolIndex

namespace Cache

/-- What a look-up asks for. -/
structure Request where
  /-- The kind of symbols. -/
  kind : SymbolKind
  /-- The root of the closure. -/
  root : Path
  /-- The text of the root, if it is in memory. -/
  text : Option Text
  /-- The version of the root's text, if it has one. -/
  version : Option Int

/-- What tells the look-ups of one revision apart. -/
structure Tag where
  /-- The kind of symbols. -/
  kind : SymbolKind
  /-- The parts of the root. -/
  parts : List Part
  /-- The version of the root's text, if it has one. -/
  version : Option Int
  /-- Whether the text of the root is in memory. -/
  hasText : Bool
  deriving DecidableEq

/-- The tag of a request. -/
def Request.tag (request : Request) : Tag :=
  ⟨request.kind, request.root.parts, request.version, request.text.isSome⟩

/-- The tag of a key, which is all of it but the revision. -/
def tagOf (key : CacheKey) : Tag :=
  ⟨key.kind, key.root.parts, key.version, key.hasText⟩

/-- A look-up on a disk, with the indexer that it brings along. -/
structure Lookup where
  /-- The disk at the time of the look-up. -/
  disk : FileSystem
  /-- The indexer. -/
  indexer : Indexer
  /-- What is asked for. -/
  request : Request

/-- What a look-up computes if it has to. -/
def Lookup.compute (lookup : Lookup) : SymbolIndex :=
  lookup.indexer lookup.disk lookup.request.root lookup.request.text

/-- What a cache is asked to do. -/
inductive Operation where
  /-- Get an index, computed under the vocabulary of the cache. -/
  | index (request : Request)
  /-- Get an index, computed by a given indexer. -/
  | indexWith (indexer : Indexer) (request : Request)
  /-- Get the names defined in an index, computed under the vocabulary of the cache. -/
  | names (request : Request)
  /-- Get the key of a look-up made now. -/
  | key (request : Request)
  /-- Drop all indexes. -/
  | invalidate
  /-- Take note of changed files. -/
  | notify (paths : List Path)

/-- What a cache answers. -/
inductive Answer where
  /-- The entry of an index. -/
  | index (entry : CacheEntry)
  /-- Names in increasing order. -/
  | names (names : List Text)
  /-- The key of a look-up. -/
  | key (key : CacheKey)
  /-- The new revision. -/
  | revision (revision : Nat)
  /-- Whether the changes were those of a script. -/
  | noted (touched : Bool)

/-- An operation with the disk at its time. -/
structure Event where
  /-- The disk. -/
  disk : FileSystem
  /-- The operation. -/
  operation : Operation

/-- What a cache answers to an operation, and the cache after it. -/
def perform (cache : Cache) (event : Event) : Answer × Cache :=
  match event.operation with
  | .index request =>
    let (entry, next) :=
      cache.indexEntry event.disk request.kind request.root request.text request.version
    (.index entry, next)
  | .indexWith indexer request =>
    let (entry, next) :=
      cache.lookup (indexer event.disk) request.kind request.root request.text request.version
    (.index entry, next)
  | .names request =>
    let (names, next) :=
      cache.definedNames event.disk request.kind request.root request.text request.version
    (.names names, next)
  | .key request =>
    (.key (cache.key request.kind request.root request.text request.version), cache)
  | .invalidate => (.revision cache.invalidate.revision, cache.invalidate)
  | .notify paths => (.noted (cache.touchesScript paths), cache.notify paths)

/-- The cache after a run that starts without any index. -/
def after (vocabulary : Vocabulary) (events : List Event) : Cache :=
  events.foldl (fun cache event => (cache.perform event).2) (empty vocabulary)

@[simp]
theorem after_concat (vocabulary : Vocabulary) (events : List Event) (event : Event) :
    after vocabulary (events ++ [event]) = ((after vocabulary events).perform event).2 := by
  simp [after]

/-- The look-up that an operation makes, if it makes one. -/
def Event.lookup? (vocabulary : Vocabulary) (event : Event) : Option Lookup :=
  match event.operation with
  | .index request | .names request =>
    some ⟨event.disk, fun disk => request.kind.index disk vocabulary, request⟩
  | .indexWith indexer request => some ⟨event.disk, indexer, request⟩
  | .key _ | .invalidate | .notify _ => none

/-- Whether an operation is an invalidation: one that is asked for, or the note of a changed
script. -/
def Event.invalidates (vocabulary : Vocabulary) (event : Event) : Bool :=
  match event.operation with
  | .invalidate => true
  | .notify paths => paths.any vocabulary.isScriptPath
  | .index _ | .indexWith _ _ | .names _ | .key _ => false

/-- How an operation that made a look-up presents the entry. -/
def Operation.present (operation : Operation) (entry : CacheEntry) : Answer :=
  match operation with
  | .names _ => .names entry.index.definedNames
  | _ => .index entry

/-- The entry that a look-up gets, and the cache after it. -/
def look (cache : Cache) (lookup : Lookup) : CacheEntry × Cache :=
  let request := lookup.request
  cache.lookup (lookup.indexer lookup.disk) request.kind request.root request.text request.version

variable {cache : Cache} {event : Event} {lookup : Lookup}

/-- An operation that makes a look-up presents the entry that it gets. -/
theorem perform_of_lookup? (h : event.lookup? cache.vocabulary = some lookup) :
    cache.perform event =
      (event.operation.present (cache.look lookup).1, (cache.look lookup).2) := by
  obtain ⟨disk, operation⟩ := event
  cases operation with
  | index request => cases h; rfl
  | indexWith indexer request => cases h; rfl
  | names request => cases h; rfl
  | key request => cases h
  | invalidate => cases h
  | notify paths => cases h

/-- An invalidation invalidates the cache. -/
theorem perform_of_invalidates (h : event.invalidates cache.vocabulary = true) :
    (cache.perform event).2 = cache.invalidate := by
  obtain ⟨disk, operation⟩ := event
  cases operation with
  | index request => cases h
  | indexWith indexer request => cases h
  | names request => cases h
  | key request => cases h
  | invalidate => rfl
  | notify paths => exact if_pos h

/-- Any other operation leaves the cache as it is. -/
theorem perform_of_neither (hlookup : event.lookup? cache.vocabulary = none)
    (hstays : event.invalidates cache.vocabulary = false) : (cache.perform event).2 = cache := by
  obtain ⟨disk, operation⟩ := event
  cases operation with
  | index request => cases hlookup
  | indexWith indexer request => cases hlookup
  | names request => cases hlookup
  | key request => rfl
  | invalidate => cases hstays
  | notify paths => exact if_neg (Bool.eq_false_iff.1 hstays)

/-- A look-up is no invalidation. -/
theorem invalidates_eq_false_of_lookup? {vocabulary : Vocabulary}
    (h : event.lookup? vocabulary = some lookup) : event.invalidates vocabulary = false := by
  obtain ⟨disk, operation⟩ := event
  cases operation with
  | index request => rfl
  | indexWith indexer request => rfl
  | names request => rfl
  | key request => rfl
  | invalidate => cases h
  | notify paths => cases h

/-- Whether every entry was stored in the current revision of the cache. -/
def IsCurrent (cache : Cache) : Prop :=
  ∀ entry ∈ cache.entries, entry.key.revision = cache.revision

/-- The entry that a cache holds under a tag. -/
def stored? (cache : Cache) (tag : Tag) : Option CacheEntry :=
  cache.entries.find? fun entry => tagOf entry.key = tag

/-- The entry that a look-up makes if the cache holds none. -/
def newEntry (cache : Cache) (lookup : Lookup) : CacheEntry where
  key := cache.key lookup.request.kind lookup.request.root lookup.request.text
    lookup.request.version
  serial := cache.computed
  index := lookup.compute

@[simp]
theorem tagOf_newEntry (cache : Cache) (lookup : Lookup) :
    tagOf (cache.newEntry lookup).key = lookup.request.tag :=
  rfl

/-- Keys are the same if they have the same tag and revision. -/
theorem same_iff (left right : CacheKey) :
    left.same right = true ↔ tagOf left = tagOf right ∧ left.revision = right.revision := by
  simp only [CacheKey.same, tagOf, Bool.and_eq_true, decide_eq_true_eq, Tag.mk.injEq]
  grind

/-- A look-up gets a stored entry of its tag, or makes one that the cache keeps. -/
theorem look_cases (cache : Cache) (lookup : Lookup) :
    (∃ entry ∈ cache.entries,
      tagOf entry.key = lookup.request.tag ∧ cache.look lookup = (entry, cache)) ∨
    cache.look lookup =
      (cache.newEntry lookup,
        { cache with
          entries := cache.newEntry lookup :: cache.entries
          computed := cache.computed + 1 }) := by
  simp only [look, Cache.lookup]
  split
  · next entry hfind =>
    have hsame := List.find?_some hfind
    exact .inl ⟨entry, List.mem_of_find?_eq_some hfind, ((same_iff _ _).1 hsame).1, rfl⟩
  · exact .inr rfl

/-- Within one revision, keys are told apart by their tags. -/
theorem find?_same (hcurrent : cache.IsCurrent) (request : Request) :
    cache.entries.find?
        (·.key.same (cache.key request.kind request.root request.text request.version)) =
      cache.stored? request.tag := by
  apply List.find?_congr
  intro entry hentry
  rw [Bool.eq_iff_iff, same_iff, decide_eq_true_iff]
  exact and_iff_left (hcurrent entry hentry)

/-- A look-up gets the entry that the cache holds under its tag. -/
theorem look_of_find?_some (hcurrent : cache.IsCurrent) {entry : CacheEntry}
    (h : cache.stored? lookup.request.tag = some entry) : cache.look lookup = (entry, cache) := by
  simp only [look, Cache.lookup, find?_same hcurrent, h]

/-- A look-up without an entry under its tag makes one, and the cache keeps it. -/
theorem look_of_find?_none (hcurrent : cache.IsCurrent)
    (h : cache.stored? lookup.request.tag = none) :
    cache.look lookup =
      (cache.newEntry lookup,
        { cache with
          entries := cache.newEntry lookup :: cache.entries
          computed := cache.computed + 1 }) := by
  simp only [look, Cache.lookup, find?_same hcurrent, h]
  rfl

/-- After a look-up, its entry is stored under its tag, and every other tag has what it had. -/
theorem stored?_look (hcurrent : cache.IsCurrent) (lookup : Lookup) (tag : Tag) :
    (cache.look lookup).2.stored? tag =
      if lookup.request.tag = tag then some (cache.look lookup).1 else cache.stored? tag := by
  cases hstored : cache.stored? lookup.request.tag with
  | some entry =>
    rw [look_of_find?_some hcurrent hstored]
    split
    · next heq => rw [← heq, hstored]
    · rfl
  | none =>
    rw [look_of_find?_none hcurrent hstored, stored?, List.find?_cons, tagOf_newEntry]
    split <;> simp_all [stored?]

/-- A look-up adds no entry but its own. -/
theorem mem_entries_look {entry : CacheEntry} (h : entry ∈ (cache.look lookup).2.entries) :
    entry = cache.newEntry lookup ∨ entry ∈ cache.entries := by
  rcases cache.look_cases lookup with ⟨found, -, -, hlook⟩ | hlook
  · rw [hlook] at h
    exact .inr h
  · rw [hlook] at h
    exact List.mem_cons.1 h

/-- A look-up starts no revision and leaves the entries in the current one. -/
theorem isCurrent_look (hcurrent : cache.IsCurrent) (lookup : Lookup) :
    (cache.look lookup).2.IsCurrent ∧ (cache.look lookup).2.revision = cache.revision := by
  have hrevision : (cache.look lookup).2.revision = cache.revision := by
    rcases cache.look_cases lookup with ⟨found, -, -, hlook⟩ | hlook
    · rw [hlook]
    · rw [hlook]
  refine ⟨fun entry hentry => ?_, hrevision⟩
  rw [hrevision]
  rcases mem_entries_look hentry with rfl | hold
  · rfl
  · exact hcurrent entry hold

theorem vocabulary_look (cache : Cache) (lookup : Lookup) :
    (cache.look lookup).2.vocabulary = cache.vocabulary := by
  rcases cache.look_cases lookup with ⟨entry, -, -, hlook⟩ | hlook
  · rw [hlook]
  · rw [hlook]

theorem computed_le_look (cache : Cache) (lookup : Lookup) :
    cache.computed ≤ (cache.look lookup).2.computed := by
  rcases cache.look_cases lookup with ⟨entry, -, -, hlook⟩ | hlook
  · rw [hlook]
  · rw [hlook]
    exact Nat.le_succ _

/-- What an operation leaves behind: the cache after its look-up, the invalidated cache, or the same
cache. -/
theorem perform_cases (cache : Cache) (event : Event) :
    (∃ lookup, event.lookup? cache.vocabulary = some lookup ∧
      (cache.perform event).2 = (cache.look lookup).2) ∨
    (event.invalidates cache.vocabulary = true ∧ (cache.perform event).2 = cache.invalidate) ∨
    event.lookup? cache.vocabulary = none ∧ event.invalidates cache.vocabulary = false ∧
      (cache.perform event).2 = cache := by
  cases hlookup : event.lookup? cache.vocabulary with
  | some lookup => exact .inl ⟨lookup, rfl, by rw [perform_of_lookup? hlookup]⟩
  | none =>
    cases hinvalidates : event.invalidates cache.vocabulary with
    | true => exact .inr (.inl ⟨rfl, perform_of_invalidates hinvalidates⟩)
    | false => exact .inr (.inr ⟨rfl, rfl, perform_of_neither hlookup hinvalidates⟩)

/-- The vocabulary of a cache never changes. -/
theorem vocabulary_perform (cache : Cache) (event : Event) :
    (cache.perform event).2.vocabulary = cache.vocabulary := by
  rcases cache.perform_cases event with ⟨lookup, -, heq⟩ | ⟨-, heq⟩ | ⟨-, -, heq⟩
  · rw [heq, vocabulary_look]
  · rw [heq, invalidate]
  · rw [heq]

/-- The number of computed indexes never falls. -/
theorem computed_le_perform (cache : Cache) (event : Event) :
    cache.computed ≤ (cache.perform event).2.computed := by
  rcases cache.perform_cases event with ⟨lookup, -, heq⟩ | ⟨-, heq⟩ | ⟨-, -, heq⟩
  · rw [heq]
    exact computed_le_look cache lookup
  · rw [heq, invalidate]
  · rw [heq]

end Cache

end ScriptAnalysis
