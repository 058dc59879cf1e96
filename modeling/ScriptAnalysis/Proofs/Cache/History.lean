import Mathlib.Data.Finset.Card
import Mathlib.Data.List.DropRight
import ScriptAnalysis.Proofs.Cache.Run

/-!
# The history of a cache

What a cache does can be told from the run of its operations alone, without its entries. A look-up
gets what the earliest look-up with its tag has computed, of those made since the last invalidation:
the very same entry, whatever indexer and disk the later look-up brings along.

* `Cache.recent`, `Cache.first?`: the look-ups since the last invalidation, and the earliest of them
  with a tag.
* `Cache.Mirrors`, `Cache.mirrors_after`: what holds between a cache and its history, kept by every
  operation.
* `Cache.exists_made`: every look-up gets the entry that the earliest one made.
* `Cache.FollowsHistory`, `Cache.followsHistory_after`: a cache refines its history.
-/

namespace ScriptAnalysis

namespace Cache

/-! ## Histories -/

/-- The look-ups of a run since its last invalidation, with their numbers in the run. -/
def recent (vocabulary : Vocabulary) (events : List Event) : List (Lookup × Nat) :=
  (events.zipIdx.rtakeWhile fun numbered => !numbered.1.invalidates vocabulary).filterMap
    fun numbered => (numbered.1.lookup? vocabulary).map (·, numbered.2)

/-- The earliest look-up with a tag since the last invalidation of a run, with its number. -/
def first? (vocabulary : Vocabulary) (events : List Event) (tag : Tag) : Option (Lookup × Nat) :=
  (recent vocabulary events).find? fun found => found.1.request.tag = tag

/-- The look-up that the operation with a number makes. -/
def lookupAt? (vocabulary : Vocabulary) (events : List Event) (number : Nat) : Option Lookup :=
  events[number]?.bind (·.lookup? vocabulary)

/-- For the look-up with a number, the earliest one with the same tag since the last invalidation
before it, with its number. -/
def originAt? (vocabulary : Vocabulary) (events : List Event) (number : Nat) :
    Option (Lookup × Nat) :=
  (lookupAt? vocabulary events number).bind fun lookup =>
    first? vocabulary (events.take (number + 1)) lookup.request.tag

/-- The entry that the look-up with a number gets. -/
def entryAt? (vocabulary : Vocabulary) (events : List Event) (number : Nat) : Option CacheEntry :=
  (lookupAt? vocabulary events number).map fun lookup =>
    ((after vocabulary (events.take number)).look lookup).1

/-- The answer to the operation with a number. -/
def answerAt? (vocabulary : Vocabulary) (events : List Event) (number : Nat) : Option Answer :=
  events[number]?.map fun event => ((after vocabulary (events.take number)).perform event).1

variable {vocabulary : Vocabulary} {events : List Event} {event : Event} {lookup : Lookup}

theorem recent_concat_of_invalidates (h : event.invalidates vocabulary = true) :
    recent vocabulary (events ++ [event]) = [] := by
  rw [recent, List.zipIdx_append, List.zipIdx_singleton, List.rtakeWhile_concat_neg]
  · rfl
  · simp [h]

theorem recent_concat (h : event.invalidates vocabulary = false) :
    recent vocabulary (events ++ [event]) =
      recent vocabulary events ++ ((event.lookup? vocabulary).map (·, events.length)).toList := by
  rw [recent, List.zipIdx_append, List.zipIdx_singleton, List.rtakeWhile_concat_pos,
    List.filterMap_append, recent]
  · cases hlookup : event.lookup? vocabulary <;> simp [hlookup]
  · simp [h]

/-- A look-up is the earliest with its tag if there was none before it. -/
theorem first?_concat (h : event.lookup? vocabulary = some lookup) (tag : Tag) :
    first? vocabulary (events ++ [event]) tag =
      (first? vocabulary events tag).or
        (if lookup.request.tag = tag then some (lookup, events.length) else none) := by
  rw [first?, recent_concat (invalidates_eq_false_of_lookup? h), List.find?_append, h, first?]
  split <;> simp_all

theorem lookupAt?_append {number : Nat} (h : number < events.length) (others : List Event) :
    lookupAt? vocabulary (events ++ others) number = lookupAt? vocabulary events number := by
  rw [lookupAt?, List.getElem?_append_left h, lookupAt?]

theorem lookupAt?_length (events : List Event) (event : Event) :
    lookupAt? vocabulary (events ++ [event]) events.length = event.lookup? vocabulary := by
  simp [lookupAt?]

theorem lt_length_of_lookupAt? {number : Nat}
    (h : lookupAt? vocabulary events number = some lookup) : number < events.length := by
  obtain ⟨event, hevent, -⟩ := Option.bind_eq_some_iff.1 h
  exact (List.getElem?_eq_some_iff.1 hevent).1

theorem entryAt?_append {number : Nat} (h : number < events.length) (others : List Event) :
    entryAt? vocabulary (events ++ others) number = entryAt? vocabulary events number := by
  rw [entryAt?, lookupAt?_append h, List.take_append_of_le_length (Nat.le_of_lt h), entryAt?]

theorem entryAt?_length (h : event.lookup? vocabulary = some lookup) :
    entryAt? vocabulary (events ++ [event]) events.length =
      some ((after vocabulary events).look lookup).1 := by
  rw [entryAt?, lookupAt?_length, h, List.take_left, Option.map_some]

/-! ## The cache and its history -/

/-- Whether an entry is what a look-up with its number has computed. The serial numbers before and
after it tell this computation from every other one. -/
structure Made (vocabulary : Vocabulary) (events : List Event) (first : Lookup × Nat)
    (entry : CacheEntry) : Prop where
  /-- The look-up was made at its number. -/
  lookupAt?_eq : lookupAt? vocabulary events first.2 = some first.1
  /-- It got the entry. -/
  entryAt?_eq : entryAt? vocabulary events first.2 = some entry
  /-- The entry holds the index that it computed. -/
  index_eq : entry.index = first.1.compute
  /-- The serial number of the entry was not used before. -/
  serial_eq : entry.serial = (after vocabulary (events.take first.2)).computed
  /-- It was used up by the look-up. -/
  computed_eq : (after vocabulary (events.take (first.2 + 1))).computed = entry.serial + 1

/-- What was computed in a run was computed in every longer one. -/
theorem Made.append {first : Lookup × Nat} {entry : CacheEntry}
    (h : Made vocabulary events first entry) (others : List Event) :
    Made vocabulary (events ++ others) first entry := by
  have hlt := lt_length_of_lookupAt? h.lookupAt?_eq
  refine ⟨?_, ?_, h.index_eq, ?_, ?_⟩
  · rw [lookupAt?_append hlt, h.lookupAt?_eq]
  · rw [entryAt?_append hlt, h.entryAt?_eq]
  · rw [List.take_append_of_le_length (Nat.le_of_lt hlt), h.serial_eq]
  · rw [List.take_append_of_le_length hlt, h.computed_eq]

/-- What holds between a cache and the run that led to it. -/
structure Mirrors (vocabulary : Vocabulary) (events : List Event) (cache : Cache) : Prop where
  /-- The vocabulary is that of the run. -/
  vocabulary_eq : cache.vocabulary = vocabulary
  /-- The revision counts the invalidations. -/
  revision_eq : cache.revision = events.countP (·.invalidates vocabulary) % UInt64.size
  /-- Every entry was stored since the last of them. -/
  isCurrent : cache.IsCurrent
  /-- Under a tag stands what the earliest look-up with it computed. -/
  exists_stored : ∀ tag first, first? vocabulary events tag = some first →
    ∃ entry, cache.stored? tag = some entry ∧ Made vocabulary events first entry
  /-- Under a tag without a look-up stands nothing. -/
  stored?_eq_none : ∀ tag, first? vocabulary events tag = none → cache.stored? tag = none
  /-- There is one entry for each tag. -/
  size_eq : cache.size =
    ((recent vocabulary events).map fun found => found.1.request.tag).toFinset.card

namespace Mirrors

variable {cache : Cache}

theorem empty (vocabulary : Vocabulary) : Mirrors vocabulary [] (.empty vocabulary) where
  vocabulary_eq := rfl
  revision_eq := rfl
  isCurrent := by simp [IsCurrent, Cache.empty]
  exists_stored _ _ hfirst := by cases hfirst
  stored?_eq_none _ _ := rfl
  size_eq := rfl

/-- After an invalidation there are no recent look-ups and no entries. -/
theorem invalidate (h : Mirrors vocabulary events cache)
    (hinvalidates : event.invalidates vocabulary = true) :
    Mirrors vocabulary (events ++ [event]) cache.invalidate where
  vocabulary_eq := h.vocabulary_eq
  revision_eq := by
    rw [List.countP_append, List.countP_singleton, if_pos hinvalidates, Cache.invalidate,
      h.revision_eq, Nat.mod_add_mod]
  isCurrent := by simp [IsCurrent, Cache.invalidate]
  exists_stored tag first hfirst := by
    rw [first?, recent_concat_of_invalidates hinvalidates] at hfirst
    cases hfirst
  stored?_eq_none _ _ := rfl
  size_eq := by
    rw [recent_concat_of_invalidates hinvalidates]
    rfl

/-- An operation that neither looks up nor invalidates belongs to no history. -/
theorem keep (h : Mirrors vocabulary events cache) (hlookup : event.lookup? vocabulary = none)
    (hstays : event.invalidates vocabulary = false) :
    Mirrors vocabulary (events ++ [event]) cache := by
  have hrecent : recent vocabulary (events ++ [event]) = recent vocabulary events := by
    rw [recent_concat hstays, hlookup]
    simp
  refine ⟨h.vocabulary_eq, ?_, h.isCurrent, fun tag first hfirst => ?_, fun tag hnone => ?_, ?_⟩
  · rw [List.countP_append, List.countP_singleton, if_neg (by simp [hstays]), h.revision_eq,
      Nat.add_zero]
  · rw [first?, hrecent] at hfirst
    obtain ⟨entry, hentry, hmade⟩ := h.exists_stored tag first hfirst
    exact ⟨entry, hentry, hmade.append [event]⟩
  · rw [first?, hrecent] at hnone
    exact h.stored?_eq_none tag hnone
  · rw [hrecent, h.size_eq]

end Mirrors

/-- The entry that a look-up gets is what the earliest look-up with its tag computed. -/
theorem Mirrors.exists_first (h : Mirrors vocabulary events (after vocabulary events))
    (hlookup : event.lookup? vocabulary = some lookup) :
    ∃ first, first? vocabulary (events ++ [event]) lookup.request.tag = some first ∧
      Made vocabulary (events ++ [event]) first ((after vocabulary events).look lookup).1 := by
  rw [first?_concat hlookup, if_pos rfl]
  cases hfirst : first? vocabulary events lookup.request.tag with
  | some first =>
    -- The earliest look-up before this one stays the earliest, and its entry is found.
    obtain ⟨entry, hentry, hmade⟩ := h.exists_stored _ first hfirst
    rw [look_of_find?_some h.isCurrent hentry]
    exact ⟨first, rfl, hmade.append [event]⟩
  | none =>
    -- Nothing is found, and this look-up computes.
    have hlook := look_of_find?_none h.isCurrent (h.stored?_eq_none _ hfirst)
    have hperform : (after vocabulary events).perform event = _ :=
      perform_of_lookup? (by rw [h.vocabulary_eq]; exact hlookup)
    refine ⟨(lookup, events.length), rfl, ?_, entryAt?_length hlookup, ?_, ?_, ?_⟩
    · rw [lookupAt?_length, hlookup]
    · rw [hlook]
      rfl
    · rw [hlook, List.take_left]
      rfl
    · show (after vocabulary ((events ++ [event]).take (events.length + 1))).computed = _
      rw [List.take_of_length_le (by simp), after_concat, hperform, hlook]
      rfl

/-- A look-up adds itself to the history, and the cache stays its mirror. -/
theorem Mirrors.look (h : Mirrors vocabulary events (after vocabulary events))
    (hlookup : event.lookup? vocabulary = some lookup) :
    Mirrors vocabulary (events ++ [event]) ((after vocabulary events).look lookup).2 := by
  have hstays := invalidates_eq_false_of_lookup? hlookup
  obtain ⟨hcurrent, hrevision⟩ := isCurrent_look h.isCurrent lookup
  refine ⟨?_, ?_, hcurrent, fun tag first hfirst => ?_, fun tag hnone => ?_, ?_⟩
  · rw [vocabulary_look, h.vocabulary_eq]
  · rw [hrevision, h.revision_eq, List.countP_append, List.countP_singleton,
      if_neg (by simp [hstays]), Nat.add_zero]
  · -- Under the tag of the look-up there is now its first entry; the other tags keep theirs.
    rw [stored?_look h.isCurrent]
    split
    · next htag =>
      obtain ⟨own, hown, hmade⟩ := h.exists_first hlookup
      rw [htag, hfirst] at hown
      cases hown
      exact ⟨_, rfl, hmade⟩
    · next htag =>
      rw [first?_concat hlookup, if_neg htag, Option.or_none] at hfirst
      obtain ⟨entry, hentry, hmade⟩ := h.exists_stored tag first hfirst
      exact ⟨entry, hentry, hmade.append [event]⟩
  · rw [first?_concat hlookup, Option.or_eq_none_iff] at hnone
    rw [stored?_look h.isCurrent, h.stored?_eq_none tag hnone.1, ite_eq_right_iff]
    intro htag
    rw [if_pos htag] at hnone
    cases hnone.2
  · -- The tag is a new one exactly if the cache held nothing under it.
    have htags : ((recent vocabulary (events ++ [event])).map fun found =>
        found.1.request.tag).toFinset =
          insert lookup.request.tag
            ((recent vocabulary events).map fun found => found.1.request.tag).toFinset := by
      rw [recent_concat hstays, hlookup]
      simp
    have hmem : lookup.request.tag ∈
        ((recent vocabulary events).map fun found => found.1.request.tag).toFinset ↔
          (first? vocabulary events lookup.request.tag).isSome = true := by
      simp [first?, List.find?_isSome]
    rw [htags]
    cases hfirst : first? vocabulary events lookup.request.tag with
    | some first =>
      obtain ⟨entry, hentry, -⟩ := h.exists_stored _ first hfirst
      rw [look_of_find?_some h.isCurrent hentry, h.size_eq, Finset.insert_eq_of_mem]
      rw [hmem, hfirst, Option.isSome_some]
    | none =>
      rw [look_of_find?_none h.isCurrent (h.stored?_eq_none _ hfirst),
        Finset.card_insert_of_notMem, ← h.size_eq]
      · rfl
      · rw [hmem, hfirst]
        simp

/-- The cache after a run mirrors its history. -/
theorem mirrors_after (vocabulary : Vocabulary) (events : List Event) :
    Mirrors vocabulary events (after vocabulary events) := by
  induction events using List.reverseRecOn with
  | nil => exact Mirrors.empty vocabulary
  | append_singleton events event ih =>
    rw [after_concat]
    have hcases := perform_cases (after vocabulary events) event
    rw [ih.vocabulary_eq] at hcases
    rcases hcases with ⟨lookup, hlookup, heq⟩ | ⟨hinvalidates, heq⟩ | ⟨hlookup, hstays, heq⟩
    · rw [heq]
      exact ih.look hlookup
    · rw [heq]
      exact ih.invalidate hinvalidates
    · rw [heq]
      exact ih.keep hlookup hstays

/-! ## Look-ups in a run -/

/-- Every look-up of a run gets the entry that the earliest one with its tag made. -/
theorem exists_made {number : Nat} (h : lookupAt? vocabulary events number = some lookup) :
    ∃ first entry, originAt? vocabulary events number = some first ∧
      Made vocabulary events first entry ∧ entryAt? vocabulary events number = some entry := by
  obtain ⟨event, hevent, hlookup⟩ := Option.bind_eq_some_iff.1 h
  obtain ⟨hlt, rfl⟩ := List.getElem?_eq_some_iff.1 hevent
  -- The run is what comes before the look-up, the look-up, and what follows.
  obtain ⟨first, hfirst, hmade⟩ :=
    (mirrors_after vocabulary (events.take number)).exists_first hlookup
  rw [List.take_concat_get' events number hlt] at hfirst hmade
  have hrun := hmade.append (events.drop (number + 1))
  rw [List.take_append_drop] at hrun
  refine ⟨first, _, ?_, hrun, ?_⟩
  · rw [originAt?, h, Option.bind_some, hfirst]
  · rw [entryAt?, h, Option.map_some]

/-- The number of computed indexes never falls in a run. -/
theorem computed_take_le (vocabulary : Vocabulary) (events : List Event) {early late : Nat}
    (h : early ≤ late) :
    (after vocabulary (events.take early)).computed ≤
      (after vocabulary (events.take late)).computed := by
  induction h with
  | refl => exact Nat.le_refl _
  | @step late hle ih =>
    refine Nat.le_trans ih ?_
    by_cases hlt : late < events.length
    · rw [← List.take_concat_get' events late hlt, after_concat]
      exact computed_le_perform _ _
    · rw [List.take_of_length_le (by omega), List.take_of_length_le (by omega)]

/-- Entries made by different look-ups have different serial numbers. -/
theorem Made.serial_lt {first later : Lookup × Nat} {entry other : CacheEntry}
    (h : Made vocabulary events first entry) (hlater : Made vocabulary events later other)
    (hlt : first.2 < later.2) : entry.serial < other.serial := by
  have hle := computed_take_le vocabulary events (Nat.succ_le_of_lt hlt)
  rw [h.computed_eq, ← hlater.serial_eq] at hle
  exact hle

/-- What a cache does in a run, told by the run alone. -/
structure FollowsHistory (vocabulary : Vocabulary) (events : List Event) : Prop where
  /-- Every look-up gets the very entry that the earliest look-up with its tag since the last
  invalidation got, and that one computed it. -/
  entry_eq : ∀ number lookup, lookupAt? vocabulary events number = some lookup →
    ∃ first entry, originAt? vocabulary events number = some first ∧
      lookupAt? vocabulary events first.2 = some first.1 ∧
      entryAt? vocabulary events number = some entry ∧
      entryAt? vocabulary events first.2 = some entry ∧ entry.index = first.1.compute
  /-- Entries are told apart by their serial numbers, and are the same for the same earliest
  look-up only. -/
  serial_eq_iff : ∀ number number' entry entry',
    entryAt? vocabulary events number = some entry →
    entryAt? vocabulary events number' = some entry' →
      (entry.serial = entry'.serial ↔
        (originAt? vocabulary events number).map (·.2) =
          (originAt? vocabulary events number').map (·.2))
  /-- An operation that looks up an index answers with its entry, and one that looks up names with
  the defined names of the index in the entry. These are the names that the index has an entry for
  among its definitions, be it without a place, in increasing order. -/
  answer_eq : ∀ number event entry, events[number]? = some event →
    entryAt? vocabulary events number = some entry →
      match event.operation with
      | .names _ =>
          answerAt? vocabulary events number = some (.names entry.index.definedNames) ∧
          entry.index.definedNames.Pairwise (· < ·) ∧
          ∀ name, name ∈ entry.index.definedNames ↔ name ∈ entry.index.definitions.names
      | _ => answerAt? vocabulary events number = some (.index entry)
  /-- The revision is the number of invalidations, as a word of 64 bits. -/
  revision_eq : (after vocabulary events).revision =
    events.countP (·.invalidates vocabulary) % UInt64.size
  /-- The size is the number of different tags looked up since the last invalidation. -/
  size_eq : (after vocabulary events).size =
    ((recent vocabulary events).map fun found => found.1.request.tag).toFinset.card
  /-- Every stored entry has the current revision in its key. -/
  isCurrent : (after vocabulary events).IsCurrent

/-- An operation that makes a look-up presents the entry that the look-up gets. -/
theorem answerAt?_eq {number : Nat} {entry : CacheEntry} (hevent : events[number]? = some event)
    (hentry : entryAt? vocabulary events number = some entry) :
    answerAt? vocabulary events number = some (event.operation.present entry) := by
  obtain ⟨lookup, hlookup, rfl⟩ := Option.map_eq_some_iff.1 hentry
  rw [lookupAt?, hevent, Option.bind_some] at hlookup
  have hvocabulary := (mirrors_after vocabulary (events.take number)).vocabulary_eq
  rw [answerAt?, hevent, Option.map_some, perform_of_lookup? (by rw [hvocabulary]; exact hlookup)]

/-- A cache follows the history of its run, whatever the run. -/
theorem followsHistory_after (vocabulary : Vocabulary) (events : List Event) :
    FollowsHistory vocabulary events where
  entry_eq number lookup hlookup := by
    obtain ⟨first, entry, horigin, hmade, hentry⟩ := exists_made hlookup
    exact ⟨first, entry, horigin, hmade.lookupAt?_eq, hentry, hmade.entryAt?_eq, hmade.index_eq⟩
  serial_eq_iff number number' entry entry' hentry hentry' := by
    obtain ⟨lookup, hlookup, -⟩ := Option.map_eq_some_iff.1 hentry
    obtain ⟨lookup', hlookup', -⟩ := Option.map_eq_some_iff.1 hentry'
    obtain ⟨first, made, horigin, hmade, hmade_eq⟩ := exists_made hlookup
    obtain ⟨first', made', horigin', hmade', hmade_eq'⟩ := exists_made hlookup'
    cases hentry.symm.trans hmade_eq
    cases hentry'.symm.trans hmade_eq'
    rw [horigin, horigin', Option.map_some, Option.map_some, Option.some.injEq]
    constructor
    · -- Serials grow with the number of the look-up that made the entry.
      intro hserial
      rcases Nat.lt_trichotomy first.2 first'.2 with hlt | heq | hgt
      · exact absurd hserial (Nat.ne_of_lt (hmade.serial_lt hmade' hlt))
      · exact heq
      · exact absurd hserial.symm (Nat.ne_of_lt (hmade'.serial_lt hmade hgt))
    · intro heq
      rw [hmade.serial_eq, hmade'.serial_eq, heq]
  answer_eq number event entry hevent hentry := by
    have hanswer := answerAt?_eq hevent hentry
    obtain ⟨disk, operation⟩ := event
    cases operation with
    | names request =>
      exact ⟨hanswer, Text.pairwise_sortDistinct _, fun name => SymbolIndex.mem_definedNames⟩
    | index request => exact hanswer
    | indexWith indexer request => exact hanswer
    | key request => exact hanswer
    | invalidate => exact hanswer
    | notify paths => exact hanswer
  revision_eq := (mirrors_after vocabulary events).revision_eq
  size_eq := (mirrors_after vocabulary events).size_eq
  isCurrent := (mirrors_after vocabulary events).isCurrent

end Cache

end ScriptAnalysis
