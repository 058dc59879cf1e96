import ScriptAnalysis.Symbol.Indexer

/-!
# The occurrences behind an index

An indexer goes through the lines of the visited scripts and adds what it finds to two maps. What it
finds is a list of occurrences, each with its name, its usage and its place. The index is what comes
of adding them one by one. So the places of a name in one of the maps are those of its occurrences
with this usage, in the order in which they were found, and no other name has an entry.

* `SymbolKind.occurrences`, `SymbolKind.occurrencesIn`: the occurrences on a line and in some
  scripts.
* `SymbolKind.record_eq_foldl`, `SymbolKind.indexOf_eq_ofOccurrences`: an indexer adds the
  occurrences one by one.
* `SymbolIndex.find?_mapOf_ofOccurrences`: what the maps hold then.
* `SymbolIndex.Holds`, `SymbolKind.holds_index`: an index holds exactly the occurrences.
-/

namespace ScriptAnalysis

/-- An occurrence of a symbol. -/
structure Occurrence where
  /-- The name of the symbol. -/
  name : Text
  /-- What the occurrence does. -/
  usage : Usage
  /-- Where it is. -/
  location : Location
  deriving DecidableEq, Repr

/-! ## Occurrences in scripts -/

/-- The subroutine that a line of the file `path` defines or calls, as an occurrence. -/
def subroutineOccurrence? (vocabulary : Vocabulary) (path : Path) (code : CodeLine) :
    Option Occurrence :=
  (subroutineUsage? vocabulary code).bind fun usage =>
    code.argument?.bind fun token =>
      (subroutineName? token.text).map fun name => ⟨name, usage, path, token.span code.line⟩

/-- The variables in the arguments of a line of the file `path`. -/
def variableOccurrences (vocabulary : Vocabulary) (path : Path) (code : CodeLine) :
    List Occurrence :=
  code.arguments.zipIdx.filterMap fun (token, position) =>
    (variableName? token.text).map fun name =>
      let defines := position = 0 ∧ vocabulary.isAssignment code.commandName = true
      ⟨name, if defines then .definition else .reference, path, token.span code.line⟩

namespace SymbolKind

/-- The symbols of a kind on a line of the file `path`. -/
def occurrences (kind : SymbolKind) (vocabulary : Vocabulary) (path : Path) (code : CodeLine) :
    List Occurrence :=
  match kind with
  | subroutine => (subroutineOccurrence? vocabulary path code).toList
  | var => variableOccurrences vocabulary path code

/-- The symbols of a kind in the scripts that a walk visited, script by script and line by line. -/
def occurrencesIn (kind : SymbolKind) (vocabulary : Vocabulary) (visits : List Visit) :
    List Occurrence :=
  visits.flatMap fun visit => visit.lines.flatMap (kind.occurrences vocabulary visit.path)

end SymbolKind

/-! ## Adding occurrences to an index -/

namespace SymbolIndex

/-- The index with one more occurrence. -/
def addOccurrence (index : SymbolIndex) (found : Occurrence) : SymbolIndex :=
  index.add found.usage found.name found.location

/-- The index of some occurrences, which are added in their order. -/
def ofOccurrences (found : List Occurrence) : SymbolIndex :=
  found.foldl addOccurrence empty

/-- The places of the occurrences in which a name is used in a certain way, in their order. -/
def placesIn (found : List Occurrence) (usage : Usage) (name : Text) : List Location :=
  (found.filter fun occurrence => occurrence.usage = usage ∧ occurrence.name = name).map
    (·.location)

/-- After some occurrences were added, a name has its old places and behind them those of its
occurrences. A name that had no entry gets one only from an occurrence. -/
theorem find?_mapOf_foldl (found : List Occurrence) (index : SymbolIndex) (usage : Usage)
    (name : Text) :
    ((found.foldl addOccurrence index).mapOf usage).find? name =
      if placesIn found usage name = [] then (index.mapOf usage).find? name
      else some (index.places usage name ++ placesIn found usage name) := by
  induction found generalizing index with
  | nil => rfl
  | cons first others ih =>
    rw [List.foldl_cons, ih]
    by_cases h : first.usage = usage ∧ first.name = name
    · have hfirst : placesIn (first :: others) usage name =
          first.location :: placesIn others usage name := by
        simp [placesIn, h]
      by_cases hothers : placesIn others usage name = []
      · simp [addOccurrence, h, hfirst, hothers]
      · simp [addOccurrence, places, h, hfirst, hothers]
    · have hfirst : placesIn (first :: others) usage name = placesIn others usage name := by
        simp only [placesIn]
        rw [List.filter_cons_of_neg (by simpa using h)]
      have hentry : ((index.addOccurrence first).mapOf usage).find? name =
          (index.mapOf usage).find? name := by
        rw [addOccurrence, find?_mapOf_add, if_neg fun heq => h ⟨heq.1.symm, heq.2.symm⟩]
      rw [hfirst, hentry, places, hentry, places]

/-- The index of some occurrences has an entry for each name that they use in a certain way, with
the places of these occurrences, and no other entries. -/
theorem find?_mapOf_ofOccurrences (found : List Occurrence) (usage : Usage) (name : Text) :
    ((ofOccurrences found).mapOf usage).find? name =
      if placesIn found usage name = [] then none else some (placesIn found usage name) := by
  rw [ofOccurrences, find?_mapOf_foldl]
  cases usage <;> rfl

/-- Whether an index holds exactly some occurrences. -/
structure Holds (index : SymbolIndex) (found : List Occurrence) : Prop where
  /-- The places of a name are those of its occurrences, in their order. -/
  places_eq : ∀ usage name, index.places usage name =
    (found.filter fun occurrence => occurrence.usage = usage ∧ occurrence.name = name).map
      (·.location)
  /-- The names that have an entry are those of the occurrences. -/
  mem_names_iff : ∀ usage name, name ∈ (index.mapOf usage).names ↔
    ∃ occurrence ∈ found, occurrence.usage = usage ∧ occurrence.name = name

/-- The index of some occurrences holds just these. -/
theorem holds_ofOccurrences (found : List Occurrence) : (ofOccurrences found).Holds found where
  places_eq usage name := by
    rw [places, find?_mapOf_ofOccurrences]
    split
    · next hnone => exact hnone.symm
    · rfl
  mem_names_iff usage name := by
    rw [PlaceMap.mem_names_iff, find?_mapOf_ofOccurrences]
    by_cases hnone : placesIn found usage name = []
    · have hnot : ¬∃ occurrence ∈ found, occurrence.usage = usage ∧ occurrence.name = name := by
        simpa [placesIn, List.filter_eq_nil_iff] using hnone
      simp [hnone, hnot]
    · have hsome : ∃ occurrence ∈ found, occurrence.usage = usage ∧ occurrence.name = name := by
        simpa [placesIn, List.filter_eq_nil_iff] using hnone
      simp [hnone, hsome]

/-- A name has an entry in an index that holds some occurrences if it has a place there. -/
theorem Holds.mem_names_iff_places {index : SymbolIndex} {found : List Occurrence}
    (h : index.Holds found) {usage : Usage} {name : Text} :
    name ∈ (index.mapOf usage).names ↔ index.places usage name ≠ [] := by
  simp [h.mem_names_iff, h.places_eq, List.filter_eq_nil_iff]

/-- A name is defined in an index that holds some occurrences if one of them defines it. -/
theorem Holds.isDefined_iff {index : SymbolIndex} {found : List Occurrence} (h : index.Holds found)
    {name : Text} :
    index.isDefined name = true ↔
      ∃ occurrence ∈ found, occurrence.usage = .definition ∧ occurrence.name = name := by
  simp [isDefined, definitionsOf, h.places_eq, List.filter_eq_nil_iff]

/-- The defined names of an index that holds some occurrences are those with a definition. -/
theorem Holds.mem_definedNames_iff {index : SymbolIndex} {found : List Occurrence}
    (h : index.Holds found) {name : Text} :
    name ∈ index.definedNames ↔ index.isDefined name = true := by
  rw [mem_definedNames, h.isDefined_iff]
  exact h.mem_names_iff .definition name

end SymbolIndex

namespace SymbolKind

/-- Recording a line adds its occurrences. -/
theorem record_eq_foldl (kind : SymbolKind) (vocabulary : Vocabulary) (path : Path)
    (index : SymbolIndex) (code : CodeLine) :
    kind.record vocabulary path index code =
      (kind.occurrences vocabulary path code).foldl SymbolIndex.addOccurrence index := by
  cases kind with
  | subroutine =>
    show recordSubroutine vocabulary path index code =
      (subroutineOccurrence? vocabulary path code).toList.foldl SymbolIndex.addOccurrence index
    rw [recordSubroutine, subroutineOccurrence?]
    cases subroutineUsage? vocabulary code with
    | none => rfl
    | some usage =>
      cases code.argument? with
      | none => rfl
      | some token =>
        dsimp only [Option.bind_some]
        cases subroutineName? token.text <;> rfl
  | var =>
    show recordVariables vocabulary path index code =
      (variableOccurrences vocabulary path code).foldl SymbolIndex.addOccurrence index
    rw [recordVariables, variableOccurrences, List.foldl_filterMap]
    congr 1
    funext index (token, position)
    cases hname : variableName? token.text with
    | none => simp [hname]
    | some name =>
      simp only [hname, Option.map_some]
      split <;> rfl

/-- An indexer adds the occurrences in the visited scripts one by one. -/
theorem indexOf_eq_ofOccurrences (kind : SymbolKind) (vocabulary : Vocabulary)
    (visits : List Visit) :
    kind.indexOf vocabulary visits = .ofOccurrences (kind.occurrencesIn vocabulary visits) := by
  rw [indexOf, SymbolIndex.ofOccurrences, occurrencesIn, List.foldl_flatMap]
  congr 1
  funext index visit
  rw [List.foldl_flatMap]
  congr 1
  funext index code
  exact kind.record_eq_foldl vocabulary visit.path index code

/-- An index holds exactly the occurrences in the scripts that its walk visits. -/
theorem holds_index (kind : SymbolKind) (fs : FileSystem) (vocabulary : Vocabulary) (root : Path)
    (text : Option Text) :
    (kind.index fs vocabulary root text).Holds
      (kind.occurrencesIn vocabulary (Include.walk fs vocabulary root text)) := by
  rw [index, indexOf_eq_ofOccurrences]
  exact SymbolIndex.holds_ofOccurrences _

end SymbolKind

end ScriptAnalysis
