import ScriptAnalysis.Path.Basic
import ScriptAnalysis.Symbol.Name
import ScriptAnalysis.Token.Basic

/-!
# Symbol indexes

An index has two maps from names to places: where the symbols of one kind are defined, and where
they are referred to. The places of a name stand in the order in which they were found. A map keeps
its entries in the order in which their names came, but nothing that an index tells depends on this
order.

* `PlaceMap.push`: add a place to those of a name.
* `SymbolIndex.addDefinition`, `SymbolIndex.addReference`: the two ways to add a place to an index.
* `SymbolIndex.definitionsOf`, `SymbolIndex.referencesOf`: the places of a name.
* `SymbolIndex.definedNames`: the names with an entry for definitions, in increasing order.
* `SymbolIndex.primaryDefinition?`: the first definition in the order of paths and lines.
-/

namespace ScriptAnalysis

/-- A span in a file. -/
structure Location where
  /-- The file. -/
  path : Path
  /-- The place in the file. -/
  span : Span
  deriving DecidableEq, Repr

/-- Whether a location comes before another: by the parts of its path, then by its line. -/
def Location.precedes (left right : Location) : Prop :=
  left.path.parts < right.path.parts ∨
    (left.path.parts = right.path.parts ∧ left.span.line < right.span.line)

/-- The order of two locations can be decided. -/
instance (left right : Location) : Decidable (left.precedes right) :=
  inferInstanceAs (Decidable (_ ∨ _))

/-! ## Maps from names to places -/

/-- The entries of a map with a place added to those of a name. A new name is entered. -/
def PlaceMap.pushTo : List (Text × List Location) → Text → Location → List (Text × List Location)
  | [], name, location => [(name, [location])]
  | (other, places) :: rest, name, location =>
    if other = name then (other, places ++ [location]) :: rest
    else (other, places) :: pushTo rest name location

namespace PlaceMap

/-- Adding a place to those of a name enters the name, if it is new. -/
theorem map_fst_pushTo (entries : List (Text × List Location)) (name : Text) (location : Location) :
    (pushTo entries name location).map (·.1) =
      if name ∈ entries.map (·.1) then entries.map (·.1) else entries.map (·.1) ++ [name] := by
  induction entries with
  | nil => rfl
  | cons entry rest ih =>
    obtain ⟨other, places⟩ := entry
    rw [pushTo]
    by_cases h : other = name
    · simp [h]
    · rw [if_neg h, List.map_cons, List.map_cons, ih]
      by_cases hrest : name ∈ rest.map (·.1) <;> simp [hrest, Ne.symm h]

theorem lookup_cons (name other : Text) (places : List Location)
    (rest : List (Text × List Location)) :
    ((other, places) :: rest).lookup name =
      if name = other then some places else rest.lookup name := by
  by_cases h : name = other <;> simp [List.lookup_cons, h, beq_false_of_ne]

/-- Adding a place changes the entry of its name, where it comes last. -/
theorem lookup_pushTo (entries : List (Text × List Location)) (name other : Text)
    (location : Location) :
    (pushTo entries name location).lookup other =
      if other = name then some ((entries.lookup name).getD [] ++ [location])
      else entries.lookup other := by
  induction entries with
  | nil => rw [pushTo, lookup_cons]; rfl
  | cons entry rest ih =>
    obtain ⟨first, places⟩ := entry
    rw [pushTo]
    by_cases hfirst : first = name
    · rw [if_pos hfirst, lookup_cons, lookup_cons, lookup_cons, hfirst]
      by_cases h : other = name <;> simp [h]
    · rw [if_neg hfirst, lookup_cons, lookup_cons, lookup_cons, ih, if_neg (Ne.symm hfirst)]
      by_cases h : other = first
      · rw [if_pos h, if_neg (h ▸ hfirst), if_pos h]
      · rw [if_neg h, if_neg h]

/-- A name has an entry if it is found. -/
theorem mem_map_fst_iff {entries : List (Text × List Location)} {name : Text} :
    name ∈ entries.map (·.1) ↔ entries.lookup name ≠ none := by
  induction entries with
  | nil => simp
  | cons entry rest ih =>
    obtain ⟨other, places⟩ := entry
    rw [lookup_cons, List.map_cons, List.mem_cons, ih]
    by_cases h : name = other <;> simp [h]

end PlaceMap

/-- A map from names to lists of places. A name may have an entry without a place. -/
structure PlaceMap where
  /-- The names with their places. -/
  entries : List (Text × List Location)
  /-- No name has two entries. -/
  nodup : (entries.map (·.1)).Nodup
  deriving DecidableEq, Repr

namespace PlaceMap

/-- The map without entries. -/
def empty : PlaceMap :=
  ⟨[], .nil⟩

/-- The names that have an entry. -/
def names (map : PlaceMap) : List Text :=
  map.entries.map (·.1)

/-- The places in the entry of a name, if it has one. -/
def find? (map : PlaceMap) (name : Text) : Option (List Location) :=
  map.entries.lookup name

/-- The map with a place added to those of a name. -/
def push (map : PlaceMap) (name : Text) (location : Location) : PlaceMap where
  entries := pushTo map.entries name location
  nodup := by
    rw [map_fst_pushTo]
    split
    · exact map.nodup
    · next hnew =>
      refine List.nodup_append.2 ⟨map.nodup, by simp, fun other hother same hsame heq => hnew ?_⟩
      rwa [← List.mem_singleton.1 hsame, ← heq]

@[simp]
theorem find?_empty (name : Text) : empty.find? name = none :=
  rfl

/-- A name has an entry if it is found. -/
theorem mem_names_iff {map : PlaceMap} {name : Text} :
    name ∈ map.names ↔ map.find? name ≠ none :=
  mem_map_fst_iff

/-- Adding a place changes the entry of its name, where it comes last. -/
@[simp]
theorem find?_push (map : PlaceMap) (name other : Text) (location : Location) :
    (map.push name location).find? other =
      if other = name then some ((map.find? name).getD [] ++ [location]) else map.find? other :=
  lookup_pushTo map.entries name other location

end PlaceMap

/-! ## Indexes -/

/-- What a mention of a symbol does to it. -/
inductive Usage where
  /-- It defines the symbol. -/
  | definition
  /-- It refers to the symbol. -/
  | reference
  deriving DecidableEq, Repr

/-- Where the symbols of one kind are defined and referred to. -/
structure SymbolIndex where
  /-- The places of the definitions. -/
  definitions : PlaceMap
  /-- The places of the references. -/
  references : PlaceMap
  deriving DecidableEq, Repr

namespace SymbolIndex

/-- The index without entries. -/
def empty : SymbolIndex :=
  ⟨.empty, .empty⟩

/-- The index with one more definition of a name. -/
def addDefinition (index : SymbolIndex) (name : Text) (location : Location) : SymbolIndex :=
  { index with definitions := index.definitions.push name location }

/-- The index with one more reference to a name. -/
def addReference (index : SymbolIndex) (name : Text) (location : Location) : SymbolIndex :=
  { index with references := index.references.push name location }

/-- The index with one more place where a name is used in the way `usage`. -/
def add (index : SymbolIndex) (usage : Usage) (name : Text) (location : Location) : SymbolIndex :=
  match usage with
  | .definition => index.addDefinition name location
  | .reference => index.addReference name location

/-- The map of the places where names are used in the way `usage`. -/
def mapOf (index : SymbolIndex) : Usage → PlaceMap
  | .definition => index.definitions
  | .reference => index.references

/-- The places where `name` is used in the way `usage`. -/
def places (index : SymbolIndex) (usage : Usage) (name : Text) : List Location :=
  ((index.mapOf usage).find? name).getD []

/-- The definitions of a name. -/
def definitionsOf (index : SymbolIndex) (name : Text) : List Location :=
  index.places .definition name

/-- The references to a name. -/
def referencesOf (index : SymbolIndex) (name : Text) : List Location :=
  index.places .reference name

/-- Whether a name has a definition. -/
def isDefined (index : SymbolIndex) (name : Text) : Bool :=
  !(index.definitionsOf name).isEmpty

/-- The names with an entry for definitions, in increasing order. -/
def definedNames (index : SymbolIndex) : List Text :=
  Text.sortDistinct index.definitions.names

/-- The names with an entry, in increasing order. -/
def names (index : SymbolIndex) : List Text :=
  Text.sortDistinct (index.definitions.names ++ index.references.names)

/-- The first of the locations that come before all others. -/
def earliest? : List Location → Option Location
  | [] => none
  | first :: others =>
    match earliest? others with
    | none => some first
    -- Of two locations neither of which precedes the other, the one in front is kept.
    | some found => if found.precedes first then some found else some first

/-- The definition of a name in the least path, and there on the least line. -/
def primaryDefinition? (index : SymbolIndex) (name : Text) : Option Location :=
  earliest? (index.definitionsOf name)

/-- Adding a place changes one entry of one map. -/
@[simp]
theorem find?_mapOf_add (index : SymbolIndex) (usage usage' : Usage) (name other : Text)
    (location : Location) :
    ((index.add usage name location).mapOf usage').find? other =
      if usage' = usage ∧ other = name then some (index.places usage name ++ [location])
      else (index.mapOf usage').find? other := by
  cases usage <;> cases usage' <;> simp [add, addDefinition, addReference, mapOf, places]

/-- The defined names are those with an entry for definitions. -/
theorem mem_definedNames {index : SymbolIndex} {name : Text} :
    name ∈ index.definedNames ↔ name ∈ index.definitions.names :=
  Text.mem_sortDistinct

end SymbolIndex

end ScriptAnalysis
