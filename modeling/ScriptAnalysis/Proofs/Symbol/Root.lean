import Mathlib.Data.List.Nodup
import ScriptAnalysis.Proofs.FileSystem.SameFile
import ScriptAnalysis.Proofs.Include.Footprint
import ScriptAnalysis.Proofs.Path.Parts
import ScriptAnalysis.Proofs.Symbol.Occurrence

/-!
# The spelling of a root

Paths are compared by their parts, and so are the places in an index. Two spellings of one root give
the same index in this sense, if both of them are regular files or neither is. They need not agree
on that: a slash at the end makes no difference to the parts, but it leads to no file.

* `SymbolIndex.Same`: indexes that differ only in the spelling of paths.
* `SymbolKind.same_index_of_parts_eq`: the indexes of a root in two spellings.
-/

namespace ScriptAnalysis

/-- Texts with the same members are sorted in the same way. -/
theorem Text.sortDistinct_congr {words words' : List Text}
    (h : ∀ word, word ∈ words ↔ word ∈ words') : sortDistinct words = sortDistinct words' := by
  have hnodup (words : List Text) : (sortDistinct words).Nodup := by
    refine (pairwise_sortDistinct words).imp fun hlt heq => ?_
    rw [heq] at hlt
    exact List.lt_irrefl _ hlt
  have hperm : (sortDistinct words).Perm (sortDistinct words') :=
    (List.perm_ext_iff_of_nodup (hnodup words) (hnodup words')).2 fun word => by
      rw [mem_sortDistinct, mem_sortDistinct, h]
  exact hperm.eq_of_pairwise (fun _ _ _ _ hlt hgt => absurd hgt (List.lt_asymm hlt))
    (pairwise_sortDistinct words) (pairwise_sortDistinct words')

/-- What is compared of a location, of its path only the parts. -/
def Location.view (location : Location) : List Part × Span :=
  (location.path.parts, location.span)

/-- What is compared of an occurrence. -/
def Occurrence.view (occurrence : Occurrence) : Text × Usage × List Part × Span :=
  (occurrence.name, occurrence.usage, occurrence.location.view)

/-- Whether two indexes differ only in the spelling of paths: the same names have entries, and the
places in them are the same. -/
def SymbolIndex.Same (left right : SymbolIndex) : Prop :=
  ∀ usage name, ((left.mapOf usage).find? name).map (List.map Location.view) =
    ((right.mapOf usage).find? name).map (List.map Location.view)

namespace SymbolIndex

@[refl]
theorem Same.refl (index : SymbolIndex) : index.Same index :=
  fun _ _ => rfl

/-- The defined names do not depend on paths. -/
theorem Same.definedNames_eq {left right : SymbolIndex} (h : left.Same right) :
    left.definedNames = right.definedNames := by
  refine Text.sortDistinct_congr fun name => ?_
  have hentry : (left.definitions.find? name).isSome = (right.definitions.find? name).isSome := by
    simpa [mapOf] using congrArg Option.isSome (h .definition name)
  rw [PlaceMap.mem_names_iff, PlaceMap.mem_names_iff, ← Option.isSome_iff_ne_none,
    ← Option.isSome_iff_ne_none, hentry]

/-- Occurrences that differ only in the spelling of paths have indexes that do. -/
theorem same_ofOccurrences {found found' : List Occurrence}
    (h : found.map Occurrence.view = found'.map Occurrence.view) :
    (ofOccurrences found).Same (ofOccurrences found') := by
  intro usage name
  have hview (found : List Occurrence) : (placesIn found usage name).map Location.view =
      ((found.map Occurrence.view).filter fun seen => seen.2.1 = usage ∧ seen.1 = name).map
        (·.2.2) := by
    rw [placesIn, List.map_map, List.filter_map, List.map_map]
    rfl
  have hsame : (placesIn found usage name).map Location.view =
      (placesIn found' usage name).map Location.view := by
    rw [hview, hview, h]
  rw [find?_mapOf_ofOccurrences, find?_mapOf_ofOccurrences]
  by_cases hnone : placesIn found usage name = []
  · rw [hnone, List.map_nil, eq_comm, List.map_eq_nil_iff] at hsame
    rw [hnone, hsame]
  · have hsome : placesIn found' usage name ≠ [] := by
      intro hnil
      rw [hnil, List.map_nil, List.map_eq_nil_iff] at hsame
      exact hnone hsame
    rw [if_neg hnone, if_neg hsome, Option.map_some, Option.map_some, hsame]

end SymbolIndex

variable {fs : FileSystem} {vocabulary : Vocabulary} {left right : Path}

namespace Include

/-- The scripts that a text includes depend on the parts of its path alone. -/
theorem targets_eq_of_parts_eq (hparts : left.parts = right.parts) (text : Text) :
    targets fs vocabulary (Visit.ofText left text) =
      targets fs vocabulary (Visit.ofText right text) := by
  apply List.filterMap_congr
  intro code hcode
  rw [target?_eq_find?, target?_eq_find?]
  simp only [lineCandidates, Visit.ofText, candidates_congr hparts]

/-- The walks from a root in two spellings differ only in the path of the first visit, if there is
one. -/
theorem walks_of_parts_eq (vocabulary : Vocabulary) (hparts : left.parts = right.parts)
    (hleft : fs.isFile left = true) (hright : fs.isFile right = true) :
    (walk fs vocabulary left none = [] ∧ walk fs vocabulary right none = []) ∨
      ∃ text visits, walk fs vocabulary left none = Visit.ofText left text :: visits ∧
        walk fs vocabulary right none = Visit.ofText right text :: visits := by
  -- Both walks read one file and mark one key, and its lines include the same targets.
  have hkey := FileSystem.visitKey_eq_of_isFile hleft hright hparts
  have hsame := FileSystem.read_eq_of_visitKey_eq hleft hright hkey
  cases hread : fs.read left with
  | error fault => exact .inl ⟨walk_of_error hread, walk_of_error (hsame.symm.trans hread)⟩
  | ok content =>
    refine .inr ⟨Utf8.decodeLossy content, _, explore_of_ok List.not_mem_nil hread, ?_⟩
    rw [targets_eq_of_parts_eq hparts, hkey]
    exact explore_of_ok List.not_mem_nil (hsame.symm.trans hread)

end Include

namespace SymbolKind

/-- The symbols on a line look the same under another spelling of the path. -/
theorem map_view_occurrences (kind : SymbolKind) (hparts : left.parts = right.parts)
    (code : CodeLine) :
    (kind.occurrences vocabulary left code).map Occurrence.view =
      (kind.occurrences vocabulary right code).map Occurrence.view := by
  cases kind with
  | subroutine =>
    simp only [occurrences, subroutineOccurrence?, Option.toList]
    cases subroutineUsage? vocabulary code with
    | none => rfl
    | some usage =>
      cases code.argument? with
      | none => rfl
      | some token =>
        cases hname : subroutineName? token.text <;>
          simp [hname, Occurrence.view, Location.view, hparts]
  | var =>
    simp only [occurrences, variableOccurrences, List.map_filterMap, Option.map_map,
      Function.comp_def, Occurrence.view, Location.view, hparts]

/-- Two spellings of a root have the same index, if both are regular files or neither is. -/
theorem same_index_of_parts_eq (kind : SymbolKind) (hparts : left.parts = right.parts)
    (hfile : fs.isFile left = fs.isFile right) :
    (kind.index fs vocabulary left none).Same (kind.index fs vocabulary right none) := by
  cases hright : fs.isFile right with
  | false =>
    rw [index, index, Include.walk_of_not_isFile hright,
      Include.walk_of_not_isFile (hfile.trans hright)]
  | true =>
    rcases Include.walks_of_parts_eq vocabulary hparts (hfile.trans hright) hright with
      ⟨hleft, hright⟩ | ⟨text, visits, hleft, hright⟩
    · rw [index, index, hleft, hright]
    · rw [index, index, hleft, hright, indexOf_eq_ofOccurrences, indexOf_eq_ofOccurrences]
      apply SymbolIndex.same_ofOccurrences
      simp only [occurrencesIn, List.flatMap_cons, List.map_append, List.map_flatMap, Visit.ofText,
        map_view_occurrences kind hparts]

end SymbolKind

end ScriptAnalysis
