import ScriptAnalysis.Proofs.Include.Footprint
import ScriptAnalysis.Proofs.Symbol.Rename

/-!
# What an index lists

The code tokens of the scripts that a walk visits form one sequence: script by script, line by line,
token by token. The places of a name in an index are those of certain tokens of this sequence, in
its order. None is listed twice, under whatever name and usage, since no script is visited twice.

* `Include.tokens`: the sequence of the code tokens.
* `SymbolKind.places_index`: the places of a name are told by the position of their token.
* `Location.SamePlace`: whether two locations are the same, as paths are compared.
* `SymbolIndex.Holds.eq_of_samePlace`: a place is listed once if no two occurrences overlap.
* `SymbolKind.index_listing`: what the indexes of both kinds list.
-/

namespace ScriptAnalysis

/-- A code token of a script with its line. -/
structure PlacedToken where
  /-- The file. -/
  path : Path
  /-- The line of code. -/
  code : CodeLine
  /-- The position among the code tokens of the line. The command has position zero. -/
  position : Nat
  /-- The token. -/
  token : Token
  deriving DecidableEq, Repr

namespace PlacedToken

/-- Where a token is. -/
def location (placed : PlacedToken) : Location :=
  ⟨placed.path, placed.token.span placed.code.line⟩

/-- The code tokens of the file `path` with the lines of code `lines`, in order. -/
def ofLines (path : Path) (lines : List CodeLine) : List PlacedToken :=
  lines.flatMap fun code =>
    code.tokens.zipIdx.map fun (token, position) => ⟨path, code, position, token⟩

end PlacedToken

namespace Include

/-- The code tokens of the scripts in the include closure of `root`, whose content is `text` if that
is given. -/
def tokens (fs : FileSystem) (vocabulary : Vocabulary) (root : Path) (text : Option Text) :
    List PlacedToken :=
  (closure fs vocabulary root text).flatMap fun path =>
    match textOf fs root text path with
    | .ok found => PlacedToken.ofLines path (codeLines found)
    | .error _ => []

/-- The code tokens are those of the visits of the walk. -/
theorem tokens_eq_flatMap_walk (fs : FileSystem) (vocabulary : Vocabulary) (root : Path)
    (text : Option Text) :
    tokens fs vocabulary root text =
      (walk fs vocabulary root text).flatMap fun visit =>
        PlacedToken.ofLines visit.path visit.lines := by
  rw [tokens, closure, List.flatMap_map]
  apply List.flatMap_congr
  intro visit hvisit
  obtain ⟨found, htext, hlines⟩ := lines_of_mem_walk hvisit
  simp only [htext, hlines]

end Include

namespace SymbolKind

variable (kind : SymbolKind) (fs : FileSystem) (vocabulary : Vocabulary) (root : Path)
  (text : Option Text)

/-- The places of a name on a line are those of the tokens that name it. -/
theorem places_occurrences (path : Path) (code : CodeLine) (usage : Usage) (name : Text) :
    ((kind.occurrences vocabulary path code).filter fun found =>
        found.usage = usage ∧ found.name = name).map (·.location) =
      ((code.tokens.zipIdx.map fun (token, position) =>
          (⟨path, code, position, token⟩ : PlacedToken)).filter fun placed =>
        kind.usageAt? vocabulary placed.code placed.position = some usage ∧
          kind.name? placed.token.text = some name).map PlacedToken.location := by
  rw [occurrences_eq, List.filter_filterMap, List.map_filterMap, List.filter_map, List.map_map,
    ← List.filterMap_eq_map, List.filterMap_filter]
  apply List.filterMap_congr
  rintro ⟨token, position⟩ -
  cases husage : kind.usageAt? vocabulary code position with
  | none => simp [husage]
  | some used =>
    cases hname : kind.name? token.text with
    | none => simp [husage, hname]
    | some named =>
      by_cases hboth : used = usage ∧ named = name
      · simp [husage, hname, hboth, PlacedToken.location]
      · have himp : used = usage → ¬named = name := not_and.1 hboth
        simpa [husage, hname, hboth] using himp

/-- The places of a name in an index are those of the tokens that name it and are used so. -/
theorem places_index (usage : Usage) (name : Text) :
    (kind.index fs vocabulary root text).places usage name =
      ((Include.tokens fs vocabulary root text).filter fun placed =>
        kind.usageAt? vocabulary placed.code placed.position = some usage ∧
          kind.name? placed.token.text = some name).map PlacedToken.location := by
  rw [Include.tokens_eq_flatMap_walk, (holds_index kind fs vocabulary root text).places_eq,
    occurrencesIn, List.filter_flatMap, List.map_flatMap, List.filter_flatMap, List.map_flatMap]
  apply List.flatMap_congr
  intro visit hvisit
  rw [PlacedToken.ofLines, List.filter_flatMap, List.map_flatMap, List.filter_flatMap,
    List.map_flatMap]
  apply List.flatMap_congr
  intro code hcode
  exact kind.places_occurrences vocabulary visit.path code usage name

end SymbolKind

/-! ## No place is listed twice -/

/-- Whether two locations are the same. Paths are compared by their parts. -/
def Location.SamePlace (left right : Location) : Prop :=
  left.path.parts = right.path.parts ∧ left.span = right.span

namespace SymbolIndex

variable {index : SymbolIndex} {listed : List Occurrence}

/-- A place that holds a column is listed once, under one name and usage, if no two occurrences
overlap. -/
theorem Holds.eq_of_samePlace (hholds : index.Holds listed)
    (hapart : listed.Pairwise fun left right => ¬left.location.Overlaps right.location)
    (hcolumn : ∀ found ∈ listed, found.location.span.start < found.location.span.stop)
    {usage usage' : Usage} {name name' : Text} {i j : Nat} {left right : Location}
    (hleft : (index.places usage name)[i]? = some left)
    (hright : (index.places usage' name')[j]? = some right) (hsame : left.SamePlace right) :
    usage = usage' ∧ name = name' ∧ i = j := by
  have hmem {usage : Usage} {name : Text} {i : Nat} {location : Location}
      (h : (index.places usage name)[i]? = some location) :
      ∃ found ∈ listed, found.usage = usage ∧ found.name = name ∧ found.location = location := by
    rw [hholds.places_eq] at h
    obtain ⟨found, hfound, hlocation⟩ := List.mem_map.1 (List.mem_of_getElem? h)
    obtain ⟨hfound, hkind⟩ := List.mem_filter.1 hfound
    rw [decide_eq_true_eq] at hkind
    exact ⟨found, hfound, hkind.1, hkind.2, hlocation⟩
  obtain ⟨found, hfound, husage, hname, hlocation⟩ := hmem hleft
  obtain ⟨found', hfound', husage', hname', hlocation'⟩ := hmem hright
  have hoverlap : left.Overlaps right := by
    have hlt := hcolumn found hfound
    rw [hlocation] at hlt
    exact ⟨hsame.1, by rw [hsame.2], hsame.2 ▸ hlt, hsame.2 ▸ hlt⟩
  have hsymm : Std.Symm fun left right : Occurrence => ¬left.location.Overlaps right.location :=
    ⟨fun _ _ h hoverlaps => h hoverlaps.symm⟩
  -- Two occurrences would not overlap, so that both locations are of one occurrence.
  have heq : found = found' := by
    by_contra hne
    apply hapart.forall hfound hfound' hne
    rwa [hlocation, hlocation']
  subst heq
  obtain rfl := husage.symm.trans husage'
  obtain rfl := hname.symm.trans hname'
  refine ⟨rfl, rfl, ?_⟩
  -- Within the list of one name, the places are apart as well.
  have hplaces : (index.places usage name).Pairwise fun left right => ¬left.Overlaps right := by
    rw [hholds.places_eq, List.pairwise_map]
    exact hapart.sublist List.filter_sublist
  obtain ⟨hi, rfl⟩ := List.getElem?_eq_some_iff.1 hleft
  obtain ⟨hj, rfl⟩ := List.getElem?_eq_some_iff.1 hright
  rw [List.pairwise_iff_getElem] at hplaces
  rcases Nat.lt_trichotomy i j with hlt | heq | hlt
  · exact absurd hoverlap (hplaces i j hi hj hlt)
  · exact heq
  · exact absurd hoverlap.symm (hplaces j i hj hi hlt)

end SymbolIndex

namespace SymbolKind

variable {kind : SymbolKind} {fs : FileSystem} {vocabulary : Vocabulary} {root : Path}
  {text : Option Text}

/-- The place of an occurrence holds a column. -/
theorem start_lt_stop_of_mem_occurrencesIn {found : Occurrence}
    (h : found ∈ kind.occurrencesIn vocabulary (Include.walk fs vocabulary root text)) :
    found.location.span.start < found.location.span.stop := by
  obtain ⟨visit, hvisit, hline⟩ := List.mem_flatMap.1 h
  obtain ⟨code, hcode, hfound⟩ := List.mem_flatMap.1 hline
  obtain ⟨token, position, htoken, -, -, hlocation⟩ := mem_occurrences_iff.1 hfound
  obtain ⟨found, hlines⟩ := Include.exists_lines_of_mem_walk hvisit
  rw [hlines] at hcode
  rw [hlocation]
  exact CodeLine.start_lt_stop hcode (List.fst_mem_of_mem_zipIdx htoken)

/-- If the root does not end with a slash or a dot, a place is listed once, under one name and
usage. -/
theorem eq_of_samePlace_index (hslash : ¬['/'] <:+ root.spelling)
    (hdot : ¬['/', '.'] <:+ root.spelling) {usage usage' : Usage} {name name' : Text} {i j : Nat}
    {left right : Location}
    (hleft : ((kind.index fs vocabulary root text).places usage name)[i]? = some left)
    (hright : ((kind.index fs vocabulary root text).places usage' name')[j]? = some right)
    (hsame : left.SamePlace right) : usage = usage' ∧ name = name' ∧ i = j := by
  have hapart : (kind.occurrencesIn vocabulary (Include.walk fs vocabulary root text)).Pairwise
      fun left right => ¬left.location.Overlaps right.location :=
    pairwise_occurrencesIn (Include.pairwise_walk hslash hdot text)
      fun _ => Include.exists_lines_of_mem_walk
  exact (holds_index kind fs vocabulary root text).eq_of_samePlace hapart
    (fun found hfound => start_lt_stop_of_mem_occurrencesIn hfound) hleft hright hsame

/-! ## The two kinds of symbols -/

/-- The places of a name, by a condition that says which tokens name it and are used so. -/
theorem places_eq_filter_map {usage : Usage} {name : Text} {wanted : PlacedToken → Prop}
    [DecidablePred wanted]
    (h : ∀ placed : PlacedToken,
      kind.usageAt? vocabulary placed.code placed.position = some usage ∧
        kind.name? placed.token.text = some name ↔ wanted placed) :
    (kind.index fs vocabulary root text).places usage name =
      ((Include.tokens fs vocabulary root text).filter fun placed => wanted placed).map
        PlacedToken.location := by
  rw [places_index]
  congr 1
  exact List.filter_congr fun placed _ => decide_eq_decide.2 (h placed)

/-- Only the token behind the command may name a subroutine. -/
theorem usageAt?_subroutine (code : CodeLine) (position : Nat) :
    subroutine.usageAt? vocabulary code position =
      if position = 1 then subroutineUsage? vocabulary code else none := by
  cases position <;> simp [usageAt?]

/-- Every token behind the command may name a variable. -/
theorem usageAt?_var (code : CodeLine) (position : Nat) :
    var.usageAt? vocabulary code position =
      if position = 0 then none
      else if position = 1 ∧ vocabulary.isAssignment code.commandName = true then some .definition
      else some .reference := by
  cases position <;> simp [usageAt?]

/-- An index lists the places of certain code tokens of the visited scripts, in their order: for a
subroutine, those behind the command that defines it or that calls it; for a variable, all those
behind a command, the first one behind an assignment command being its definition. No other name has
an entry in a map. If the root does not end with a slash or a dot, no place is listed twice, under
whatever usage and name. -/
theorem index_listing (fs : FileSystem) (vocabulary : Vocabulary) (root : Path)
    (text : Option Text) :
    (∀ name, (subroutine.index fs vocabulary root text).definitionsOf name =
      ((Include.tokens fs vocabulary root text).filter fun placed =>
        placed.position = 1 ∧ placed.code.commandName = vocabulary.subroutineKeyword ∧
          subroutineName? placed.token.text = some name).map PlacedToken.location) ∧
    (∀ name, (subroutine.index fs vocabulary root text).referencesOf name =
      ((Include.tokens fs vocabulary root text).filter fun placed =>
        placed.position = 1 ∧ placed.code.commandName = vocabulary.callKeyword ∧
          placed.code.commandName ≠ vocabulary.subroutineKeyword ∧
          subroutineName? placed.token.text = some name).map PlacedToken.location) ∧
    (∀ name, (var.index fs vocabulary root text).definitionsOf name =
      ((Include.tokens fs vocabulary root text).filter fun placed =>
        1 ≤ placed.position ∧ variableName? placed.token.text = some name ∧
          (placed.position = 1 ∧ vocabulary.isAssignment placed.code.commandName = true)).map
        PlacedToken.location) ∧
    (∀ name, (var.index fs vocabulary root text).referencesOf name =
      ((Include.tokens fs vocabulary root text).filter fun placed =>
        1 ≤ placed.position ∧ variableName? placed.token.text = some name ∧
          ¬(placed.position = 1 ∧ vocabulary.isAssignment placed.code.commandName = true)).map
        PlacedToken.location) ∧
    (∀ (kind : SymbolKind) (usage : Usage) (name : Text),
      name ∈ ((kind.index fs vocabulary root text).mapOf usage).names ↔
        (kind.index fs vocabulary root text).places usage name ≠ []) ∧
    (¬['/'] <:+ root.spelling → ¬['/', '.'] <:+ root.spelling →
      ∀ (kind : SymbolKind) (usage usage' : Usage) (name name' : Text) (i j : Nat)
        (left right : Location),
        ((kind.index fs vocabulary root text).places usage name)[i]? = some left →
        ((kind.index fs vocabulary root text).places usage' name')[j]? = some right →
        left.SamePlace right → usage = usage' ∧ name = name' ∧ i = j) := by
  refine ⟨fun name => ?_, fun name => ?_, fun name => ?_, fun name => ?_, ?_, ?_⟩
  · refine places_eq_filter_map fun placed => ?_
    rw [usageAt?_subroutine, subroutineUsage?, name?]
    grind
  · refine places_eq_filter_map fun placed => ?_
    rw [usageAt?_subroutine, subroutineUsage?, name?]
    grind
  · refine places_eq_filter_map fun placed => ?_
    rw [usageAt?_var, name?]
    grind
  · refine places_eq_filter_map fun placed => ?_
    rw [usageAt?_var, name?]
    grind
  · intro kind usage name
    exact (kind.holds_index fs vocabulary root text).mem_names_iff_places
  · intro hslash hdot kind usage usage' name name' i j left right hleft hright hsame
    exact eq_of_samePlace_index hslash hdot hleft hright hsame

/-- A disk with a script that defines a subroutine. -/
def listingDisk : FileSystem :=
  ⟨true,
    [("lib.osc".toList, .file true (Utf8.encode "subroutine run\nendsubroutine\n".toList))], []⟩

/-- A text that includes the script, calls the subroutine, and defines a variable while using it. -/
def listingText : Text :=
  "include lib\ngosub run\nseti $x $x\n".toList

theorem walk_listingDisk :
    Include.walk listingDisk .standard ⟨"main.osc".toList⟩ (some listingText) =
      [Visit.ofText ⟨"main.osc".toList⟩ listingText,
        Visit.ofText ⟨"lib.osc".toList⟩ "subroutine run\nendsubroutine\n".toList] := by
  have htargets : Include.targets listingDisk .standard
      (Visit.ofText ⟨"main.osc".toList⟩ listingText) = [⟨"lib.osc".toList⟩] := by
    decide +kernel
  show _ :: Include.explore _ _ (Include.targets _ _ _) _ = _
  rw [htargets, Include.explore_of_encode "subroutine run\nendsubroutine\n".toList []
      (by decide +kernel) (by decide +kernel) (by decide +kernel),
    List.append_nil, Include.explore]

/-- What the indexes of the sample text list. -/
theorem index_listing_sample :
    let root : Path := ⟨"main.osc".toList⟩
    let calls := subroutine.index listingDisk .standard root (some listingText)
    let vars := var.index listingDisk .standard root (some listingText)
    ¬['/'] <:+ root.spelling ∧ ¬['/', '.'] <:+ root.spelling ∧
    calls.definitionsOf "run".toList = [⟨⟨"lib.osc".toList⟩, ⟨0, 11, 14⟩⟩] ∧
    calls.referencesOf "run".toList = [⟨root, ⟨1, 6, 9⟩⟩] ∧
    vars.definitionsOf "x".toList = [⟨root, ⟨2, 5, 7⟩⟩] ∧
    vars.referencesOf "x".toList = [⟨root, ⟨2, 8, 10⟩⟩] ∧
    ∀ (usage usage' : Usage) (name name' : Text) (i j : Nat) (left right : Location),
      (vars.places usage name)[i]? = some left →
      (vars.places usage' name')[j]? = some right →
      left.SamePlace right → usage = usage' ∧ name = name' ∧ i = j := by
  intro root calls vars
  obtain ⟨hdefined, hcalled, hassigned, hused, -, honce⟩ :=
    index_listing listingDisk .standard root (some listingText)
  have hslash : ¬['/'] <:+ root.spelling := by decide +kernel
  have hdot : ¬['/', '.'] <:+ root.spelling := by decide +kernel
  refine ⟨hslash, hdot, ?_, ?_, ?_, ?_, honce hslash hdot var⟩
  · rw [hdefined, Include.tokens_eq_flatMap_walk, walk_listingDisk]
    decide +kernel
  · rw [hcalled, Include.tokens_eq_flatMap_walk, walk_listingDisk]
    decide +kernel
  · rw [hassigned, Include.tokens_eq_flatMap_walk, walk_listingDisk]
    decide +kernel
  · rw [hused, Include.tokens_eq_flatMap_walk, walk_listingDisk]
    decide +kernel

end SymbolKind

end ScriptAnalysis
