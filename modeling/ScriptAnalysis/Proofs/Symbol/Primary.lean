import ScriptAnalysis.Proofs.Symbol.Listing

/-!
# The primary definition of a name

Of several definitions of a name, the primary one is in the least path, and there on the least line.
Paths are compared by their parts, which makes a total order of paths and lines. A visited script
defines a name at most once on a line, and no two visited scripts have a path with the same parts.
So the primary definition comes strictly before all others, and the order in which they were found
makes no difference.

* `Location.precedes_trichotomous`: two locations are in order, or in one line of one file.
* `SymbolIndex.not_precedes_earliest`: nothing comes before the first of some locations.
* `SymbolIndex.StrictlyFirst`: whether a location comes strictly before the others.
* `SymbolKind.samePlace_of_sameLine`: a line defines a name once.
* `SymbolKind.primaryDefinition?_least`: the primary definition is the strictly least one.
-/

namespace ScriptAnalysis

/-! ## The order of paths and lines -/

namespace Part

theorem eq_of_rank_eq {left right : Part} (h : left.rank = right.rank) : left = right := by
  cases left <;> cases right <;> simp_all [rank]

/-- Parts that are in order one after the other are in order. -/
instance : Trans (α := Part) (· < ·) (· < ·) (· < ·) where
  trans {first second third} hleft hright := by
    rcases hleft with hleft | ⟨hrank, hleft⟩
    · rcases hright with hright | ⟨hrank', -⟩
      · exact .inl (Nat.lt_trans hleft hright)
      · exact .inl (hrank' ▸ hleft)
    · rcases hright with hright | ⟨hrank', hright⟩
      · exact .inl (hrank ▸ hright)
      · exact .inr ⟨hrank.trans hrank', List.lt_trans hleft hright⟩

/-- No part comes before itself. -/
instance : Std.Irrefl (α := Part) (· < ·) where
  irrefl part h := by
    rcases h with h | ⟨-, h⟩
    · exact Nat.lt_irrefl _ h
    · exact List.lt_irrefl _ h

/-- Of two parts, one comes before the other. -/
instance : Std.Trichotomous (α := Part) (· < ·) where
  trichotomous left right hleft hright := by
    obtain ⟨hrank, htext⟩ := not_or.1 hleft
    obtain ⟨hrank', htext'⟩ := not_or.1 hright
    have hsame : left.rank.1 = right.rank.1 :=
      Nat.le_antisymm (Nat.not_lt.1 hrank') (Nat.not_lt.1 hrank)
    refine eq_of_rank_eq (Prod.ext hsame ?_)
    exact Std.Trichotomous.trichotomous (r := (· < ·)) _ _ (fun h => htext ⟨hsame, h⟩)
      fun h => htext' ⟨hsame.symm, h⟩

end Part

namespace Location

/-- Whether two locations are in one line of one file. -/
def SameLine (left right : Location) : Prop :=
  left.path.parts = right.path.parts ∧ left.span.line = right.span.line

variable {left middle right : Location}

theorem precedes_trans (h : left.precedes middle) (h' : middle.precedes right) :
    left.precedes right := by
  rcases h with hparts | ⟨hparts, hline⟩
  · rcases h' with hparts' | ⟨hparts', -⟩
    · exact .inl (List.lt_trans hparts hparts')
    · exact .inl (hparts' ▸ hparts)
  · rcases h' with hparts' | ⟨hparts', hline'⟩
    · exact .inl (hparts ▸ hparts')
    · exact .inr ⟨hparts.trans hparts', Nat.lt_trans hline hline'⟩

theorem not_precedes_self (location : Location) : ¬location.precedes location := by
  rintro (hparts | ⟨-, hline⟩)
  · exact List.lt_irrefl _ hparts
  · exact Nat.lt_irrefl _ hline

/-- Two locations are in order, or in one line of one file. -/
theorem precedes_trichotomous (left right : Location) :
    left.precedes right ∨ left.SameLine right ∨ right.precedes left := by
  by_cases hlt : left.path.parts < right.path.parts
  · exact .inl (.inl hlt)
  · by_cases hgt : right.path.parts < left.path.parts
    · exact .inr (.inr (.inl hgt))
    · have hparts : left.path.parts = right.path.parts :=
        List.le_antisymm (List.not_lt.1 hgt) (List.not_lt.1 hlt)
      rcases Nat.lt_trichotomy left.span.line right.span.line with hline | hline | hline
      · exact .inl (.inr ⟨hparts, hline⟩)
      · exact .inr (.inl ⟨hparts, hline⟩)
      · exact .inr (.inr (.inr ⟨hparts.symm, hline⟩))

/-- What comes before a location comes before all that do not come before it. -/
theorem precedes_of_not_precedes (h : left.precedes right) (hnot : ¬middle.precedes right) :
    left.precedes middle := by
  rcases precedes_trichotomous middle right with hbefore | ⟨hparts, hline⟩ | hafter
  · exact absurd hbefore hnot
  · rwa [precedes, hparts, hline]
  · exact precedes_trans h hafter

end Location

namespace SymbolIndex

variable {locations : List Location} {found : Location}

theorem earliest?_eq_none_iff : earliest? locations = none ↔ locations = [] := by
  cases locations with
  | nil => exact ⟨fun _ => rfl, fun _ => rfl⟩
  | cons first others =>
    rw [earliest?]
    split
    · simp
    · split <;> simp

/-- The first of some locations is one of them. -/
theorem mem_of_earliest? (h : earliest? locations = some found) : found ∈ locations := by
  induction locations generalizing found with
  | nil => cases h
  | cons first others ih =>
    rw [earliest?] at h
    split at h
    · cases h
      exact List.mem_cons_self
    · next least hleast =>
      split at h
      · cases h
        exact List.mem_cons_of_mem _ (ih hleast)
      · cases h
        exact List.mem_cons_self

/-- Nothing comes before the first of some locations. -/
theorem not_precedes_earliest (h : earliest? locations = some found) {other : Location}
    (hother : other ∈ locations) : ¬other.precedes found := by
  induction locations generalizing found with
  | nil => cases hother
  | cons first others ih =>
    rw [earliest?] at h
    split at h
    · next hnone =>
      cases h
      rw [earliest?_eq_none_iff.1 hnone, List.mem_singleton] at hother
      rw [hother]
      exact Location.not_precedes_self _
    · next least hleast =>
      split at h
      · next hbefore =>
        cases h
        rcases List.mem_cons.1 hother with rfl | hlater
        · exact fun hafter => Location.not_precedes_self _ (Location.precedes_trans hbefore hafter)
        · exact ih hleast hlater
      · next hnot =>
        cases h
        rcases List.mem_cons.1 hother with rfl | hlater
        · exact Location.not_precedes_self _
        · -- What comes before the location in front would come before the first of the others.
          exact fun hafter => ih hleast hlater (Location.precedes_of_not_precedes hafter hnot)

/-- Whether one of some locations comes strictly before each of the others. -/
def StrictlyFirst (locations : List Location) (found : Location) : Prop :=
  ∃ i : Nat, locations[i]? = some found ∧
    ∀ (j : Nat) (other : Location), j ≠ i → locations[j]? = some other → found.precedes other

/-- A location that comes strictly before the others is the first of them in whatever order they are
listed. -/
theorem StrictlyFirst.earliest?_eq_some (h : StrictlyFirst locations found) {listed : List Location}
    (hperm : listed.Perm locations) : earliest? listed = some found := by
  obtain ⟨i, hi, hbefore⟩ := h
  have hfound : found ∈ listed := hperm.mem_iff.2 (List.mem_of_getElem? hi)
  cases hlisted : earliest? listed with
  | none =>
    rw [earliest?_eq_none_iff.1 hlisted] at hfound
    cases hfound
  | some other =>
    obtain ⟨j, hj⟩ := List.mem_iff_getElem?.1 (hperm.mem_iff.1 (mem_of_earliest? hlisted))
    by_cases hsame : j = i
    · rw [← hj, hsame, hi]
    · exact absurd (hbefore j other hsame hj) (not_precedes_earliest hlisted hfound)

end SymbolIndex

namespace SymbolKind

variable {kind : SymbolKind} {fs : FileSystem} {vocabulary : Vocabulary} {root : Path}
  {text : Option Text} {name : Text}

/-- Only the token behind the command may define a symbol. -/
theorem eq_one_of_usageAt? {code : CodeLine} {position : Nat}
    (h : kind.usageAt? vocabulary code position = some .definition) : position = 1 := by
  cases kind with
  | subroutine =>
    rw [usageAt?_subroutine] at h
    split at h
    · assumption
    · cases h
  | var =>
    rw [usageAt?_var] at h
    split at h
    · cases h
    · split at h
      · next hassigns => exact hassigns.1
      · cases h

/-- A definition is the token behind the command of a line of a visited script. -/
theorem exists_code_of_mem_definitionsOf {location : Location}
    (h : location ∈ (kind.index fs vocabulary root text).definitionsOf name) :
    ∃ visit ∈ Include.walk fs vocabulary root text, ∃ code ∈ visit.lines, ∃ token,
      code.tokens[1]? = some token ∧ location = ⟨visit.path, token.span code.line⟩ := by
  rw [SymbolIndex.definitionsOf, (kind.holds_index fs vocabulary root text).places_eq] at h
  obtain ⟨found, hfound, rfl⟩ := List.mem_map.1 h
  obtain ⟨hfound, hdefines⟩ := List.mem_filter.1 hfound
  rw [decide_eq_true_eq] at hdefines
  obtain ⟨visit, hvisit, hline⟩ := List.mem_flatMap.1 hfound
  obtain ⟨code, hcode, hoccurrence⟩ := List.mem_flatMap.1 hline
  obtain ⟨token, position, htoken, husage, -, hlocation⟩ := mem_occurrences_iff.1 hoccurrence
  rw [hdefines.1] at husage
  cases eq_one_of_usageAt? husage
  exact ⟨visit, hvisit, code, hcode, token, List.mem_zipIdx_iff_getElem?.1 htoken, hlocation⟩

/-- A line defines a name once. -/
theorem samePlace_of_sameLine (hslash : ¬['/'] <:+ root.spelling)
    (hdot : ¬['/', '.'] <:+ root.spelling) {left right : Location}
    (hleft : left ∈ (kind.index fs vocabulary root text).definitionsOf name)
    (hright : right ∈ (kind.index fs vocabulary root text).definitionsOf name)
    (h : left.SameLine right) : left.SamePlace right := by
  obtain ⟨visit, hvisit, code, hcode, token, htoken, rfl⟩ := exists_code_of_mem_definitionsOf hleft
  obtain ⟨visit', hvisit', code', hcode', token', htoken', rfl⟩ :=
    exists_code_of_mem_definitionsOf hright
  obtain ⟨hparts, hline⟩ := h
  -- Two visits would have paths with different parts.
  have hvisits : visit = visit' := by
    by_contra hne
    have hsymm : Std.Symm fun left right : Visit => left.path.parts ≠ right.path.parts :=
      ⟨fun _ _ hapart => hapart.symm⟩
    exact (Include.pairwise_walk hslash hdot text).forall hvisit hvisit' hne hparts
  subst hvisits
  -- Two lines would have different numbers.
  have hcodes : code = code' := by
    obtain ⟨found, hlines⟩ := Include.exists_lines_of_mem_walk hvisit
    rw [hlines] at hcode hcode'
    by_contra hne
    have hsymm : Std.Symm fun left right : CodeLine => left.line ≠ right.line :=
      ⟨fun _ _ hapart => hapart.symm⟩
    exact ((pairwise_codeLines found).imp Nat.ne_of_lt).forall hcode hcode' hne hline
  subst hcodes
  rw [htoken] at htoken'
  cases htoken'
  exact ⟨rfl, rfl⟩

/-- The primary definition comes strictly before the other definitions. -/
theorem strictlyFirst_of_primaryDefinition? (hslash : ¬['/'] <:+ root.spelling)
    (hdot : ¬['/', '.'] <:+ root.spelling) {found : Location}
    (h : (kind.index fs vocabulary root text).primaryDefinition? name = some found) :
    SymbolIndex.StrictlyFirst ((kind.index fs vocabulary root text).definitionsOf name) found := by
  have hmem := SymbolIndex.mem_of_earliest? h
  obtain ⟨i, hi⟩ := List.mem_iff_getElem?.1 hmem
  refine ⟨i, hi, fun j other hne hj => ?_⟩
  have hother := List.mem_of_getElem? hj
  rcases Location.precedes_trichotomous found other with hbefore | hline | hafter
  · exact hbefore
  · -- In one line they would be one place, which is not listed twice.
    obtain ⟨-, -, heq⟩ := eq_of_samePlace_index hslash hdot hi hj
      (samePlace_of_sameLine hslash hdot hmem hother hline)
    exact absurd heq.symm hne
  · exact absurd hafter (SymbolIndex.not_precedes_earliest h hother)

/-- If the root does not end with a slash or a dot, the primary definition of a name is missing only
if the name has no definition. Else it is one of the definitions, and comes strictly before every
other one in the order of paths and lines. It is the same in whatever order they are listed. -/
theorem primaryDefinition?_least (kind : SymbolKind) (fs : FileSystem) (vocabulary : Vocabulary)
    (root : Path) (text : Option Text) (name : Text) (hslash : ¬['/'] <:+ root.spelling)
    (hdot : ¬['/', '.'] <:+ root.spelling) :
    let index := kind.index fs vocabulary root text
    (index.primaryDefinition? name = none ↔ index.definitionsOf name = []) ∧
    (∀ found, index.primaryDefinition? name = some found →
      SymbolIndex.StrictlyFirst (index.definitionsOf name) found) ∧
    ∀ listed : List Location, listed.Perm (index.definitionsOf name) →
      SymbolIndex.earliest? listed = index.primaryDefinition? name := by
  intro index
  refine ⟨SymbolIndex.earliest?_eq_none_iff,
    fun found hfound => strictlyFirst_of_primaryDefinition? hslash hdot hfound,
    fun listed hperm => ?_⟩
  cases hfound : index.primaryDefinition? name with
  | none =>
    rw [SymbolIndex.earliest?_eq_none_iff.1 hfound, List.perm_nil] at hperm
    rw [hperm]
    rfl
  | some found =>
    exact (strictlyFirst_of_primaryDefinition? hslash hdot hfound).earliest?_eq_some hperm

/-- A script that includes another and defines a subroutine twice. -/
def primaryText : Text :=
  "include lib\nsubroutine run\nendsubroutine\nsubroutine Run\nendsubroutine\n".toList

/-- A disk with the script, and the included one, which defines the subroutine as well. -/
def primaryDisk : FileSystem :=
  ⟨true, [("main.osc".toList, .file true (Utf8.encode primaryText)),
    ("lib.osc".toList, .file true (Utf8.encode "subroutine run\nendsubroutine\n".toList))], []⟩

/-- Of three definitions, the primary one is found last and comes before the others. -/
theorem primaryDefinition?_least_sample :
    let root : Path := ⟨"main.osc".toList⟩
    let index := subroutine.index primaryDisk .standard root none
    let primary : Location := ⟨⟨"lib.osc".toList⟩, ⟨0, 11, 14⟩⟩
    ¬['/'] <:+ root.spelling ∧ ¬['/', '.'] <:+ root.spelling ∧
      index.definitionsOf "run".toList =
        [⟨root, ⟨1, 11, 14⟩⟩, ⟨root, ⟨3, 11, 14⟩⟩, primary] ∧
      index.primaryDefinition? "run".toList = some primary ∧
      SymbolIndex.StrictlyFirst (index.definitionsOf "run".toList) primary ∧
      SymbolIndex.earliest? (index.definitionsOf "run".toList).reverse = some primary := by
  intro root index primary
  have hslash : ¬['/'] <:+ root.spelling := by decide +kernel
  have hdot : ¬['/', '.'] <:+ root.spelling := by decide +kernel
  have hdefinitions : index.definitionsOf "run".toList =
      [⟨root, ⟨1, 11, 14⟩⟩, ⟨root, ⟨3, 11, 14⟩⟩, primary] := by
    have hwalk : Include.walk primaryDisk .standard root none = [Visit.ofText root primaryText,
        Visit.ofText ⟨"lib.osc".toList⟩ "subroutine run\nendsubroutine\n".toList] :=
      Include.walk_pair (by decide +kernel) (by decide +kernel) (by decide +kernel)
        (by decide +kernel) (by decide +kernel)
    show (SymbolKind.indexOf _ _ (Include.walk _ _ _ _)).definitionsOf _ = _
    rw [hwalk]
    decide +kernel
  have hprimary : index.primaryDefinition? "run".toList = some primary := by
    rw [SymbolIndex.primaryDefinition?, hdefinitions]
    decide +kernel
  obtain ⟨-, hfirst, hperm⟩ := primaryDefinition?_least subroutine primaryDisk .standard root
    none "run".toList hslash hdot
  exact ⟨hslash, hdot, hdefinitions, hprimary, hfirst primary hprimary,
    (hperm _ (List.reverse_perm _)).trans hprimary⟩

end SymbolKind

end ScriptAnalysis
