import Mathlib.Data.List.Pairwise
import ScriptAnalysis.Proofs.Symbol.Respelling

/-!
# Soundness of a rename

The edits of a rename replace every mention of the name in the include closure, and do not overlap.
When they are applied and the closure is indexed again, the same scripts are visited in the same
order. The symbol then has its old sites under its new name, together with the old sites of a symbol
that had the new name before.

* `Location.Overlaps`: whether two locations share a column.
* `SymbolKind.pairwise_occurrencesIn`: the occurrences in the visited scripts do not overlap.
* `Include.slice?`: the text at a location.
* `SymbolKind.index_applyEdits_rename`: the index after a rename.
-/

namespace ScriptAnalysis

/-- Whether two locations share a column of a line of one file. Paths are compared by their
parts. -/
def Location.Overlaps (left right : Location) : Prop :=
  left.path.parts = right.path.parts ∧ left.span.line = right.span.line ∧
    left.span.start < right.span.stop ∧ right.span.start < left.span.stop

theorem Location.Overlaps.symm {left right : Location} (h : left.Overlaps right) :
    right.Overlaps left :=
  ⟨h.1.symm, h.2.1.symm, h.2.2.2, h.2.2.1⟩

namespace SymbolKind

variable {kind : SymbolKind} {vocabulary : Vocabulary}

/-- An occurrence on a line is at one of its tokens. -/
theorem mem_occurrences_iff {path : Path} {code : CodeLine} {found : Occurrence} :
    found ∈ kind.occurrences vocabulary path code ↔
      ∃ token position, (token, position) ∈ code.tokens.zipIdx ∧
        kind.usageAt? vocabulary code position = some found.usage ∧
        kind.name? token.text = some found.name ∧
        found.location = ⟨path, token.span code.line⟩ := by
  rw [occurrences_eq, List.mem_filterMap]
  constructor
  · rintro ⟨⟨token, position⟩, htoken, hfound⟩
    obtain ⟨usage, husage, hnamed⟩ := Option.bind_eq_some_iff.1 hfound
    obtain ⟨name, hname, rfl⟩ := Option.map_eq_some_iff.1 hnamed
    exact ⟨token, position, htoken, husage, hname, rfl⟩
  · rintro ⟨token, position, htoken, husage, hname, hlocation⟩
    refine ⟨(token, position), htoken, ?_⟩
    dsimp only
    rw [husage, Option.bind_some, hname, Option.map_some, ← hlocation]

/-- A name occurs at the locations where a visited script mentions it. -/
theorem exists_occurrence_iff {visits : List Visit} {name : Text} {location : Location} :
    (∃ found ∈ kind.occurrencesIn vocabulary visits,
        found.name = name ∧ found.location = location) ↔
      ∃ visit ∈ visits, visit.path = location.path ∧
        kind.Mentions vocabulary name visit.lines location.span := by
  constructor
  · rintro ⟨found, hfound, rfl, rfl⟩
    obtain ⟨visit, hvisit, hline⟩ := List.mem_flatMap.1 hfound
    obtain ⟨code, hcode, hoccurrence⟩ := List.mem_flatMap.1 hline
    obtain ⟨token, position, htoken, husage, hname, hlocation⟩ :=
      mem_occurrences_iff.1 hoccurrence
    refine ⟨visit, hvisit, by rw [hlocation], code, hcode, token, position, htoken, ⟨?_, hname⟩, ?_⟩
    · rw [husage]
      rfl
    · rw [hlocation]
  · rintro ⟨visit, hvisit, hpath, code, hcode, token, position, htoken, ⟨hsome, hname⟩, hspan⟩
    obtain ⟨usage, husage⟩ := Option.isSome_iff_exists.1 hsome
    refine ⟨⟨name, usage, location⟩, ?_, rfl, rfl⟩
    refine List.mem_flatMap.2 ⟨visit, hvisit, List.mem_flatMap.2 ⟨code, hcode, ?_⟩⟩
    refine mem_occurrences_iff.2 ⟨token, position, htoken, husage, hname, ?_⟩
    rw [hpath, ← hspan]

/-- The occurrences in scripts with different paths do not overlap. -/
theorem pairwise_occurrencesIn {visits : List Visit}
    (hpaths : visits.Pairwise fun left right => left.path.parts ≠ right.path.parts)
    (hlines : ∀ visit ∈ visits, ∃ text, visit.lines = codeLines text) :
    (kind.occurrencesIn vocabulary visits).Pairwise fun left right =>
      ¬left.location.Overlaps right.location := by
  rw [occurrencesIn, List.pairwise_flatMap]
  constructor
  · intro visit hvisit
    obtain ⟨text, htext⟩ := hlines visit hvisit
    rw [htext, List.pairwise_flatMap]
    constructor
    · -- On one line, the tokens lie apart.
      intro code hcode
      have hapart : code.tokens.zipIdx.Pairwise fun left right => left.1.stop < right.1.start := by
        have htokens := CodeLine.pairwise_tokens hcode
        rw [← List.zipIdx_map_fst 0 code.tokens, List.pairwise_map] at htokens
        exact htokens
      rw [occurrences_eq]
      refine hapart.filterMap _ ?_
      rintro ⟨token, position⟩ ⟨token', position'⟩ hlt found hfound found' hfound'
      obtain ⟨usage, -, hnamed⟩ := Option.bind_eq_some_iff.1 hfound
      obtain ⟨name, -, rfl⟩ := Option.map_eq_some_iff.1 hnamed
      obtain ⟨usage', -, hnamed'⟩ := Option.bind_eq_some_iff.1 hfound'
      obtain ⟨name', -, rfl⟩ := Option.map_eq_some_iff.1 hnamed'
      rintro ⟨-, -, -, hoverlap⟩
      simp only [Token.span] at hoverlap hlt
      omega
    · -- Different lines have different numbers.
      refine (pairwise_codeLines text).imp ?_
      intro code code' hlt found hfound found' hfound' hoverlap
      obtain ⟨token, position, -, -, -, hlocation⟩ := mem_occurrences_iff.1 hfound
      obtain ⟨token', position', -, -, -, hlocation'⟩ := mem_occurrences_iff.1 hfound'
      have hline := hoverlap.2.1
      rw [hlocation, hlocation'] at hline
      exact Nat.ne_of_lt hlt hline
  · -- Different visits have different paths.
    refine hpaths.imp ?_
    intro visit visit' hparts found hfound found' hfound' hoverlap
    obtain ⟨code, -, hoccurrence⟩ := List.mem_flatMap.1 hfound
    obtain ⟨code', -, hoccurrence'⟩ := List.mem_flatMap.1 hfound'
    obtain ⟨token, position, -, -, -, hlocation⟩ := mem_occurrences_iff.1 hoccurrence
    obtain ⟨token', position', -, -, -, hlocation'⟩ := mem_occurrences_iff.1 hoccurrence'
    have hpath := hoverlap.1
    rw [hlocation, hlocation'] at hpath
    exact hparts hpath

end SymbolKind

namespace SymbolIndex

variable {index : SymbolIndex} {vocabulary : Vocabulary} {kind : SymbolKind}
  {name newName : Text} {edits : List Edit} {listed : List Occurrence}

/-- A rename that succeeds writes the new name, as it is written in a script, at every definition
and reference. -/
theorem rename_eq_ok (h : index.rename vocabulary kind name newName = .ok edits) :
    ∃ written renamed, kind.written? newName = some written ∧
      kind.name? written = some renamed ∧
      edits = (index.definitionsOf name ++ index.referencesOf name).map fun location =>
        ⟨location, written⟩ := by
  rw [rename] at h
  split at h
  · cases h
  · cases h
  · next found written hfound hwritten =>
    cases h
    have hdefinitions : found = index.definitionsOf name := by
      rw [lookUp] at hfound
      split at hfound
      · split at hfound <;> cases hfound
      · cases hfound
        rfl
    have hname : ∃ renamed, kind.name? written = some renamed := by
      simp only [SymbolKind.written?, Option.ite_none_right_eq_some, Option.some.injEq] at hwritten
      obtain ⟨hsome, rfl⟩ := hwritten
      exact Option.isSome_iff_exists.1 hsome
    obtain ⟨renamed, hrenamed⟩ := hname
    exact ⟨written, renamed, hwritten, hrenamed, by rw [hdefinitions]⟩

/-- The places of a definition or a reference are those of the occurrences of the name. -/
theorem Holds.mem_places_iff (h : index.Holds listed) {location : Location} :
    location ∈ index.definitionsOf name ++ index.referencesOf name ↔
      ∃ found ∈ listed, found.name = name ∧ found.location = location := by
  simp only [definitionsOf, referencesOf, h.places_eq, List.mem_append, List.mem_map,
    List.mem_filter, decide_eq_true_eq]
  constructor
  · rintro (⟨found, ⟨hmem, -, hname⟩, hlocation⟩ | ⟨found, ⟨hmem, -, hname⟩, hlocation⟩)
    · exact ⟨found, hmem, hname, hlocation⟩
    · exact ⟨found, hmem, hname, hlocation⟩
  · rintro ⟨found, hmem, hname, hlocation⟩
    cases husage : found.usage with
    | definition => exact .inl ⟨found, ⟨hmem, husage, hname⟩, hlocation⟩
    | reference => exact .inr ⟨found, ⟨hmem, husage, hname⟩, hlocation⟩

/-- The definitions and references of a name do not overlap, if the occurrences do not. -/
theorem Holds.pairwise_places (h : index.Holds listed)
    (hlisted : listed.Pairwise fun left right => ¬left.location.Overlaps right.location) :
    (index.definitionsOf name ++ index.referencesOf name).Pairwise fun left right =>
      ¬left.Overlaps right := by
  have husage (usage : Usage) : (index.places usage name).Pairwise fun left right =>
      ¬left.Overlaps right := by
    rw [h.places_eq, List.pairwise_map]
    exact hlisted.sublist List.filter_sublist
  rw [List.pairwise_append]
  refine ⟨husage .definition, husage .reference, ?_⟩
  intro definition hdefinition reference hreference
  rw [definitionsOf, h.places_eq] at hdefinition
  rw [referencesOf, h.places_eq] at hreference
  obtain ⟨left, hleft, rfl⟩ := List.mem_map.1 hdefinition
  obtain ⟨right, hright, rfl⟩ := List.mem_map.1 hreference
  obtain ⟨hleft, hdefines⟩ := List.mem_filter.1 hleft
  obtain ⟨hright, hrefers⟩ := List.mem_filter.1 hright
  rw [decide_eq_true_eq] at hdefines hrefers
  -- A definition is not a reference, so that these are two occurrences.
  have hne : left ≠ right := by
    rintro rfl
    rw [hdefines.1] at hrefers
    cases hrefers.1
  have hsymm : Std.Symm fun left right : Occurrence => ¬left.location.Overlaps right.location :=
    ⟨fun _ _ hapart hoverlap => hapart hoverlap.symm⟩
  exact hlisted.forall hleft hright hne

end SymbolIndex

namespace Include

/-- The text at a location, as it is for a walk. -/
def slice? (fs : FileSystem) (root : Path) (text : Option Text) (location : Location) :
    Option Text := do
  let found ← (textOf fs root text location.path).toOption
  let raw ← (Text.lines found)[location.span.line]?
  return (raw.take location.span.stop).drop location.span.start

/-- The visit of a script as it is after the edits of a walk. -/
def afterEdits (fs : FileSystem) (root : Path) (text : Option Text) (edits : List Edit)
    (visit : Visit) : Visit :=
  revisit (textOf (fs.applyEdits (Edit.onDisk root text edits)) root
    (text.map (Text.applyEdits (Edit.inRoot root edits)))) visit

@[simp]
theorem path_afterEdits (fs : FileSystem) (root : Path) (text : Option Text) (edits : List Edit)
    (visit : Visit) : (afterEdits fs root text edits visit).path = visit.path :=
  path_revisit _ _

/-- Whether a location is the first argument of an include line of a visited script. -/
def IsArgument (vocabulary : Vocabulary) (visits : List Visit) (location : Location) : Prop :=
  ∃ visit ∈ visits, visit.path = location.path ∧ ∃ code ∈ visit.lines,
    vocabulary.isInclude code.commandName = true ∧
      ∃ argument ∈ code.argument?, location.span = argument.span code.line

/-- Whether a location is an include argument can be told. -/
instance (vocabulary : Vocabulary) (visits : List Visit) (location : Location) :
    Decidable (IsArgument vocabulary visits location) :=
  inferInstanceAs (Decidable (∃ visit ∈ visits, _ ∧ ∃ code ∈ visit.lines, _ ∧ ∃ argument ∈ _, _))

end Include

namespace SymbolKind

/-- Whether the edits write `written` at every mention of `name` in the visited scripts, and nowhere
else. -/
def Renames (kind : SymbolKind) (vocabulary : Vocabulary) (name written : Text)
    (edits : List Edit) (visits : List Visit) : Prop :=
  ∀ edit, edit ∈ edits ↔ edit.newText = written ∧
    ∃ visit ∈ visits, visit.path = edit.location.path ∧
      kind.Mentions vocabulary name visit.lines edit.location.span

theorem renames_map {kind : SymbolKind} {vocabulary : Vocabulary} {name written : Text}
    {visits : List Visit} {index : SymbolIndex}
    (h : index.Holds (kind.occurrencesIn vocabulary visits)) :
    kind.Renames vocabulary name written
      ((index.definitionsOf name ++ index.referencesOf name).map fun location =>
        ⟨location, written⟩) visits := by
  intro edit
  rw [List.mem_map, ← exists_occurrence_iff]
  constructor
  · rintro ⟨location, hlocation, rfl⟩
    exact ⟨rfl, h.mem_places_iff.1 hlocation⟩
  · rintro ⟨hnew, hfound⟩
    refine ⟨edit.location, h.mem_places_iff.2 hfound, ?_⟩
    rw [← hnew]

/-- A subroutine is named by no line that includes a script, under the standard tables. -/
theorem not_mentionsAt_of_isInclude {name : Text} {code : CodeLine} {token : Token}
    (h : Vocabulary.standard.isInclude code.commandName = true) :
    ¬subroutine.MentionsAt .standard name code token 1 := by
  rintro ⟨husage, -⟩
  -- A subroutine is named after the words that define and call one, and these include nothing.
  have hcommand : code.commandName = "subroutine".toList ∨ code.commandName = "gosub".toList := by
    simp only [usageAt?, if_true, subroutineUsage?] at husage
    split at husage
    · next heq => exact .inl heq
    · split at husage
      · next heq => exact .inr heq
      · cases husage
  rcases hcommand with heq | heq
  · rw [heq] at h
    exact absurd h (by decide)
  · rw [heq] at h
    exact absurd h (by decide)

namespace Renames

variable {kind : SymbolKind} {vocabulary : Vocabulary} {name written renamed : Text}
  {edits : List Edit} {fs : FileSystem} {root : Path} {text : Option Text}

/-- What a rename replaces in a closure is a mention of the name. -/
theorem slice?_eq
    (h : kind.Renames vocabulary name written edits (Include.walk fs vocabulary root text))
    {edit : Edit} (hedit : edit ∈ edits) :
    (Include.slice? fs root text edit.location).bind kind.name? = some name := by
  obtain ⟨-, visit, hvisit, hpath, code, hcode, token, position, htoken, ⟨-, hname⟩, hspan⟩ :=
    (h edit).1 hedit
  obtain ⟨found, hfound, hlines⟩ := Include.lines_of_mem_walk hvisit
  rw [hlines] at hcode
  -- A token holds the characters of its columns.
  obtain ⟨raw, hraw, htokens⟩ := exists_raw_of_mem_codeLines hcode
  have hmem : token ∈ codeTokens raw := by
    rw [← htokens]
    exact List.mem_of_getElem? (List.mem_zipIdx_iff_getElem?.1 htoken)
  have htext := (Token.fits_of_mem_scan (mem_scan_of_mem_codeTokens hmem)).text_eq
  rw [Nat.sub_zero, Nat.sub_zero] at htext
  have hslice : Include.slice? fs root text edit.location = some token.text := by
    rw [Include.slice?, ← hpath, hfound, hspan, htext]
    show ((Text.lines found)[code.line]?).bind _ = _
    rw [hraw]
    rfl
  rw [hslice]
  exact hname

/-- In every visited script, the edits respell the mentions of the name. -/
theorem exists_respells
    (h : kind.Renames vocabulary name written edits (Include.walk fs vocabulary root text))
    {visit : Visit} (hvisit : visit ∈ Include.walk fs vocabulary root text) :
    ∃ found own, visit = Visit.ofText visit.path found ∧
      kind.Respells vocabulary name written own found ∧
      Include.afterEdits fs root text edits visit =
        Visit.ofText visit.path (Text.applyEdits own found) := by
  obtain ⟨found, hfound, hlines⟩ := Include.lines_of_mem_walk hvisit
  have htexts : ∀ edit ∈ edits,
      ∃ other, Include.textOf fs root text edit.location.path = .ok other := by
    intro edit hedit
    obtain ⟨-, other, hother, hpath, -⟩ := (h edit).1 hedit
    obtain ⟨text', htext', -⟩ := Include.lines_of_mem_walk hother
    exact ⟨text', by rw [← hpath, htext']⟩
  obtain ⟨own, hown, hfrom, hall⟩ := Include.textOf_applyEdits hfound htexts
  refine ⟨found, own, ?_, ⟨?_, ?_⟩, Include.revisit_of_ok hown⟩
  · rw [Visit.ofText, ← hlines]
  · intro edit hedit
    obtain ⟨hmem, htext⟩ := hfrom edit hedit
    obtain ⟨hnew, other, hother, hpath, hmentions⟩ := (h edit).1 hmem
    -- The script of the edit has the same text, even under another path.
    obtain ⟨found', hfound', hlines'⟩ := Include.lines_of_mem_walk hother
    rw [hpath, htext] at hfound'
    cases hfound'
    rw [hlines'] at hmentions
    exact ⟨hnew, hmentions⟩
  · intro span hmentions
    refine ⟨⟨⟨visit.path, span⟩, written⟩, hall _ ((h _).2 ⟨rfl, visit, hvisit, rfl, ?_⟩) rfl, rfl⟩
    rw [hlines]
    exact hmentions

/-- If no edit is at an include argument, none of them mentions the name. -/
theorem not_mentionsAt
    (h : kind.Renames vocabulary name written edits (Include.walk fs vocabulary root text))
    (hinclude : kind = .subroutine ∧ vocabulary = .standard ∨
      ∀ edit ∈ edits,
        ¬Include.IsArgument vocabulary (Include.walk fs vocabulary root text) edit.location)
    {visit : Visit} (hvisit : visit ∈ Include.walk fs vocabulary root text) {code : CodeLine}
    (hcode : code ∈ visit.lines) (hcommand : vocabulary.isInclude code.commandName = true)
    {token : Token} (htoken : code.argument? = some token) :
    ¬kind.MentionsAt vocabulary name code token 1 := by
  rcases hinclude with ⟨rfl, rfl⟩ | huntouched
  · exact not_mentionsAt_of_isInclude hcommand
  · intro hmention
    have hmem : (token, 1) ∈ code.tokens.zipIdx := by
      rw [List.mem_zipIdx_iff_getElem?, CodeLine.tokens, List.getElem?_cons_succ,
        ← List.head?_eq_getElem?]
      exact htoken
    -- The mention would be edited under the path of the visit.
    have hedit : ⟨⟨visit.path, token.span code.line⟩, written⟩ ∈ edits :=
      (h _).2 ⟨rfl, visit, hvisit, rfl, code, hcode, token, 1, hmem, hmention, rfl⟩
    exact huntouched _ hedit ⟨visit, hvisit, rfl, code, hcode, hcommand, token, htoken, rfl⟩

/-- After a rename that touches no include argument, the same scripts are visited again. -/
theorem walk_eq
    (h : kind.Renames vocabulary name written edits (Include.walk fs vocabulary root text))
    (hwritten : kind.name? written = some renamed)
    (harguments : ∀ visit ∈ Include.walk fs vocabulary root text, ∀ code ∈ visit.lines,
      vocabulary.isInclude code.commandName = true → ∀ token, code.argument? = some token →
        ¬kind.MentionsAt vocabulary name code token 1) :
    Include.walk (fs.applyEdits (Edit.onDisk root text edits)) vocabulary root
        (text.map (Text.applyEdits (Edit.inRoot root edits))) =
      (Include.walk fs vocabulary root text).map (Include.afterEdits fs root text edits) := by
  refine Include.walk_mapFiles _ _ fun visit hvisit => ?_
  show Include.targets (fs.applyEdits _) vocabulary
    (Include.afterEdits fs root text edits visit) = _
  obtain ⟨found, own, hbefore, hrespells, hafter⟩ := h.exists_respells hvisit
  have hinclude := harguments visit hvisit
  rw [hbefore] at hinclude
  rw [hafter, hbefore]
  exact hrespells.targets hwritten (FileSystem.isFile_mapFiles _ fs) hinclude visit.path

/-- After a rename, the scripts have the sightings that they had, but for the name. -/
theorem sightingsIn_eq
    (h : kind.Renames vocabulary name written edits (Include.walk fs vocabulary root text))
    (hwritten : kind.name? written = some renamed) :
    kind.sightingsIn vocabulary
        ((Include.walk fs vocabulary root text).map (Include.afterEdits fs root text edits)) =
      (kind.sightingsIn vocabulary (Include.walk fs vocabulary root text)).map
        (Sighting.rename name renamed) := by
  rw [sightingsIn, sightingsIn, List.flatMap_map, List.map_flatMap]
  apply List.flatMap_congr
  intro visit hvisit
  obtain ⟨found, own, hbefore, hrespells, hafter⟩ := h.exists_respells hvisit
  rw [hafter, hbefore]
  exact hrespells.sightings hwritten visit.path

/-- The sites of the occurrences after a rename are those before, with the names replaced. -/
theorem map_siteOf?_filter_eq
    (h : kind.Renames vocabulary name written edits (Include.walk fs vocabulary root text))
    (hwritten : kind.name? written = some renamed)
    (hpaths : (Include.walk fs vocabulary root text).Pairwise fun left right =>
      left.path ≠ right.path) {visits' : List Visit}
    (hvisits' : visits' =
      (Include.walk fs vocabulary root text).map (Include.afterEdits fs root text edits))
    (wanted : Usage → Text → Bool) :
    (((kind.occurrencesIn vocabulary visits').filter fun found =>
        wanted found.usage found.name).map fun found => Include.siteOf? visits' found.location) =
      (((kind.occurrencesIn vocabulary (Include.walk fs vocabulary root text)).filter fun found =>
        wanted found.usage (if found.name = name then renamed else found.name)).map fun found =>
          Include.siteOf? (Include.walk fs vocabulary root text) found.location) := by
  have hpaths' : visits'.Pairwise fun left right => left.path ≠ right.path := by
    rw [hvisits', List.pairwise_map]
    simpa using hpaths
  have hlines' : ∀ visit ∈ visits', ∃ text, visit.lines = codeLines text := by
    intro visit hvisit
    rw [hvisits'] at hvisit
    obtain ⟨before, hbefore, rfl⟩ := List.mem_map.1 hvisit
    obtain ⟨found, own, -, -, hafter⟩ := h.exists_respells hbefore
    exact ⟨Text.applyEdits own found, by rw [hafter]; rfl⟩
  have hlines : ∀ visit ∈ Include.walk fs vocabulary root text,
      ∃ text, visit.lines = codeLines text := fun _ => Include.exists_lines_of_mem_walk
  have hname (sighting : Sighting) : (sighting.rename name renamed).name =
      if sighting.name = name then renamed else sighting.name := by
    rw [Sighting.rename]
    split <;> rfl
  -- Both sides are sites of sightings, and the sightings differ in the name alone.
  rw [map_siteOf?_filter kind vocabulary hpaths' hlines' wanted, hvisits',
    h.sightingsIn_eq hwritten, List.filter_map, List.map_map,
    map_siteOf?_filter kind vocabulary hpaths hlines fun usage other =>
      wanted usage (if other = name then renamed else other)]
  simp only [Function.comp_def, Sighting.usage_rename, Sighting.site_rename, hname]

end Renames

/-- A rename whose edits touch no include argument is sound. The edits do not overlap, and each of
them replaces a spelling of the name. After the edits, the same scripts are visited in the same
order; the new name has the sites of the old name and its own sites, in the order in which the
indexer found them, the old name has none if it differs, and every other name has the sites that it
had. -/
theorem index_applyEdits_rename {fs : FileSystem} {vocabulary : Vocabulary} {root : Path}
    {text : Option Text} {kind : SymbolKind} {name newName : Text} {edits : List Edit}
    (hslash : ¬['/'] <:+ root.spelling) (hdot : ¬['/', '.'] <:+ root.spelling)
    (hrename : (kind.index fs vocabulary root text).rename vocabulary kind name newName = .ok edits)
    (hinclude : kind = .subroutine ∧ vocabulary = .standard ∨
      ∀ edit ∈ edits,
        ¬Include.IsArgument vocabulary (Include.walk fs vocabulary root text) edit.location) :
    let fs' := fs.applyEdits (Edit.onDisk root text edits)
    let text' := text.map (Text.applyEdits (Edit.inRoot root edits))
    let before := kind.index fs vocabulary root text
    let after := kind.index fs' vocabulary root text'
    let found := kind.occurrencesIn vocabulary (Include.walk fs vocabulary root text)
    let site := Include.siteOf? (Include.walk fs vocabulary root text)
    let site' := Include.siteOf? (Include.walk fs' vocabulary root text')
    edits.Pairwise (fun left right => ¬left.location.Overlaps right.location) ∧
    (∀ edit ∈ edits, (Include.slice? fs root text edit.location).bind kind.name? = some name) ∧
    before.Holds found ∧
    ∃ written renamed, kind.written? newName = some written ∧ kind.name? written = some renamed ∧
      (∀ edit ∈ edits, edit.newText = written) ∧
      Include.closure fs' vocabulary root text' = Include.closure fs vocabulary root text ∧
      (∀ usage, ∃ sites : List Site,
        (after.places usage renamed).map site' = sites.map some ∧
        ((found.filter fun found =>
          found.usage = usage ∧ (found.name = name ∨ found.name = renamed)).map fun found =>
            site found.location) = sites.map some) ∧
      (renamed ≠ name → ∀ usage, after.places usage name = []) ∧
      ∀ usage other, other ≠ name → other ≠ renamed →
        (after.places usage other).map site' = (before.places usage other).map site := by
  intro fs' text' before after found site site'
  have hbefore : before.Holds found := kind.holds_index fs vocabulary root text
  have hafter := kind.holds_index fs' vocabulary root text'
  obtain ⟨written, renamed, hnew, hwritten, hedits⟩ := SymbolIndex.rename_eq_ok hrename
  have h : kind.Renames vocabulary name written edits (Include.walk fs vocabulary root text) := by
    rw [hedits]
    exact renames_map hbefore
  have hparts : (Include.walk fs vocabulary root text).Pairwise fun left right =>
      left.path.parts ≠ right.path.parts := Include.pairwise_walk hslash hdot text
  have hpaths : (Include.walk fs vocabulary root text).Pairwise fun left right =>
      left.path ≠ right.path := by
    refine hparts.imp fun hne heq => hne ?_
    rw [heq]
  have hlines : ∀ visit ∈ Include.walk fs vocabulary root text,
      ∃ text, visit.lines = codeLines text := fun _ => Include.exists_lines_of_mem_walk
  have hwalk := h.walk_eq hwritten fun visit hvisit code hcode hcommand token htoken =>
    h.not_mentionsAt hinclude hvisit hcode hcommand htoken
  -- All that is said of places follows from one equation, for the wanted usages and names.
  have hsites := h.map_siteOf?_filter_eq hwritten hpaths hwalk
  have hplaces {index : SymbolIndex} {listed : List Occurrence} (hholds : index.Holds listed)
      (usage : Usage) (other : Text) (site : Location → Option Site) :
      (index.places usage other).map site =
        (listed.filter fun found => found.usage = usage ∧ found.name = other).map
          fun found => site found.location := by
    rw [hholds.places_eq, List.map_map]
    rfl
  refine ⟨?_, fun edit hedit => h.slice?_eq hedit, hbefore, written, renamed, hnew, hwritten,
    fun edit hedit => ((h edit).1 hedit).1, ?_, ?_, ?_, ?_⟩
  · rw [hedits, List.pairwise_map]
    exact hbefore.pairwise_places (pairwise_occurrencesIn hparts hlines)
  · rw [Include.closure, Include.closure, hwalk, List.map_map]
    simp only [Function.comp_def, Include.path_afterEdits]
  · intro usage
    have hmerged : (after.places usage renamed).map site' =
        (found.filter fun found =>
          found.usage = usage ∧ (found.name = name ∨ found.name = renamed)).map fun found =>
            site found.location := by
      rw [hplaces hafter]
      refine (hsites fun use other => use = usage ∧ other = renamed).trans ?_
      congr 1
      apply List.filter_congr
      intro found hfound
      by_cases hname : found.name = name <;> simp [hname]
    -- Every place has a site, which is that of its sighting.
    have hsighted := map_siteOf?_filter kind vocabulary hpaths hlines fun use other =>
      use = usage ∧ (other = name ∨ other = renamed)
    refine ⟨((kind.sightingsIn vocabulary (Include.walk fs vocabulary root text)).filter
      fun sighting => sighting.usage = usage ∧
        (sighting.name = name ∨ sighting.name = renamed)).map (·.site), ?_, ?_⟩
    · rw [hmerged, List.map_map]
      exact hsighted
    · rw [List.map_map]
      exact hsighted
  · intro hne usage
    -- Under its old name the symbol has no site, and so no place.
    have hnone : (after.places usage name).map site' = [] := by
      rw [hplaces hafter]
      refine (hsites fun use other => use = usage ∧ other = name).trans ?_
      rw [List.map_eq_nil_iff, List.filter_eq_nil_iff]
      intro found hfound
      by_cases hname : found.name = name <;> simp [hname, hne]
    exact List.map_eq_nil_iff.1 hnone
  · intro usage other hother hother'
    rw [hplaces hafter, hplaces hbefore]
    refine (hsites fun use another => use = usage ∧ another = other).trans ?_
    congr 1
    apply List.filter_congr
    intro found hfound
    by_cases hname : found.name = name <;> simp [hname, hother.symm, hother'.symm]

/-- A disk with one script. -/
def sampleDisk : FileSystem :=
  ⟨true, [("lib.osc".toList, .file true (Utf8.encode "seti $x 1\n".toList))], []⟩

/-- The path of a script that includes the one on the disk. -/
def sampleRoot : Path :=
  ⟨"main.osc".toList⟩

/-- The text of that script: two mentions of a variable on one line, in two spellings, and a third
one in a comment. -/
def sampleText : Text :=
  "include lib.osc\nprint $X $x $y # $x\n".toList

/-- The walk from the sample root visits both scripts. -/
theorem walk_sample : Include.walk sampleDisk .standard sampleRoot (some sampleText) =
    [Visit.ofText sampleRoot sampleText, Visit.ofText ⟨"lib.osc".toList⟩ "seti $x 1\n".toList] := by
  have htargets : Include.targets sampleDisk .standard (Visit.ofText sampleRoot sampleText) =
      [⟨"lib.osc".toList⟩] := by decide +kernel
  have hfresh : sampleDisk.visitKey ⟨"lib.osc".toList⟩ ∉ [sampleDisk.visitKey sampleRoot] := by
    decide +kernel
  have hread : sampleDisk.read ⟨"lib.osc".toList⟩ = .ok (Utf8.encode "seti $x 1\n".toList) := by rfl
  rw [Include.walk, htargets, Include.explore, dif_neg hfresh]
  split
  · next hfault =>
    rw [hread] at hfault
    cases hfault
  · next content hcontent =>
    rw [hread] at hcontent
    cases hcontent
    have hnone : Include.targets sampleDisk .standard
        (Visit.ofText ⟨"lib.osc".toList⟩ "seti $x 1\n".toList) = [] := by decide +kernel
    rw [Utf8.decodeLossy_encode]
    show _ :: _ :: Include.explore _ _ (Include.targets _ _ _ ++ []) _ = _
    rw [hnone, List.append_nil, Include.explore]

/-- On the sample, renaming `x` to `y` edits three places that do not overlap, and leaves no place
of `x`. -/
theorem index_applyEdits_rename_sample :
    ∃ edits, (var.index sampleDisk .standard sampleRoot (some sampleText)).rename .standard .var
        ['x'] ['Y'] = .ok edits ∧
      edits.length = 3 ∧
      edits.Pairwise (fun left right => ¬left.location.Overlaps right.location) ∧
      ∀ usage, (var.index (sampleDisk.applyEdits (Edit.onDisk sampleRoot (some sampleText) edits))
        .standard sampleRoot ((some sampleText).map
          (Text.applyEdits (Edit.inRoot sampleRoot edits)))).places usage ['x'] = [] := by
  have hrename : (var.index sampleDisk .standard sampleRoot (some sampleText)).rename .standard .var
      ['x'] ['Y'] = .ok [⟨⟨⟨"lib.osc".toList⟩, ⟨0, 5, 7⟩⟩, "$Y".toList⟩,
        ⟨⟨sampleRoot, ⟨1, 6, 8⟩⟩, "$Y".toList⟩, ⟨⟨sampleRoot, ⟨1, 9, 11⟩⟩, "$Y".toList⟩] := by
    rw [index, walk_sample]
    rfl
  have hinclude : ∀ edit ∈ [(⟨⟨⟨"lib.osc".toList⟩, ⟨0, 5, 7⟩⟩, "$Y".toList⟩ : Edit),
        ⟨⟨sampleRoot, ⟨1, 6, 8⟩⟩, "$Y".toList⟩, ⟨⟨sampleRoot, ⟨1, 9, 11⟩⟩, "$Y".toList⟩],
      ¬Include.IsArgument .standard
        (Include.walk sampleDisk .standard sampleRoot (some sampleText)) edit.location := by
    rw [walk_sample]
    decide +kernel
  obtain ⟨hapart, -, -, written, renamed, hwritten, hrenamed, -, -, -, hnone, -⟩ :=
    index_applyEdits_rename (by decide) (by decide) hrename (.inr hinclude)
  refine ⟨_, hrename, rfl, hapart, hnone ?_⟩
  have hnew : var.written? ['Y'] = some "$Y".toList := by rfl
  rw [hnew] at hwritten
  cases hwritten
  rintro rfl
  exact absurd hrenamed (by decide +kernel)

end SymbolKind

end ScriptAnalysis
