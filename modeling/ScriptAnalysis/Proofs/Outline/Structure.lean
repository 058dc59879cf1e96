import ScriptAnalysis.Proofs.Outline.Items
import ScriptAnalysis.Proofs.Symbol.Visible

/-!
# The structure of an outline

The outline has one entry for each line that defines a subroutine with a name, in the order of the
lines. The lines from the first to the last of one entry lie apart from those of another, or one of
the two lies inside the other, so that no line is the last one of two entries. The entries with an
identifier as their name are the definitions that the index of the script has in the script.

* `Outline.Structured`, `structured_outline`: the entries of an outline.
* `definitions_eq_filterMap_outline`: the definitions that they are in the index.
* `outline_structure`: both.
-/

namespace ScriptAnalysis

/-- Whether the lines of two entries lie apart. -/
def OutlineEntry.Apart (left right : OutlineEntry) : Prop :=
  left.endLine < right.startLine ∨ right.endLine < left.startLine

/-- Whether the lines of an entry lie inside those of another. -/
def OutlineEntry.Inside (inner outer : OutlineEntry) : Prop :=
  outer.startLine < inner.startLine ∧ inner.endLine < outer.endLine

namespace Outline

/-- Whether entries are the subroutines with a name in a text, each with a last line of its own. -/
structure Structured (vocabulary : Vocabulary) (text : Text) (entries : List OutlineEntry) :
    Prop where
  /-- There is one entry for each line that defines a subroutine with a name. -/
  heads : entries.map (fun entry => (entry.name, entry.selection)) =
    (codeLines text).filterMap (head? vocabulary)
  /-- The entries are in the order of their first lines. -/
  sorted : entries.Pairwise fun earlier later => earlier.startLine < later.startLine
  /-- An entry ends on its first line, or on a later one that has the closer. -/
  ends : ∀ entry ∈ entries, entry.endLine = entry.startLine ∨
    entry.startLine < entry.endLine ∧
      ∃ code ∈ codeLines text, code.line = entry.endLine ∧ Ends vocabulary code
  /-- No line is the last one of two entries. -/
  endLine_inj : ∀ entry ∈ entries, ∀ other ∈ entries, entry.endLine = other.endLine →
    entry = other
  /-- The lines of two entries lie apart, or those of one inside those of the other. -/
  laminar : ∀ entry ∈ entries, ∀ other ∈ entries, entry ≠ other →
    entry.Apart other ∨ entry.Inside other ∨ other.Inside entry

end Outline

open Outline

/-! ## The entries -/

section Entries

variable (vocabulary : Vocabulary) (text : Text)

/-- The entries are given by the lines that define a subroutine with a name. -/
theorem map_outline :
    (outline vocabulary text).map (fun entry => (entry.name, entry.selection)) =
      (codeLines text).filterMap (head? vocabulary) := by
  have hheads := (nested_itemsOf vocabulary (pairwise_codeLines text)).heads
  rw [outline_eq_itemsOf, List.map_map, List.map_reverse,
    ← List.reverse_reverse (List.filterMap _ _), ← hheads]
  rfl

/-- An entry ends on its first line, or on a later one that has the closer. -/
theorem endLine_of_mem_outline {entry : OutlineEntry} (h : entry ∈ outline vocabulary text) :
    entry.endLine = entry.startLine ∨ entry.startLine < entry.endLine ∧
      ∃ code ∈ codeLines text, code.line = entry.endLine ∧ Ends vocabulary code := by
  have hnested := nested_itemsOf vocabulary (pairwise_codeLines text)
  rw [outline_eq_itemsOf] at h
  obtain ⟨item, hitem, rfl⟩ := List.mem_map.1 h
  rw [List.mem_reverse] at hitem
  cases hopen : item.2 with
  | true => exact .inl (hnested.endLine_of_open item hitem hopen)
  | false => exact .inr (hnested.endLine_of_closed item hitem hopen)

/-- An earlier entry ends before a later one, or behind its end. -/
theorem pairwise_outline :
    (outline vocabulary text).Pairwise fun earlier later =>
      earlier.startLine < later.startLine ∧
        (earlier.endLine < later.startLine ∨ later.endLine < earlier.endLine) := by
  rw [outline_eq_itemsOf, List.pairwise_map, List.pairwise_reverse]
  have hnested := nested_itemsOf vocabulary (pairwise_codeLines text)
  refine hnested.pairwise.imp fun ⟨hstart, hends⟩ => ?_
  exact ⟨hstart, hends.imp_right And.right⟩

/-- The lines of two entries lie apart, or those of one inside those of the other. -/
theorem laminar_outline {entry other : OutlineEntry} (hentry : entry ∈ outline vocabulary text)
    (hother : other ∈ outline vocabulary text) (hne : entry ≠ other) :
    entry.Apart other ∨ entry.Inside other ∨ other.Inside entry := by
  have hpairs : (outline vocabulary text).Pairwise fun left right =>
      left.Apart right ∨ left.Inside right ∨ right.Inside left := by
    refine (pairwise_outline vocabulary text).imp fun ⟨hstart, hends⟩ => ?_
    rcases hends with hbehind | hinside
    · exact .inl (.inl hbehind)
    · exact .inr (.inr ⟨hstart, hinside⟩)
  have hsymm : Std.Symm fun left right : OutlineEntry =>
      left.Apart right ∨ left.Inside right ∨ right.Inside left :=
    ⟨fun _ _ => Or.imp Or.symm Or.symm⟩
  exact hpairs.forall hentry hother hne

/-- The entries of an outline have their structure. -/
theorem structured_outline : Structured vocabulary text (outline vocabulary text) where
  heads := map_outline vocabulary text
  sorted := (pairwise_outline vocabulary text).imp And.left
  ends _ := endLine_of_mem_outline vocabulary text
  endLine_inj entry hentry other hother heq := by
    have hle {entry : OutlineEntry} (h : entry ∈ outline vocabulary text) :
        entry.startLine ≤ entry.endLine := by
      rcases endLine_of_mem_outline vocabulary text h with hsame | ⟨hlt, -⟩
      · exact Nat.le_of_eq hsame.symm
      · exact Nat.le_of_lt hlt
    -- Neither apart nor one inside the other can two entries end on one line.
    by_contra hne
    have hentry' := hle hentry
    have hother' := hle hother
    rcases laminar_outline vocabulary text hentry hother hne with
      (hlt | hlt) | ⟨-, hlt⟩ | ⟨-, hlt⟩ <;> omega
  laminar _ hentry _ hother := laminar_outline vocabulary text hentry hother

end Entries

/-! ## The definitions in the index -/

section Index

variable {fs : FileSystem} {vocabulary : Vocabulary} {path : Path} {text : Text}

/-- A line defines the subroutine that it names for the outline, if the name is an identifier. -/
theorem map_definition_eq_bind_head? (path : Path) (code : CodeLine) :
    ((subroutineOccurrence? vocabulary path code).filter fun found =>
        found.usage = .definition).map (fun found => (found.name, found.location.span)) =
      (head? vocabulary code).bind fun head =>
        (subroutineName? head.1).map fun name => (name, head.2) := by
  rw [subroutineOccurrence?, subroutineUsage?, head?]
  cases code.argument? with
  | none => split <;> simp
  | some argument =>
    cases hname : subroutineName? argument.text with
    | none => split <;> simp [hname]
    | some name =>
      split
      · simp [hname, Option.filter_some]
      · split <;> simp [hname, Option.filter_some]

/-- The definitions that an index has in its root are the entries of the outline with an identifier
as their name. -/
theorem definitions_eq_filterMap_outline (hslash : ¬['/'] <:+ path.spelling)
    (hdot : ¬['/', '.'] <:+ path.spelling) :
    ((SymbolKind.subroutine.occurrencesIn vocabulary
          (Include.walk fs vocabulary path (some text))).filter fun found =>
        found.location.path.parts = path.parts ∧ found.usage = .definition).map
          (fun found => (found.name, found.location.span)) =
      (outline vocabulary text).filterMap fun entry =>
        (subroutineName? entry.name).map fun name => (name, entry.selection) := by
  have houtline : (outline vocabulary text).filterMap (fun entry =>
        (subroutineName? entry.name).map fun name => (name, entry.selection)) =
      ((codeLines text).filterMap (head? vocabulary)).filterMap fun head =>
        (subroutineName? head.1).map fun name => (name, head.2) := by
    rw [← map_outline, List.filterMap_map]
    rfl
  -- With the root alone on the left, both sides go through its lines of code.
  rw [SymbolKind.filter_occurrences_of_parts_ne
      (fun _ => Include.parts_ne_of_spelling hslash hdot), houtline, List.filter_filterMap,
    List.map_filterMap, List.filterMap_filterMap]
  apply List.filterMap_congr
  intro code hcode
  exact map_definition_eq_bind_head? path code

/-- The definitions of one name there are the entries with this name. -/
theorem definitionsOf_eq_filter_outline (hslash : ¬['/'] <:+ path.spelling)
    (hdot : ¬['/', '.'] <:+ path.spelling) (name : Text) :
    (((SymbolKind.subroutine.index fs vocabulary path (some text)).definitionsOf name).filter
        fun location => location.path.parts = path.parts).map (·.span) =
      ((outline vocabulary text).filter fun entry =>
        subroutineName? entry.name = some name).map (·.selection) := by
  -- Both sides are the names and places of all definitions, cut down to one name.
  let only (found : List (Text × Span)) := (found.filter fun head => head.1 = name).map Prod.snd
  have hindex (found : List Occurrence) :
      (((found.filter fun found => found.usage = .definition ∧ found.name = name).map
          (·.location)).filter fun location => location.path.parts = path.parts).map (·.span) =
        only ((found.filter fun found =>
          found.location.path.parts = path.parts ∧ found.usage = .definition).map fun found =>
            (found.name, found.location.span)) := by
    simp only [only, List.filter_map, List.map_map, List.filter_filter, Function.comp_def]
    congr 2
    funext found
    simp only [Bool.decide_and, Bool.and_comm, Bool.and_left_comm, Bool.and_assoc]
  have hentries (entries : List OutlineEntry) :
      only (entries.filterMap fun entry =>
          (subroutineName? entry.name).map fun name => (name, entry.selection)) =
        (entries.filter fun entry => subroutineName? entry.name = some name).map (·.selection) := by
    induction entries with
    | nil => rfl
    | cons entry others ih =>
      cases hname : subroutineName? entry.name with
      | none => simpa [hname] using ih
      | some found => by_cases hfound : found = name <;> simpa [only, hname, hfound] using ih
  have hholds := SymbolKind.subroutine.holds_index fs vocabulary path (some text)
  rw [SymbolIndex.definitionsOf, hholds.places_eq, hindex,
    definitions_eq_filterMap_outline hslash hdot, hentries]

end Index

/-- An outline has one entry for each line that defines a subroutine with a name, in the order of
the lines. An entry ends on its first line or on a later one that has the closer, no line being the
last one of two entries, and the lines of two entries lie apart or those of one inside those of the
other. On any disk and for any path that does not end in a slash, or a slash and a dot, the entries
with an identifier as their name are the definitions that the indexer finds in the path itself, in
the same order and with the same names and places, and the index has just what the indexer finds. So
for each name the index lists the places of its entries, in their order. -/
theorem outline_structure (vocabulary : Vocabulary) (text : Text) :
    Structured vocabulary text (outline vocabulary text) ∧
    ∀ (fs : FileSystem) (path : Path), ¬['/'] <:+ path.spelling → ¬['/', '.'] <:+ path.spelling →
      let index := SymbolKind.subroutine.index fs vocabulary path (some text)
      let found := SymbolKind.subroutine.occurrencesIn vocabulary
        (Include.walk fs vocabulary path (some text))
      index.Holds found ∧
      (found.filter fun found =>
          found.location.path.parts = path.parts ∧ found.usage = .definition).map
            (fun found => (found.name, found.location.span)) =
        (outline vocabulary text).filterMap (fun entry =>
          (subroutineName? entry.name).map fun name => (name, entry.selection)) ∧
      ∀ name,
        ((index.definitionsOf name).filter
            fun location => location.path.parts = path.parts).map (·.span) =
          ((outline vocabulary text).filter fun entry =>
            subroutineName? entry.name = some name).map (·.selection) :=
  ⟨structured_outline vocabulary text, fun fs path hslash hdot =>
    ⟨SymbolKind.subroutine.holds_index fs vocabulary path (some text),
      definitions_eq_filterMap_outline hslash hdot,
      definitionsOf_eq_filter_outline hslash hdot⟩⟩

/-- A subroutine inside another, one without a name and one that is never closed. The name of the
inner one is no identifier, so that the index leaves it out. -/
theorem outline_structure_sample :
    let text := ("subroutine Run\nsubroutine 9\nendsubroutine\nendsubroutine\n" ++
      "subroutine\nsubroutine b\n").toList
    let path : Path := ⟨"main.osc".toList⟩
    let outer : OutlineEntry := ⟨"Run".toList, ⟨0, 11, 14⟩, 3⟩
    let inner : OutlineEntry := ⟨"9".toList, ⟨1, 11, 12⟩, 2⟩
    let last : OutlineEntry := ⟨"b".toList, ⟨5, 11, 12⟩, 5⟩
    let disk : FileSystem := ⟨true, [], []⟩
    let index := SymbolKind.subroutine.index disk .standard path (some text)
    let found := SymbolKind.subroutine.occurrencesIn .standard
      (Include.walk disk .standard path (some text))
    outline .standard text = [outer, inner, last] ∧
      Structured .standard text [outer, inner, last] ∧
      ¬['/'] <:+ path.spelling ∧ ¬['/', '.'] <:+ path.spelling ∧ index.Holds found ∧
      (found.filter fun found =>
          found.location.path.parts = path.parts ∧ found.usage = .definition).map
            (fun found => (found.name, found.location.span)) =
        [("run".toList, ⟨0, 11, 14⟩), ("b".toList, ⟨5, 11, 12⟩)] ∧
      ((index.definitionsOf "run".toList).filter fun location =>
          location.path.parts = path.parts).map (·.span) = [⟨0, 11, 14⟩] := by
  intro text path outer inner last disk index found
  obtain ⟨hstructured, hindex⟩ := outline_structure .standard text
  have hslash : ¬['/'] <:+ path.spelling := by decide +kernel
  have hdot : ¬['/', '.'] <:+ path.spelling := by decide +kernel
  obtain ⟨hholds, hdefinitions, hrun⟩ := hindex disk path hslash hdot
  have houtline : outline .standard text = [outer, inner, last] := by
    rw [outline_eq_itemsOf]
    decide +kernel
  rw [houtline] at hstructured hdefinitions
  refine ⟨houtline, hstructured, hslash, hdot, hholds, hdefinitions.trans (by decide +kernel), ?_⟩
  rw [hrun, houtline]
  decide +kernel

end ScriptAnalysis
