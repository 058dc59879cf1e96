import Mathlib.Data.List.Basic
import ScriptAnalysis.Proofs.CodeLine
import ScriptAnalysis.Proofs.Symbol.Occurrence

/-!
# Occurrences by the position of their token

The columns of an occurrence shift when something on its line is edited, but the position of its
token among the code tokens of the line does not. A sighting is an occurrence whose place is told by
this position.

* `SymbolKind.usageAt?`: how a symbol is used by the token at a position of a line.
* `SymbolKind.occurrences_eq`: both kinds of occurrences are found in this way.
* `Include.siteOf?`: the site of a location.
* `SymbolKind.map_siteOf?_occurrences`: the occurrences in some scripts as sightings.
-/

namespace ScriptAnalysis

/-- A place in a script: a code token of a line, told by its position. -/
structure Site where
  /-- The file. -/
  path : Path
  /-- The line, counted from zero. -/
  line : Nat
  /-- The position among the code tokens of the line. The command has position zero. -/
  position : Nat
  deriving DecidableEq, Repr

/-- An occurrence of a symbol, with its place told by position. -/
structure Sighting where
  /-- The name of the symbol. -/
  name : Text
  /-- What the occurrence does. -/
  usage : Usage
  /-- Where it is. -/
  site : Site
  deriving DecidableEq, Repr

namespace SymbolKind

/-- How the symbol that is named by the token at a position of a line is used there, if the token is
one that may name a symbol. -/
def usageAt? (kind : SymbolKind) (vocabulary : Vocabulary) (code : CodeLine) :
    (position : Nat) → Option Usage
  | 0 => none
  | position + 1 =>
    match kind with
    | subroutine => if position = 0 then subroutineUsage? vocabulary code else none
    | var =>
      if position = 0 ∧ vocabulary.isAssignment code.commandName = true then some .definition
      else some .reference

/-- How a token is used depends only on the command of its line. -/
theorem usageAt?_congr (kind : SymbolKind) (vocabulary : Vocabulary) {code code' : CodeLine}
    (h : code'.commandName = code.commandName) (position : Nat) :
    kind.usageAt? vocabulary code' position = kind.usageAt? vocabulary code position := by
  cases position with
  | zero => rfl
  | succ position => cases kind <;> simp only [usageAt?, subroutineUsage?, h]

/-- The sightings on a line of the file `path`. -/
def sightings (kind : SymbolKind) (vocabulary : Vocabulary) (path : Path) (code : CodeLine) :
    List Sighting :=
  code.tokens.zipIdx.filterMap fun (token, position) =>
    (kind.usageAt? vocabulary code position).bind fun usage =>
      (kind.name? token.text).map fun name => ⟨name, usage, path, code.line, position⟩

/-- The sightings in the scripts that a walk visited. -/
def sightingsIn (kind : SymbolKind) (vocabulary : Vocabulary) (visits : List Visit) :
    List Sighting :=
  visits.flatMap fun visit => visit.lines.flatMap (kind.sightings vocabulary visit.path)

/-- The occurrences on a line are the tokens that may name a symbol and do. -/
theorem occurrences_eq (kind : SymbolKind) (vocabulary : Vocabulary) (path : Path)
    (code : CodeLine) :
    kind.occurrences vocabulary path code =
      code.tokens.zipIdx.filterMap fun (token, position) =>
        (kind.usageAt? vocabulary code position).bind fun usage =>
          (kind.name? token.text).map fun name =>
            ⟨name, usage, path, token.span code.line⟩ := by
  have htokens : code.tokens.zipIdx =
      (code.command, 0) :: code.arguments.zipIdx.map fun (token, position) =>
        (token, position + 1) := by
    rw [CodeLine.tokens, List.zipIdx_cons, Nat.zero_add, List.zipIdx_succ]
  rw [htokens, List.filterMap_cons, List.filterMap_map]
  cases kind with
  | var =>
    -- Every argument may name a variable.
    apply List.filterMap_congr
    rintro ⟨token, position⟩ -
    simp only [Function.comp_apply, usageAt?]
    split <;> simp_all [name?]
  | subroutine =>
    show (subroutineOccurrence? vocabulary path code).toList = _
    rw [subroutineOccurrence?, CodeLine.argument?]
    cases code.arguments with
    | nil => cases subroutineUsage? vocabulary code <;> rfl
    | cons argument others =>
      -- Only the first argument may name a subroutine.
      have hothers : (others.zipIdx 1).filterMap ((fun (token, position) =>
          (usageAt? subroutine vocabulary code position).bind fun usage =>
            (name? subroutine token.text).map fun name =>
              (⟨name, usage, path, token.span code.line⟩ : Occurrence)) ∘
            fun (token, position) => (token, position + 1)) = [] := by
        rw [List.filterMap_eq_nil_iff]
        rintro ⟨token, position⟩ hmem
        have hpos : position ≠ 0 := by
          have hle := List.le_snd_of_mem_zipIdx hmem
          simp only at hle
          omega
        simp [usageAt?, hpos]
      rw [List.zipIdx_cons, Nat.zero_add, List.filterMap_cons, hothers]
      simp only [List.head?_cons, Function.comp_apply, usageAt?, name?]
      cases subroutineUsage? vocabulary code with
      | none => rfl
      | some usage => cases hname : subroutineName? argument.text <;> simp [hname]

end SymbolKind

namespace Include

/-- The site of a location: the position of the token with its columns on its line, in the visit of
its file. -/
def siteOf? (visits : List Visit) (location : Location) : Option Site := do
  let visit ← visits.find? (·.path = location.path)
  let code ← visit.lines.find? (·.line = location.span.line)
  let position ← code.tokens.findIdx? (·.span code.line = location.span)
  return ⟨visit.path, code.line, position⟩

/-- In a list in which a view tells the members apart, a member is found by its view. -/
theorem find?_eq_some_of_pairwise {α β : Type} [DecidableEq β] {members : List α} {view : α → β}
    (h : members.Pairwise fun left right => view left ≠ view right) {member : α}
    (hmem : member ∈ members) : members.find? (view · = view member) = some member := by
  induction h with
  | nil => cases hmem
  | @cons first others hfirst hothers ih =>
    rw [List.find?_cons]
    rcases List.mem_cons.1 hmem with rfl | hlater
    · simp
    · have hne : decide (view first = view member) = false :=
        decide_eq_false (hfirst member hlater)
      rw [hne]
      exact ih hlater

/-- The site of the columns of a token is the position of the token. -/
theorem siteOf?_eq_some {visits : List Visit} {visit : Visit} {text : Text} {code : CodeLine}
    {token : Token} {position : Nat}
    (hpaths : visits.Pairwise fun left right => left.path ≠ right.path) (hvisit : visit ∈ visits)
    (hlines : visit.lines = codeLines text) (hcode : code ∈ visit.lines)
    (htoken : (token, position) ∈ code.tokens.zipIdx) :
    siteOf? visits ⟨visit.path, token.span code.line⟩ =
      some ⟨visit.path, code.line, position⟩ := by
  have hfind : visits.find? (·.path = visit.path) = some visit :=
    find?_eq_some_of_pairwise hpaths hvisit
  have hline : visit.lines.find? (·.line = code.line) = some code := by
    refine find?_eq_some_of_pairwise ?_ hcode
    rw [hlines]
    exact (pairwise_codeLines text).imp Nat.ne_of_lt
  have hget : code.tokens[position]? = some token := List.mem_zipIdx_iff_getElem?.1 htoken
  have hposition : code.tokens.findIdx? (·.span code.line = token.span code.line) =
      some position := by
    obtain ⟨hlt, heq⟩ := List.getElem?_eq_some_iff.1 hget
    rw [List.findIdx?_eq_some_iff_getElem]
    refine ⟨hlt, by rw [heq]; simp, ?_⟩
    intro earlier hearlier
    -- An earlier token ends before this one starts.
    have hcode' : code ∈ codeLines text := hlines ▸ hcode
    have hapart := List.pairwise_iff_getElem.1 (CodeLine.pairwise_tokens hcode') earlier position
      (by omega) hlt hearlier
    have hstart := CodeLine.start_lt_stop hcode' (List.getElem_mem (by omega : earlier < _))
    rw [heq] at hapart
    simp only [Token.span, Span.mk.injEq, true_and, decide_eq_true_eq, not_and]
    omega
  show ((visits.find? (·.path = visit.path)).bind fun found =>
    (found.lines.find? (·.line = code.line)).bind fun line =>
      (line.tokens.findIdx? (·.span line.line = token.span code.line)).bind fun position =>
        some (⟨found.path, line.line, position⟩ : Site)) = _
  rw [hfind, Option.bind_some, hline, Option.bind_some, hposition, Option.bind_some]

end Include

namespace SymbolKind

variable (kind : SymbolKind) (vocabulary : Vocabulary)

/-- The occurrences in some scripts are sightings, one by one. -/
theorem map_siteOf?_occurrences {visits : List Visit}
    (hpaths : visits.Pairwise fun left right => left.path ≠ right.path)
    (hlines : ∀ visit ∈ visits, ∃ text, visit.lines = codeLines text) :
    ((kind.occurrencesIn vocabulary visits).map fun found =>
        (found.name, found.usage, Include.siteOf? visits found.location)) =
      (kind.sightingsIn vocabulary visits).map fun sighting =>
        (sighting.name, sighting.usage, some sighting.site) := by
  rw [occurrencesIn, sightingsIn, List.map_flatMap, List.map_flatMap]
  apply List.flatMap_congr
  intro visit hvisit
  rw [List.map_flatMap, List.map_flatMap]
  apply List.flatMap_congr
  intro code hcode
  rw [occurrences_eq, sightings, List.map_filterMap, List.map_filterMap]
  apply List.filterMap_congr
  rintro ⟨token, position⟩ htoken
  obtain ⟨text, htext⟩ := hlines visit hvisit
  have hsite := Include.siteOf?_eq_some hpaths hvisit htext hcode htoken
  dsimp only
  cases kind.usageAt? vocabulary code position with
  | none => rfl
  | some usage =>
    cases kind.name? token.text with
    | none => rfl
    | some name =>
      show some (name, usage, _) = some (name, usage, _)
      rw [hsite]

/-- The sites of the occurrences with a usage and one of certain names. -/
theorem map_siteOf?_filter {visits : List Visit}
    (hpaths : visits.Pairwise fun left right => left.path ≠ right.path)
    (hlines : ∀ visit ∈ visits, ∃ text, visit.lines = codeLines text)
    (wanted : Usage → Text → Bool) :
    (((kind.occurrencesIn vocabulary visits).filter fun found =>
        wanted found.usage found.name).map fun found => Include.siteOf? visits found.location) =
      ((kind.sightingsIn vocabulary visits).filter fun sighting =>
        wanted sighting.usage sighting.name).map fun sighting => some sighting.site := by
  have hmap := map_siteOf?_occurrences kind vocabulary hpaths hlines
  -- A filter on names and usages can be read from the triples on both sides.
  have hfilter := congrArg (fun triples : List (Text × Usage × Option Site) =>
    (triples.filter fun triple => wanted triple.2.1 triple.1).map fun triple => triple.2.2) hmap
  simpa [List.filter_map, Function.comp_def] using hfilter

end SymbolKind

end ScriptAnalysis
