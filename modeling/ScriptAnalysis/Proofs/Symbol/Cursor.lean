import ScriptAnalysis.Include.Link
import ScriptAnalysis.Proofs.Symbol.Listing
import ScriptAnalysis.Proofs.Token.Columns

/-!
# What is under the cursor

The symbol or the include link at a column is looked up on one line alone, whereas an index and the
list of links are made from the whole script. Both tell the same: what is found under the cursor is
what is listed there. Two listed symbols never share a column, and the root of a walk is visited
once, so that there is nothing to choose from.

* `Span.Holds`: whether a place holds the cursor.
* `SymbolKind.tokenAt?_eq_some_iff`: the token under the cursor that may name a symbol.
* `SymbolKind.mention?_eq_some_iff`, `SymbolIndex.lists_index_iff`: both sides by the mentions of
  the script.
* `Include.linkAt?_eq_some_iff`: the link under the cursor.
* `cursor_agrees_with_lists`: the three look-ups together.
-/

namespace ScriptAnalysis

/-- Whether a place holds column `column` of line number `line`. -/
def Span.Holds (span : Span) (line column : Nat) : Prop :=
  span.line = line ∧ span.start ≤ column ∧ column < span.stop

/-- The place of a token holds the columns of its line that the token covers. -/
theorem Token.holds_span_iff {token : Token} {number line column : Nat} :
    (token.span number).Holds line column ↔ number = line ∧ token.covers column = true := by
  rw [covers_iff]
  exact Iff.rfl

/-- Whether an index lists a mention in the file `path`, as a definition or as a reference. Paths
are compared by their parts. -/
def SymbolIndex.Lists (index : SymbolIndex) (path : Path) (mention : Mention) : Prop :=
  ∃ location ∈ index.definitionsOf mention.name ++ index.referencesOf mention.name,
    location.path.parts = path.parts ∧ location.span = mention.span

variable {fs : FileSystem} {vocabulary : Vocabulary} {path : Path} {text raw : Text}
  {line column : Nat}

/-! ## The token under the cursor -/

/-- No two code tokens of a line share a column. -/
theorem eq_of_mem_codeTokens_of_covers {left right : Token} (hleft : left ∈ codeTokens raw)
    (hright : right ∈ codeTokens raw) (hcovers : left.covers column = true)
    (hcovers' : right.covers column = true) : left = right := by
  have hdivision := Token.isDivision_scan raw
  have hrun := hdivision.isRun_of_mem (mem_scan_of_mem_codeTokens hleft)
  have hrun' := hdivision.isRun_of_mem (mem_scan_of_mem_codeTokens hright)
  exact hrun.eq_of_covers hrun' hcovers hcovers'

namespace SymbolKind

/-- Only the first argument of a definition or a call may name a subroutine. -/
theorem tokenAt?_subroutine_eq_some_iff {code : CodeLine} {token : Token} :
    subroutine.tokenAt? vocabulary code column = some token ↔
      ∃ position, (token, position) ∈ code.tokens.zipIdx ∧
        (subroutine.usageAt? vocabulary code position).isSome = true ∧
        token.covers column = true := by
  have hfirst : code.tokens[1]? = code.argument? := by
    rw [CodeLine.tokens, List.getElem?_cons_succ, CodeLine.argument?, List.head?_eq_getElem?]
  constructor
  · intro h
    rw [tokenAt?] at h
    cases husage : subroutineUsage? vocabulary code with
    | none =>
      rw [husage] at h
      cases h
    | some usage =>
      rw [husage] at h
      obtain ⟨hargument, hcovers⟩ := Option.filter_eq_some_iff.1 h
      refine ⟨1, List.mem_zipIdx_iff_getElem?.2 (hfirst.trans hargument), ?_, hcovers⟩
      simp [usageAt?, husage]
  · rintro ⟨position, htoken, husage, hcovers⟩
    -- A token at another place has no usage.
    obtain rfl : position = 1 := by
      by_contra hne
      cases position with
      | zero => cases husage
      | succ position =>
        rw [usageAt?, if_neg (by omega)] at husage
        cases husage
    have hargument := hfirst.symm.trans (List.mem_zipIdx_iff_getElem?.1 htoken)
    obtain ⟨usage, husage⟩ := Option.isSome_iff_exists.1 husage
    rw [usageAt?, if_pos rfl] at husage
    rw [tokenAt?, husage]
    exact Option.filter_eq_some_iff.2 ⟨hargument, hcovers⟩

/-- Every token behind the command may name a variable. -/
theorem tokenAt?_var_eq_some_iff {code : CodeLine} {token : Token}
    (hcode : CodeLine.ofLine? line raw = some code)
    (hcommand : code.command.covers column = false) :
    var.tokenAt? vocabulary code column = some token ↔
      ∃ position, (token, position) ∈ code.tokens.zipIdx ∧
        (var.usageAt? vocabulary code position).isSome = true ∧ token.covers column = true := by
  have htokens : code.tokens = codeTokens raw := (CodeLine.ofTokens?_eq_some_iff.1 hcode).2
  constructor
  · intro h
    rw [tokenAt?] at h
    have hcovers : token.covers column = true := by simpa using List.find?_some h
    obtain ⟨position, hposition⟩ := List.mem_iff_getElem?.1 (List.mem_of_find?_eq_some h)
    refine ⟨position, List.mem_zipIdx_iff_getElem?.2 hposition, ?_, hcovers⟩
    cases position with
    | zero =>
      -- The first token is the command, which is not under the cursor.
      cases hposition
      rw [hcommand] at hcovers
      cases hcovers
    | succ position =>
      rw [usageAt?]
      split <;> rfl
  · rintro ⟨position, htoken, -, hcovers⟩
    have hmem : token ∈ code.tokens := List.fst_mem_of_mem_zipIdx htoken
    have hsome : (code.tokens.find? (·.covers column)).isSome = true :=
      List.find?_isSome.2 ⟨token, hmem, hcovers⟩
    obtain ⟨found, hfound⟩ := Option.isSome_iff_exists.1 hsome
    rw [tokenAt?, hfound, Option.some.injEq]
    have hother : found.covers column = true := by simpa using List.find?_some hfound
    have hfound' : found ∈ code.tokens := List.mem_of_find?_eq_some hfound
    rw [htokens] at hmem hfound'
    exact eq_of_mem_codeTokens_of_covers hfound' hmem hother hcovers

/-- The token under the cursor that may name a symbol, if for a variable the cursor is not on the
command. -/
theorem tokenAt?_eq_some_iff {kind : SymbolKind} {code : CodeLine} {token : Token}
    (hcode : CodeLine.ofLine? line raw = some code)
    (hcommand : kind = var → ∀ command ∈ (codeTokens raw).head?, command.covers column = false) :
    kind.tokenAt? vocabulary code column = some token ↔
      ∃ position, (token, position) ∈ code.tokens.zipIdx ∧
        (kind.usageAt? vocabulary code position).isSome = true ∧ token.covers column = true := by
  cases kind with
  | subroutine => exact tokenAt?_subroutine_eq_some_iff
  | var =>
    refine tokenAt?_var_eq_some_iff hcode (hcommand rfl code.command ?_)
    rw [← (CodeLine.ofTokens?_eq_some_iff.1 hcode).2]
    rfl

/-! ## The symbol under the cursor -/

/-- The symbol under the cursor is the one that the script mentions there. -/
theorem mention?_eq_some_iff {kind : SymbolKind} {mention : Mention}
    (hline : (Text.lines text)[line]? = some raw)
    (hcommand : kind = var → ∀ command ∈ (codeTokens raw).head?, command.covers column = false) :
    kind.mention? vocabulary raw line column = some mention ↔
      kind.Mentions vocabulary mention.name (codeLines text) mention.span ∧
        mention.span.Holds line column := by
  constructor
  · intro h
    obtain ⟨code, hcode, h⟩ := Option.bind_eq_some_iff.1 h
    obtain ⟨token, htoken, h⟩ := Option.bind_eq_some_iff.1 h
    obtain ⟨name, hname, h⟩ := Option.bind_eq_some_iff.1 h
    cases h
    obtain ⟨position, hposition, husage, hcovers⟩ := (tokenAt?_eq_some_iff hcode hcommand).1 htoken
    obtain ⟨hmem, hnumber⟩ := (ofLine?_eq_some_iff_mem_codeLines hline).1 hcode
    refine ⟨⟨code, hmem, token, position, hposition, ⟨husage, hname⟩, ?_⟩,
      Token.holds_span_iff.2 ⟨rfl, hcovers⟩⟩
    rw [hnumber]
  · rintro ⟨⟨code, hmem, token, position, hposition, ⟨husage, hname⟩, hspan⟩, hholds⟩
    rw [hspan, Token.holds_span_iff] at hholds
    obtain ⟨hnumber, hcovers⟩ := hholds
    have hcode := (ofLine?_eq_some_iff_mem_codeLines hline).2 ⟨hmem, hnumber⟩
    have htoken : kind.tokenAt? vocabulary code column = some token :=
      (tokenAt?_eq_some_iff hcode hcommand).2 ⟨position, hposition, husage, hcovers⟩
    rw [mention?, hcode]
    simp only [Option.bind_eq_bind, Option.bind_some, htoken, hname]
    rw [← hnumber, ← hspan]
    rfl

end SymbolKind

/-- In the file of the root, whose text is in memory, an index lists what the text mentions. -/
theorem SymbolIndex.lists_index_iff {kind : SymbolKind} {mention : Mention}
    (hslash : ¬['/'] <:+ path.spelling) (hdot : ¬['/', '.'] <:+ path.spelling) :
    (kind.index fs vocabulary path (some text)).Lists path mention ↔
      kind.Mentions vocabulary mention.name (codeLines text) mention.span := by
  have hpairs : (Include.walk fs vocabulary path (some text)).Pairwise fun left right =>
      left.path.parts ≠ right.path.parts := Include.pairwise_walk hslash hdot (some text)
  rw [Include.walk, List.pairwise_cons] at hpairs
  have hholds := kind.holds_index fs vocabulary path (some text)
  constructor
  · rintro ⟨location, hlocation, hparts, hspan⟩
    rw [hholds.mem_places_iff, SymbolKind.exists_occurrence_iff] at hlocation
    obtain ⟨visit, hvisit, hpath, hmentions⟩ := hlocation
    rw [hspan] at hmentions
    rcases List.mem_cons.1 hvisit with rfl | hlater
    · exact hmentions
    · -- Another visit with the parts of the root would be a second visit of the root.
      exact absurd (hparts.symm.trans (congrArg Path.parts hpath.symm)) (hpairs.1 visit hlater)
  · intro hmentions
    refine ⟨⟨path, mention.span⟩, ?_, rfl, rfl⟩
    rw [hholds.mem_places_iff, SymbolKind.exists_occurrence_iff]
    exact ⟨Visit.ofText path text, List.mem_cons_self, rfl, hmentions⟩

/-! ## The link under the cursor -/

/-- The link under the cursor is the one that is listed there. -/
theorem Include.linkAt?_eq_some_iff {link : IncludeLink}
    (hline : (Text.lines text)[line]? = some raw) :
    linkAt? fs vocabulary path raw line column = some link ↔
      link ∈ links fs vocabulary path text ∧ link.span.Holds line column := by
  -- A link is at the first argument of its line.
  have hspan {code : CodeLine} (h : link? fs vocabulary path code = some link) :
      ∃ argument, code.argument? = some argument ∧ link.span = argument.span code.line := by
    obtain ⟨target, -, h⟩ := Option.bind_eq_some_iff.1 h
    obtain ⟨argument, hargument, h⟩ := Option.bind_eq_some_iff.1 h
    cases h
    exact ⟨argument, hargument, rfl⟩
  constructor
  · intro h
    obtain ⟨code, hcode, h⟩ := Option.bind_eq_some_iff.1 h
    obtain ⟨argument, hargument, h⟩ := Option.bind_eq_some_iff.1 h
    obtain ⟨⟨⟩, hguard, hlink⟩ := Option.bind_eq_some_iff.1 h
    have hcovers : argument.covers column = true := by
      by_contra hnot
      rw [guard, if_neg hnot] at hguard
      cases hguard
    obtain ⟨hmem, hnumber⟩ := (ofLine?_eq_some_iff_mem_codeLines hline).1 hcode
    refine ⟨List.mem_filterMap.2 ⟨code, hmem, hlink⟩, ?_⟩
    obtain ⟨other, hother, hplace⟩ := hspan hlink
    rw [hargument] at hother
    cases hother
    rw [hplace, Token.holds_span_iff]
    exact ⟨hnumber, hcovers⟩
  · rintro ⟨hlink, hholds⟩
    obtain ⟨code, hmem, hlink⟩ := List.mem_filterMap.1 hlink
    obtain ⟨argument, hargument, hplace⟩ := hspan hlink
    rw [hplace, Token.holds_span_iff] at hholds
    obtain ⟨hnumber, hcovers⟩ := hholds
    have hcode := (ofLine?_eq_some_iff_mem_codeLines hline).2 ⟨hmem, hnumber⟩
    exact Option.bind_eq_some_iff.2 ⟨code, hcode, Option.bind_eq_some_iff.2 ⟨argument, hargument,
      Option.bind_eq_some_iff.2 ⟨(), if_pos hcovers, hlink⟩⟩⟩

/-- What is found under the cursor is what is listed there: a subroutine or a variable in the index
of the script, a link among the links of the script. For a variable the cursor must not be on the
command, which an index does not look at. -/
theorem cursor_agrees_with_lists (fs : FileSystem) (vocabulary : Vocabulary) (path : Path)
    (text : Text) (hslash : ¬['/'] <:+ path.spelling) (hdot : ¬['/', '.'] <:+ path.spelling)
    (line column : Nat) (raw : Text) (hline : (Text.lines text)[line]? = some raw) :
    (∀ mention, SymbolKind.subroutine.mention? vocabulary raw line column = some mention ↔
      (SymbolKind.subroutine.index fs vocabulary path (some text)).Lists path mention ∧
        mention.span.Holds line column) ∧
    ((∀ command ∈ (codeTokens raw).head?, command.covers column = false) →
      ∀ mention, SymbolKind.var.mention? vocabulary raw line column = some mention ↔
        (SymbolKind.var.index fs vocabulary path (some text)).Lists path mention ∧
          mention.span.Holds line column) ∧
    (∀ link, Include.linkAt? fs vocabulary path raw line column = some link ↔
      link ∈ Include.links fs vocabulary path text ∧ link.span.Holds line column) := by
  refine ⟨fun mention => ?_, fun hcommand mention => ?_, fun link => ?_⟩
  · rw [SymbolIndex.lists_index_iff hslash hdot]
    exact SymbolKind.mention?_eq_some_iff hline nofun
  · rw [SymbolIndex.lists_index_iff hslash hdot]
    exact SymbolKind.mention?_eq_some_iff hline fun _ => hcommand
  · exact Include.linkAt?_eq_some_iff hline

/-- What the sample text lists where the cursor finds it: the call on its second line, the second
variable on its third, and the link on its first. -/
theorem cursor_agrees_with_lists_sample :
    let root : Path := ⟨"main.osc".toList⟩
    let text := SymbolKind.listingText
    ¬['/'] <:+ root.spelling ∧ ¬['/', '.'] <:+ root.spelling ∧
    (Text.lines text)[1]? = some "gosub run".toList ∧
    (SymbolKind.subroutine.index SymbolKind.listingDisk .standard root (some text)).Lists root
      ⟨"run".toList, ⟨1, 6, 9⟩⟩ ∧
    (∀ command ∈ (codeTokens "seti $x $x".toList).head?, command.covers 8 = false) ∧
    (SymbolKind.var.index SymbolKind.listingDisk .standard root (some text)).Lists root
      ⟨"x".toList, ⟨2, 8, 10⟩⟩ ∧
    ⟨⟨0, 8, 11⟩, ⟨"lib.osc".toList⟩⟩ ∈
      Include.links SymbolKind.listingDisk .standard root text := by
  intro root text
  have hslash : ¬['/'] <:+ root.spelling := by decide +kernel
  have hdot : ¬['/', '.'] <:+ root.spelling := by decide +kernel
  have hcommand : ∀ command ∈ (codeTokens "seti $x $x".toList).head?,
      command.covers 8 = false := by decide +kernel
  have hagrees := cursor_agrees_with_lists SymbolKind.listingDisk .standard root text hslash hdot
  have hcall := (hagrees 1 7 "gosub run".toList (by decide +kernel)).1
  have hvar := (hagrees 2 8 "seti $x $x".toList (by decide +kernel)).2.1 hcommand
  have hlink := (hagrees 0 10 "include lib".toList (by decide +kernel)).2.2
  exact ⟨hslash, hdot, by decide +kernel, ((hcall _).1 (by decide +kernel)).1, hcommand,
    ((hvar _).1 (by decide +kernel)).1, ((hlink _).1 (by decide +kernel)).1⟩

end ScriptAnalysis
