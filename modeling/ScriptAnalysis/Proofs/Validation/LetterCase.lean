import ScriptAnalysis.Proofs.Outline.Items
import ScriptAnalysis.Proofs.Symbol.Sites
import ScriptAnalysis.Proofs.Token.LetterCase
import ScriptAnalysis.Proofs.Validation.Places
import ScriptAnalysis.Proofs.Validation.Reading

/-!
# Analyses and the case of letters

Commands and names are compared in lower case, so that the case of ASCII letters matters to an
analysis in two ways only: the argument of an include is a path, and a validation repeats unknown
commands as they are written and remarks on commands in mixed case. Apart from these, texts with the
same folded letters have the same symbols, the same outline and the same diagnostics.

* `Recased`: texts that differ in the case of letters, and not in the arguments of includes.
* `SymbolKind.index_eq_of_recased`: their indexes.
* `outline_fold`: the outline of a folded text.
* `Blocks.scan_fold`: the scan of folded instructions.
* `analyses_eq_of_recased`: what the analyses of two such texts have in common.
-/

namespace ScriptAnalysis

/-- Whether two texts differ only in the case of ASCII letters, and not in the first argument of a
line with an include command. -/
structure Recased (vocabulary : Vocabulary) (text text' : Text) : Prop where
  /-- The letters are the same, whatever their case is. -/
  fold_eq : Text.fold text' = Text.fold text
  /-- The arguments of includes are the same. -/
  argument_eq : ∀ code ∈ codeLines text, ∀ code' ∈ codeLines text', code'.line = code.line →
    vocabulary.isInclude code.commandName = true → code'.argument? = code.argument?

/-- Lists with the same view are filtered to the same list by what is the same for members with the
same view. -/
theorem filterMap_eq_of_map_eq {α β γ : Type} {view : α → β} {choose : α → Option γ}
    {members members' : List α} (hview : members'.map view = members.map view)
    (h : ∀ member ∈ members, ∀ member' ∈ members', view member' = view member →
      choose member' = choose member) :
    members'.filterMap choose = members.filterMap choose := by
  induction members generalizing members' with
  | nil => rw [List.map_eq_nil_iff.1 hview]
  | cons member others ih =>
    obtain ⟨member', others', rfl, hfirst, hothers⟩ := List.map_eq_cons_iff.1 hview
    have hchoose : choose member' = choose member := h _ (by simp) _ (by simp) hfirst
    rw [List.filterMap_cons, List.filterMap_cons, hchoose,
      ih hothers fun left hleft right hright => h left (by simp [hleft]) right (by simp [hright])]

/-! ## Symbols -/

section Symbols

variable {fs : FileSystem} {vocabulary : Vocabulary} {path : Path} {text text' : Text}

/-- The name of a symbol does not depend on the case of its letters. -/
theorem SymbolKind.name?_fold (kind : SymbolKind) (text : Text) :
    kind.name? (Text.fold text) = kind.name? text := by
  cases kind <;> simp only [name?, subroutineName?, variableName?, Text.lowercase_fold]

/-- A line with its letters folded has the same symbols in the same places. -/
theorem SymbolKind.occurrences_fold (kind : SymbolKind) (vocabulary : Vocabulary) (path : Path)
    (code : CodeLine) :
    kind.occurrences vocabulary path code.fold = kind.occurrences vocabulary path code := by
  rw [occurrences_eq, occurrences_eq, CodeLine.tokens_fold, List.zipIdx_map, List.filterMap_map]
  refine List.filterMap_congr fun (token, position) _ => ?_
  rw [Function.comp_apply]
  simp only [Prod.map_apply, id_eq, usageAt?_congr kind vocabulary (CodeLine.commandName_fold code)]
  exact congrArg _ (funext fun usage => congrArg (Option.map _) (kind.name?_fold token.text))

/-- The lines of recased texts include the same scripts. -/
theorem Recased.targets_eq (h : Recased vocabulary text text') :
    Include.targets fs vocabulary (.ofText path text') =
      Include.targets fs vocabulary (.ofText path text) := by
  have hview : (codeLines text').map CodeLine.fold = (codeLines text).map CodeLine.fold := by
    rw [← codeLines_fold, ← codeLines_fold, h.fold_eq]
  refine filterMap_eq_of_map_eq hview fun code hcode code' hcode' hfold => ?_
  have hline : code'.line = code.line := by
    rw [← CodeLine.line_fold, hfold, CodeLine.line_fold]
  have hname : code'.commandName = code.commandName := by
    rw [← CodeLine.commandName_fold, hfold, CodeLine.commandName_fold]
  -- Of a line of code, only the argument of an include is read as it is written.
  rw [Include.target?, Include.target?, hname]
  split
  · next hinclude => rw [h.argument_eq code hcode code' hcode' hline hinclude]
  · rfl

/-- Recased texts have the same symbols. -/
theorem SymbolKind.index_eq_of_recased (kind : SymbolKind) (h : Recased vocabulary text text') :
    kind.index fs vocabulary path (some text') = kind.index fs vocabulary path (some text) := by
  have hfold (text : Text) :
      (codeLines (Text.fold text)).flatMap (kind.occurrences vocabulary path) =
        (codeLines text).flatMap (kind.occurrences vocabulary path) := by
    rw [codeLines_fold, List.flatMap_map]
    exact congrArg (List.flatMap · _) (funext (kind.occurrences_fold vocabulary path))
  have hlines : (codeLines text').flatMap (kind.occurrences vocabulary path) =
      (codeLines text).flatMap (kind.occurrences vocabulary path) := by
    rw [← hfold text', h.fold_eq, hfold text]
  -- The walk goes on from the same targets, and what it visits there is read from the disk.
  rw [index, index, indexOf_eq_ofOccurrences, indexOf_eq_ofOccurrences]
  simp only [occurrencesIn, Include.walk, h.targets_eq, List.flatMap_cons]
  exact congrArg (fun found => SymbolIndex.ofOccurrences (found ++ _)) hlines

end Symbols

/-! ## The outline -/

/-- The entry with the letters of its name folded. -/
def OutlineEntry.fold (entry : OutlineEntry) : OutlineEntry :=
  { entry with name := Text.fold entry.name }

namespace Outline

/-- The subroutines found so far with the letters of their names folded. -/
def fold (found : Outline) : Outline :=
  ⟨found.closed.map OutlineEntry.fold, found.opened.map OutlineEntry.fold⟩

/-- A folded line does to folded subroutines what the line does to the subroutines. -/
theorem step_fold (vocabulary : Vocabulary) (found : Outline) (code : CodeLine) :
    found.fold.step vocabulary code.fold = (found.step vocabulary code).fold := by
  simp only [step, CodeLine.commandName_fold, CodeLine.argument?_fold, CodeLine.line_fold]
  split
  · cases code.argument? <;> rfl
  · split
    · obtain ⟨closed, opened⟩ := found
      cases opened with
      | nil => rfl
      | cons entry others => simp [fold, OutlineEntry.fold]
    · rfl

/-- Folded lines lead to the folded subroutines. -/
theorem foldl_step_fold (vocabulary : Vocabulary) (found : Outline) (codes : List CodeLine) :
    (codes.map CodeLine.fold).foldl (step vocabulary) found.fold =
      (codes.foldl (step vocabulary) found).fold := by
  induction codes generalizing found with
  | nil => rfl
  | cons code rest ih => rw [List.map_cons, List.foldl_cons, List.foldl_cons, step_fold, ih]

theorem entries_fold (found : Outline) :
    found.fold.entries = found.entries.map OutlineEntry.fold := by
  rw [entries, entries, List.map_append, List.map_reverse]
  rfl

end Outline

/-- The outline of a folded text has the folded names. -/
theorem outline_fold (vocabulary : Vocabulary) (text : Text) :
    outline vocabulary (Text.fold text) = (outline vocabulary text).map OutlineEntry.fold := by
  have hempty : Outline.empty.fold = .empty := rfl
  have hfound := Outline.foldl_step_fold vocabulary .empty (codeLines text)
  rw [hempty] at hfound
  rw [outline, outline, codeLines_fold, hfound, Outline.entries_fold]
  -- Sorting does not look at the names.
  symm
  apply List.map_mergeSort
  exact fun _ _ _ _ => rfl

/-! ## Diagnostics -/

/-- What is left of a diagnostic when the case of letters does not matter: nothing of a remark on
the case of a command, and an unknown command with its letters folded. -/
def Diagnostic.caseless? (diagnostic : Diagnostic) : Option Diagnostic :=
  match diagnostic.problem with
  | .mixedCaseCommand _ => none
  | .unknownCommand command =>
    some { diagnostic with problem := .unknownCommand (Text.fold command) }
  | _ => some diagnostic

namespace Instruction

variable {fs : FileSystem} {vocabulary : Vocabulary} {path : Path}

/-- A folded instruction has the same problems by itself, apart from the case of its command. -/
theorem remarks_fold (vocabulary : Vocabulary) (instruction : Instruction) :
    (instruction.fold.remarks vocabulary).filterMap Diagnostic.caseless? =
      (instruction.remarks vocabulary).filterMap Diagnostic.caseless? := by
  -- A remark on the case of a command is left out.
  have hmixed (span : Span) (command : Text) :
      (if isMixedCase command then [Diagnostic.report span (.mixedCaseCommand command)]
      else []).filterMap Diagnostic.caseless? = [] := by
    split <;> rfl
  simp only [remarks, List.filterMap_append, hmixed, name_fold, commandSpan_fold]
  refine congrArg₂ (· ++ ·) rfl ?_
  split
  · simp [fold]
  · simp [Diagnostic.caseless?, Diagnostic.report, fold, Token.fold]

/-- A folded instruction defines the same subroutine. -/
theorem defined?_fold (vocabulary : Vocabulary) (instruction : Instruction) :
    instruction.fold.defined? vocabulary = instruction.defined? vocabulary := by
  rw [defined?, defined?, name_fold]
  cases hargument : instruction.argument <;> simp [fold, hargument, Token.fold]

/-- A folded instruction calls the same subroutine in the same place. -/
theorem unknownCall?_fold (vocabulary : Vocabulary) (visible : List Text)
    (instruction : Instruction) :
    instruction.fold.unknownCall? vocabulary visible =
      instruction.unknownCall? vocabulary visible := by
  rw [unknownCall?, unknownCall?, name_fold]
  cases hargument : instruction.argument <;> simp [fold, hargument, Token.fold, Token.span]

section Includes

variable {instruction instruction' : Instruction} (hfold : instruction'.fold = instruction.fold)
  (hargument : vocabulary.isInclude instruction.name = true →
    instruction'.argument = instruction.argument)

include hfold hargument

/-- Instructions with the same letters include the same script, if it is written in the same way. -/
theorem included?_eq :
    instruction'.included? fs vocabulary path = instruction.included? fs vocabulary path := by
  rw [included?, included?, ← name_fold, hfold, name_fold]
  split
  · next hinclude => rw [includeText, includeText, hargument hinclude]
  · rfl

/-- They also have the same problem with it. -/
theorem missingInclude?_eq :
    instruction'.missingInclude? fs vocabulary path =
      instruction.missingInclude? fs vocabulary path := by
  have hspan : instruction'.commandSpan = instruction.commandSpan := by
    rw [← commandSpan_fold, hfold, commandSpan_fold]
  have hline : instruction'.line = instruction.line := by
    rw [← line_fold, hfold, line_fold]
  rw [missingInclude?, missingInclude?, ← name_fold, hfold, name_fold]
  split
  · next hinclude => rw [includeText, includeText, hargument hinclude, hspan, hline]
  · rfl

end Includes

end Instruction

namespace Blocks

/-- Among the open blocks, a folded instruction does the same. -/
theorem step_fold (vocabulary : Vocabulary) (blocks : List OpenBlock) (instruction : Instruction) :
    step vocabulary blocks instruction.fold = step vocabulary blocks instruction := by
  simp only [step, Instruction.name_fold, Instruction.commandSpan_fold]

/-- Folded instructions leave the same blocks open, and have the same problems apart from the case
of their commands. -/
theorem scan_fold (vocabulary : Vocabulary) (blocks : List OpenBlock)
    (instructions : List Instruction) :
    (scan vocabulary blocks (instructions.map Instruction.fold)).1.filterMap Diagnostic.caseless? =
        (scan vocabulary blocks instructions).1.filterMap Diagnostic.caseless? ∧
      (scan vocabulary blocks (instructions.map Instruction.fold)).2 =
        (scan vocabulary blocks instructions).2 := by
  induction instructions generalizing blocks with
  | nil => exact ⟨rfl, rfl⟩
  | cons instruction rest ih =>
    obtain ⟨hlater, hlast⟩ := ih (step vocabulary blocks instruction).1
    simp only [List.map_cons, scan, step_fold, List.filterMap_append, Instruction.remarks_fold,
      hlater, hlast, and_self]

end Blocks

/-! ## Instructions with the same letters -/

namespace Instruction

/-- Whether instructions differ only in the case of letters, and not in the arguments of
includes. -/
structure Recased (vocabulary : Vocabulary) (instructions instructions' : List Instruction) :
    Prop where
  /-- The letters are the same, whatever their case is. -/
  fold_eq : instructions'.map fold = instructions.map fold
  /-- The arguments of includes are the same. -/
  argument_eq : ∀ instruction ∈ instructions, ∀ instruction' ∈ instructions',
    instruction'.fold = instruction.fold → vocabulary.isInclude instruction.name = true →
    instruction'.argument = instruction.argument

namespace Recased

variable {fs : FileSystem} {vocabulary : Vocabulary} {path : Path}
  {instructions instructions' : List Instruction}

/-- The instructions with known commands are recased too. -/
theorem filter_isKnown (h : Recased vocabulary instructions instructions') :
    Recased vocabulary
      (instructions.filter fun instruction => vocabulary.isKnown instruction.name)
      (instructions'.filter fun instruction => vocabulary.isKnown instruction.name) := by
  have hcommute (members : List Instruction) :
      (members.filter fun instruction => vocabulary.isKnown instruction.name).map fold =
        (members.map fold).filter fun instruction => vocabulary.isKnown instruction.name := by
    simp only [List.filter_map, Function.comp_def, name_fold]
  refine ⟨by rw [hcommute, hcommute, h.fold_eq], fun instruction hmem instruction' hmem' => ?_⟩
  exact h.argument_eq _ (List.mem_of_mem_filter hmem) _ (List.mem_of_mem_filter hmem')

/-- What an instruction and its folded form have in common is the same for recased instructions. -/
theorem filterMap_eq_of_fold {γ : Type} {choose : Instruction → Option γ}
    (h : Recased vocabulary instructions instructions')
    (hchoose : ∀ instruction, choose (fold instruction) = choose instruction) :
    instructions'.filterMap choose = instructions.filterMap choose := by
  refine filterMap_eq_of_map_eq h.fold_eq fun instruction _ instruction' _ hfold => ?_
  rw [← hchoose, hfold, hchoose]

/-- The same subroutines are visible. -/
theorem visibleSubroutines_eq (h : Recased vocabulary instructions instructions') :
    visibleSubroutines fs vocabulary path instructions' =
      visibleSubroutines fs vocabulary path instructions := by
  rw [visibleSubroutines, visibleSubroutines, h.filterMap_eq_of_fold (defined?_fold vocabulary),
    filterMap_eq_of_map_eq h.fold_eq fun instruction hmem instruction' hmem' hfold =>
      included?_eq hfold (h.argument_eq instruction hmem instruction' hmem' hfold)]

/-- The diagnostics are the same, apart from the case of commands. -/
theorem diagnose_eq (h : Recased vocabulary instructions instructions') :
    (diagnose fs vocabulary path instructions').filterMap Diagnostic.caseless? =
      (diagnose fs vocabulary path instructions).filterMap Diagnostic.caseless? := by
  -- Both scans are compared with that of the folded instructions.
  obtain ⟨hfound, hblocks⟩ := Blocks.scan_fold vocabulary [] instructions
  obtain ⟨hfound', hblocks'⟩ := Blocks.scan_fold vocabulary [] instructions'
  rw [h.fold_eq] at hfound' hblocks'
  have hknown := h.filter_isKnown
  simp only [diagnose, List.filterMap_append, ← hfound, ← hfound', ← hblocks, ← hblocks',
    hknown.visibleSubroutines_eq, hknown.filterMap_eq_of_fold (unknownCall?_fold vocabulary _)]
  rw [filterMap_eq_of_map_eq hknown.fold_eq fun instruction hmem instruction' hmem' hfold =>
    missingInclude?_eq hfold (hknown.argument_eq instruction hmem instruction' hmem' hfold)]

end Recased

/-- An instruction with an argument is read from a line of code with the same command, whose
argument may be glued to a comment. -/
theorem exists_code_of_argument {line : Nat} {raw : Text} {instruction : Instruction}
    {argument : Token} (h : ofLine? line raw = some instruction)
    (hargument : instruction.argument = some argument) :
    ∃ code, CodeLine.ofLine? line raw = some code ∧ code.commandName = instruction.name ∧
      code.argument?.map (cutComment raw) = some argument := by
  rw [ofLine?] at h
  split at h
  · cases h
  · next hne =>
    rw [scan_codeText hne] at h
    cases hcode : codeTokens raw with
    | nil =>
      rw [hcode] at h
      cases h
    | cons command arguments =>
      rw [hcode] at h
      obtain rfl := Option.some.inj h
      rw [List.head?_map] at hargument
      refine ⟨⟨line, command, arguments⟩, by rw [CodeLine.ofLine?, hcode]; rfl, ?_, hargument⟩
      -- The command is not the last token, to which a comment can be glued.
      have hlast : 0 + 1 < (codeTokens raw).length := by
        cases arguments with
        | nil => cases hargument
        | cons => rw [hcode, List.length_cons, List.length_cons]; omega
      have hcommand : cutComment raw command = command :=
        cutComment_eq_self fun column hcolumn =>
          covers_eq_false_of_lt hcolumn (by rw [hcode]; rfl) hlast
      rw [name, hcommand, CodeLine.commandName]

end Instruction

/-! ## Texts with the same letters -/

/-- A comment is cut from the same tokens, whatever the case of letters is. -/
theorem cutComment_fold (raw : Text) : cutComment (Text.fold raw) = cutComment raw := by
  rw [cutComment, cutComment, commentColumn?_fold]

namespace Recased

variable {vocabulary : Vocabulary} {text text' : Text}

/-- The lines of recased texts have the same letters. -/
theorem fold_line_eq (h : Recased vocabulary text text') {line : Nat} {raw raw' : Text}
    (hraw : (Text.lines text)[line]? = some raw) (hraw' : (Text.lines text')[line]? = some raw') :
    Text.fold raw' = Text.fold raw := by
  have hlines : ((Text.lines text').map Text.fold)[line]? =
      ((Text.lines text).map Text.fold)[line]? := by
    rw [← Text.lines_fold, ← Text.lines_fold, h.fold_eq]
  simpa only [List.getElem?_map, hraw, hraw', Option.map_some, Option.some.injEq] using hlines

/-- The instructions of recased texts are recased. -/
theorem recased_ofText (h : Recased vocabulary text text') :
    Instruction.Recased vocabulary (Instruction.ofText text) (Instruction.ofText text') := by
  refine ⟨?_, fun instruction hmem instruction' hmem' hfold hinclude => ?_⟩
  · rw [← Instruction.ofText_fold, ← Instruction.ofText_fold, h.fold_eq]
  obtain ⟨raw, hraw, hread⟩ := Instruction.exists_isOn_of_mem_ofText hmem
  obtain ⟨raw', hraw', hread'⟩ := Instruction.exists_isOn_of_mem_ofText hmem'
  have hline : instruction'.line = instruction.line := by
    rw [← Instruction.line_fold, hfold, Instruction.line_fold]
  rw [hline] at hraw' hread'
  have hargument : instruction'.argument.map Token.fold = instruction.argument.map Token.fold :=
    congrArg Instruction.argument hfold
  cases hfound : instruction.argument with
  | none =>
    rw [hfound] at hargument
    exact Option.map_eq_none_iff.1 hargument
  | some argument =>
    rw [hfound] at hargument
    obtain ⟨argument', hfound', -⟩ := Option.map_eq_some_iff.1 hargument
    obtain ⟨code, hcode, hname, hcut⟩ := Instruction.exists_code_of_argument hread hfound
    obtain ⟨code', hcode', -, hcut'⟩ := Instruction.exists_code_of_argument hread' hfound'
    obtain ⟨hcode, hnumber⟩ := (ofLine?_eq_some_iff_mem_codeLines hraw).1 hcode
    obtain ⟨hcode', hnumber'⟩ := (ofLine?_eq_some_iff_mem_codeLines hraw').1 hcode'
    -- The arguments of the lines of code are the same, and a comment is cut from both or neither.
    have hsame := h.argument_eq code hcode code' hcode' (hnumber'.trans hnumber.symm)
      (hname ▸ hinclude)
    have hcomment : cutComment raw' = cutComment raw := by
      rw [← cutComment_fold, h.fold_line_eq hraw hraw', cutComment_fold]
    rw [hfound', ← hcut', hsame, hcomment, hcut]

end Recased

/-- The case of letters does not matter to symbols and structure. Texts that differ only in the case
of ASCII letters, and not in the arguments of includes, have the same symbols in the same places,
the same outline up to the case of the names, and the same diagnostics up to remarks on the case of
commands and the case of unknown commands. -/
theorem analyses_eq_of_recased (fs : FileSystem) (path : Path) {vocabulary : Vocabulary}
    {text text' : Text} (h : Recased vocabulary text text') :
    (∀ kind : SymbolKind, kind.index fs vocabulary path (some text') =
      kind.index fs vocabulary path (some text)) ∧
    (outline vocabulary text').map OutlineEntry.fold =
      (outline vocabulary text).map OutlineEntry.fold ∧
    (validate fs vocabulary path text').filterMap Diagnostic.caseless? =
      (validate fs vocabulary path text).filterMap Diagnostic.caseless? := by
  refine ⟨fun kind => kind.index_eq_of_recased h, ?_, h.recased_ofText.diagnose_eq⟩
  rw [← outline_fold, ← outline_fold, h.fold_eq]

/-- A script and the same one in letters of another case. The argument of the include is left as it
is, one command is written in mixed case in the first script only, and the lower case of the name
that is called depends on the letters around the sigma. -/
theorem analyses_eq_of_recased_sample :
    let path : Path := ⟨"main.osc".toList⟩
    let text := "Subroutine Go\ninclude 'Lib' $x\nPLAY\ngosub aΣx".toList
    let text' := "subroutine GO\nINCLUDE 'Lib' $X\nPlay\nGOSUB AΣX".toList
    Recased .standard text text' ∧
      (SymbolKind.var.index ⟨true, [], []⟩ .standard path (some text')).referencesOf "x".toList =
        [⟨path, ⟨1, 14, 16⟩⟩] ∧
      (outline .standard text').map OutlineEntry.fold = [⟨"go".toList, ⟨0, 11, 13⟩, 0⟩] ∧
      (validate ⟨true, [], []⟩ .standard path text').filterMap Diagnostic.caseless? =
        [⟨⟨2, 0, 4⟩, .unknownCommand "play".toList⟩,
          ⟨⟨0, 0, 10⟩, .missingCloser "subroutine".toList "endsubroutine".toList⟩,
          ⟨⟨1, 8, 13⟩, .includeNotFound "Lib".toList⟩,
          ⟨⟨3, 6, 9⟩, .unknownSubroutine "aσx".toList⟩] ∧
      ⟨⟨0, 0, 10⟩, .mixedCaseCommand "Subroutine".toList⟩ ∈
        validate ⟨true, [], []⟩ .standard path text := by
  intro path text text'
  have hrecased : Recased .standard text text' := ⟨by decide +kernel, by decide +kernel⟩
  obtain ⟨hindex, houtline, hvalidate⟩ := analyses_eq_of_recased ⟨true, [], []⟩ path hrecased
  -- Nothing is included from an empty disk.
  have hnone : Include.targets ⟨true, [], []⟩ .standard (.ofText path text) = [] := by
    decide +kernel
  have hwalk : Include.walk ⟨true, [], []⟩ .standard path (some text) = [.ofText path text] := by
    rw [Include.walk, hnone, Include.explore]
  rw [hindex, SymbolKind.index, hwalk, houtline, outline_eq_itemsOf, hvalidate]
  refine ⟨hrecased, ?_, ?_, ?_, ?_⟩ <;> decide +kernel

end ScriptAnalysis
