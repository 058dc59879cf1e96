import ScriptAnalysis.Proofs.CodeLine
import ScriptAnalysis.Proofs.Symbol.Visible
import ScriptAnalysis.Proofs.Validation.Comments
import ScriptAnalysis.Proofs.Validation.Document
import ScriptAnalysis.Proofs.Validation.Run

/-!
# Calls of unknown subroutines

The validator collects the subroutines that a script may call from the script itself and from the
closures of its includes, one walk for each include. The index of the script makes one walk from the
script. Both find the visible subroutines, so that the validator reports the calls that the index
has no definition for.

* `Vocabulary.Coherent`: what the validator takes for granted of a vocabulary.
* `mem_visibleSubroutines_iff`: the validator finds the visible subroutines.
* `SymbolKind.filter_occurrences_root`: the occurrences of an index in its root.
* `unknownCalls_validate`: the unknown calls of a script are the references without a definition.
-/

namespace ScriptAnalysis

/-! ## Subroutines that the validator finds -/

/-- What the validator takes for granted of a vocabulary: the commands that it looks for are known,
and a definition is not a call. -/
structure Vocabulary.Coherent (vocabulary : Vocabulary) : Prop where
  /-- The command that defines a subroutine is known. -/
  isKnown_subroutine : vocabulary.isKnown vocabulary.subroutineKeyword = true
  /-- The command that calls a subroutine is known. -/
  isKnown_call : vocabulary.isKnown vocabulary.callKeyword = true
  /-- The include commands are known. -/
  isKnown_include : ∀ command, vocabulary.isInclude command = true →
    vocabulary.isKnown command = true
  /-- A definition is not a call. -/
  call_ne_subroutine : vocabulary.callKeyword ≠ vocabulary.subroutineKeyword

theorem Vocabulary.coherent_standard : standard.Coherent where
  isKnown_subroutine := by decide +kernel
  isKnown_call := by decide +kernel
  isKnown_include command h := by
    have hall : ∀ command ∈ standard.includeCommands, standard.isKnown command = true := by
      decide +kernel
    exact hall command (by simpa [isInclude] using h)
  call_ne_subroutine := by decide +kernel

/-- Whether every argument that names a subroutine in a text is an identifier. -/
def NamesSubroutines (vocabulary : Vocabulary) (text : Text) : Prop :=
  ∀ code ∈ codeLines text,
    code.commandName = vocabulary.subroutineKeyword ∨ code.commandName = vocabulary.callKeyword →
      ∀ argument ∈ code.argument?, (subroutineName? argument.text).isSome

section Validator

variable {fs : FileSystem} {vocabulary : Vocabulary} {path : Path} {text : Text}

/-- An identifier names the subroutine with its lower-case spelling. -/
theorem subroutineName?_eq_some_lowercase {name : Text} (h : (subroutineName? name).isSome) :
    subroutineName? name = some (Text.lowercase name) := by
  rw [subroutineName?] at h ⊢
  split at h
  · next hidentifier => rw [if_pos hidentifier]
  · cases h

/-- The validator takes the same subroutine to be defined by a line. -/
theorem defined?_ofCode {code : CodeLine}
    (hname : code.commandName = vocabulary.subroutineKeyword →
      ∀ argument ∈ code.argument?, (subroutineName? argument.text).isSome) :
    (Instruction.ofCode code).defined? vocabulary = definedName? vocabulary code := by
  rw [Instruction.defined?, definedName?, Instruction.name_ofCode, Instruction.argument_ofCode]
  split
  · next hcommand =>
    cases hargument : code.argument? with
    | none => rfl
    | some argument =>
      have hsome := hname hcommand argument hargument
      rw [Option.map_some, Option.bind_some, subroutineName?_eq_some_lowercase hsome]
  · rfl

/-- The validator resolves the include of a line in the same way. -/
theorem included?_ofCode (code : CodeLine) :
    (Instruction.ofCode code).included? fs vocabulary path =
      Include.target? fs vocabulary path code := by
  rw [Instruction.included?, Include.target?, Instruction.name_ofCode, Instruction.includeText,
    Instruction.argument_ofCode]
  split
  · cases code.argument? with
    | none => rfl
    | some argument => rfl
  · rfl

variable (hcomments : ∀ instruction ∈ Instruction.ofText text, instruction.comment = none)

include hcomments

/-- Without comments behind code, the known instructions are the lines of code with a known
command. -/
theorem known_eq_map_ofCode :
    Document.known vocabulary text =
      ((codeLines text).filter fun code => vocabulary.isKnown code.commandName).map
        Instruction.ofCode := by
  rw [Document.known, Instruction.ofText_eq_map_ofCode hcomments, List.filter_map]
  rfl

variable (hcoherent : vocabulary.Coherent)

include hcoherent

/-- The validator takes the lines of a text to define the same subroutines. -/
theorem mem_filterMap_defined?_iff (hnames : NamesSubroutines vocabulary text) {name : Text} :
    name ∈ (Document.known vocabulary text).filterMap (·.defined? vocabulary) ↔
      ∃ code ∈ codeLines text, definedName? vocabulary code = some name := by
  rw [known_eq_map_ofCode hcomments, List.filterMap_map, List.mem_filterMap]
  have hline (code : CodeLine) (hcode : code ∈ codeLines text) :
      (Instruction.ofCode code).defined? vocabulary = definedName? vocabulary code :=
    defined?_ofCode fun hcommand => hnames code hcode (.inl hcommand)
  constructor
  · rintro ⟨code, hcode, hdefined⟩
    have hmem := (List.mem_filter.1 hcode).1
    exact ⟨code, hmem, by rw [← hline code hmem]; exact hdefined⟩
  · rintro ⟨code, hcode, hdefined⟩
    -- A line that defines a subroutine has a known command.
    have hcommand : code.commandName = vocabulary.subroutineKeyword := by
      by_contra hne
      rw [definedName?, if_neg hne] at hdefined
      cases hdefined
    have hknown : vocabulary.isKnown code.commandName = true := by
      rw [hcommand]
      exact hcoherent.isKnown_subroutine
    refine ⟨code, List.mem_filter.2 ⟨hcode, hknown⟩, ?_⟩
    rw [Function.comp_apply, hline code hcode]
    exact hdefined

/-- The validator takes a script to include the same scripts. -/
theorem mem_filterMap_included?_iff {target : Path} :
    target ∈ (Document.known vocabulary text).filterMap (·.included? fs vocabulary path) ↔
      target ∈ Include.targets fs vocabulary (Visit.ofText path text) := by
  rw [known_eq_map_ofCode hcomments, List.filterMap_map, List.mem_filterMap, Include.targets,
    List.mem_filterMap]
  simp only [Function.comp_apply, included?_ofCode]
  constructor
  · rintro ⟨code, hcode, htarget⟩
    exact ⟨code, (List.mem_filter.1 hcode).1, htarget⟩
  · rintro ⟨code, hcode, htarget⟩
    have hinclude : vocabulary.isInclude code.commandName = true := by
      by_contra hne
      rw [Include.target?, if_neg hne] at htarget
      cases htarget
    exact ⟨code, List.mem_filter.2 ⟨hcode, hcoherent.isKnown_include _ hinclude⟩, htarget⟩

/-- On a disk without links, the validator finds the visible subroutines. -/
theorem mem_visibleSubroutines_iff (hfree : fs.LinkFree) (habs : path.isAbsolute = true)
    (htext : fs.fileText? path = some text) (hnames : NamesSubroutines vocabulary text)
    {name : Text} :
    name ∈ visibleSubroutines fs vocabulary path (Document.known vocabulary text) ↔
      Include.VisibleIn fs vocabulary path text name := by
  rw [visibleSubroutines, List.mem_append, mem_filterMap_defined?_iff hcomments hcoherent hnames]
  refine or_congr_right ?_
  -- What is left are the closures of the includes, which are absolute paths of files as well.
  rw [List.mem_flatMap]
  refine exists_congr fun target => ?_
  rw [List.mem_eraseDups, mem_filterMap_included?_iff hcomments hcoherent]
  refine and_congr_right fun htarget => ?_
  obtain ⟨htargetAbs, htargetFile⟩ :=
    Include.isAbsolute_and_isFile_of_mem_targets htext habs htarget
  rw [← SymbolKind.isDefined_index_iff hfree htargetAbs htargetFile, closureSubroutines]
  exact (SymbolKind.subroutine.holds_index fs vocabulary target none).mem_definedNames_iff

end Validator

/-! ## Unknown calls -/

/-- The name and the place of the unknown call that a diagnostic reports. -/
def Diagnostic.unknownCall? (diagnostic : Diagnostic) : Option (Text × Span) :=
  match diagnostic.problem with
  | .unknownSubroutine name => some (name, diagnostic.span)
  | _ => none

section Calls

variable {fs : FileSystem} {vocabulary : Vocabulary} {path : Path} {text : Text}
  {diagnostic : Diagnostic}

/-- Only problems of rank six are unknown calls. -/
theorem Diagnostic.unknownCall?_of_rank (h : diagnostic.problem.rank ≠ 6) :
    diagnostic.unknownCall? = none := by
  rw [unknownCall?]
  split
  · next name hproblem =>
    rw [hproblem] at h
    exact absurd rfl h
  · rfl

theorem Blocks.unknownCall?_of_mem_scan {blocks : List OpenBlock} {instructions : List Instruction}
    (h : diagnostic ∈ (scan vocabulary blocks instructions).1) :
    diagnostic.unknownCall? = none := by
  induction instructions generalizing blocks with
  | nil => cases h
  | cons instruction rest ih =>
    rw [scan] at h
    rcases List.mem_append.1 h with hfirst | hlater
    · apply Diagnostic.unknownCall?_of_rank
      rcases List.mem_append.1 hfirst with hremark | hstep
      · have hrank := rank_of_mem_remarks hremark
        omega
      · rw [Problem.isOfBlocks_iff.1 (isOfBlocks_of_mem_step hstep)]
        decide
    · exact ih hlater

/-- The problems of a script that need no other script are not about unknown calls. -/
theorem Document.filterMap_ownProblems :
    (ownProblems fs vocabulary path text).filterMap Diagnostic.unknownCall? = [] := by
  rw [List.filterMap_eq_nil_iff]
  intro diagnostic hdiagnostic
  rcases List.mem_append.1 hdiagnostic with hown | hmissing
  · rcases List.mem_append.1 hown with hscan | hunclosed
    · exact Blocks.unknownCall?_of_mem_scan hscan
    · obtain ⟨block, -, rfl⟩ := List.mem_map.1 hunclosed
      rfl
  · obtain ⟨instruction, -, hproblem⟩ := List.mem_filterMap.1 hmissing
    apply Diagnostic.unknownCall?_of_rank
    rw [(Instruction.line_rank_of_missingInclude? hproblem).2]
    decide

/-- The occurrences in a root that is a file are those of its own lines. -/
theorem SymbolKind.filter_occurrences_root (hfile : fs.isFile path = true)
    (wanted : Occurrence → Prop) [DecidablePred wanted] :
    (subroutine.occurrencesIn vocabulary
        (Include.walk fs vocabulary path (some text))).filter (fun found =>
          found.location.path.parts = path.parts ∧ wanted found) =
      ((codeLines text).filterMap (subroutineOccurrence? vocabulary path)).filter
        fun found => wanted found :=
  filter_occurrences_of_parts_ne (fun _ => Include.parts_ne_of_isFile hfile) wanted

/-- A line with an unknown call is a reference without a definition. -/
theorem unknownCall?_ofCode (hcoherent : vocabulary.Coherent)
    (hnames : NamesSubroutines vocabulary text) {code : CodeLine} (hcode : code ∈ codeLines text)
    {visible : List Text} {defined : Text → Bool}
    (hvisible : ∀ name, visible.contains name = defined name) :
    (if vocabulary.isKnown code.commandName = true then
        ((Instruction.ofCode code).unknownCall? vocabulary visible).bind Diagnostic.unknownCall?
      else none) =
      ((subroutineOccurrence? vocabulary path code).filter fun found =>
        found.usage = .reference ∧ defined found.name = false).map fun found =>
          (found.name, found.location.span) := by
  rw [Instruction.unknownCall?, Instruction.name_ofCode, subroutineOccurrence?, subroutineUsage?]
  by_cases hcall : code.commandName = vocabulary.callKeyword
  · -- A call is known and defines nothing, so that both sides look up the argument's name.
    have hknown : vocabulary.isKnown code.commandName = true := by
      rw [hcall]
      exact hcoherent.isKnown_call
    have hnot : code.commandName ≠ vocabulary.subroutineKeyword := by
      rw [hcall]
      exact hcoherent.call_ne_subroutine
    rw [if_pos hknown, if_pos hcall, if_neg hnot, if_pos hcall, Option.bind_some,
      Instruction.argument_ofCode]
    cases hargument : code.argument? with
    | none => rfl
    | some argument =>
      have hsome := hnames code hcode (.inr hcall) argument hargument
      have hspan : (argument.span code.line).widen = argument.span code.line := by
        refine Span.widen_eq_self (CodeLine.start_lt_stop hcode ?_)
        exact List.mem_cons_of_mem _ (List.mem_of_head? hargument)
      rw [Option.bind_some, subroutineName?_eq_some_lowercase hsome, Option.map_some,
        Option.filter_some]
      simp only [hvisible]
      cases hdefined : defined (Text.lowercase argument.text) with
      | true => simp
      | false => simp [Diagnostic.report, Diagnostic.unknownCall?, Instruction.ofCode, hspan]
  · -- A line that calls nothing may define a subroutine, but is no reference.
    rw [if_neg hcall, if_neg hcall, Option.bind_none, ite_self]
    split
    · cases code.argument? with
      | none => rfl
      | some argument =>
        rw [Option.bind_some, Option.bind_some]
        cases subroutineName? argument.text with
        | none => rfl
        | some name => simp [Option.filter_some]
    · rfl

end Calls

/-- On a disk without links, the unknown calls of a script that is validated as it is on the disk
are the references in it to which its index has no definition, in the same order and with the same
names and places. The index has just what the indexer finds, and the order is the one in which it
finds the references. The script must have no comments behind code, and identifiers as subroutine
names. Its file need not be one that may be opened. -/
theorem unknownCalls_validate (fs : FileSystem) {path : Path} {text : Text}
    (hfree : fs.LinkFree) (habs : path.isAbsolute = true) (htext : fs.fileText? path = some text)
    (hcomments : ∀ diagnostic ∈ validate fs .standard path text,
      diagnostic.problem ≠ .inlineComment)
    (hnames : NamesSubroutines .standard text) :
    let index := SymbolKind.subroutine.index fs .standard path (some text)
    let found := SymbolKind.subroutine.occurrencesIn .standard
      (Include.walk fs .standard path (some text))
    index.Holds found ∧
    (validate fs .standard path text).filterMap Diagnostic.unknownCall? =
      (found.filter fun found =>
        found.location.path.parts = path.parts ∧ found.usage = .reference ∧
          index.isDefined found.name = false).map fun found =>
            (found.name, found.location.span) := by
  intro index found
  have hplain := Instruction.comment_eq_none_of_validate hcomments
  -- The subroutines that the validator finds are those that the index defines.
  have hvisible (name : Text) :
      (visibleSubroutines fs .standard path (Document.known .standard text)).contains name =
        index.isDefined name := by
    rw [Bool.eq_iff_iff, List.contains_iff_mem,
      mem_visibleSubroutines_iff hplain Vocabulary.coherent_standard hfree habs htext hnames]
    exact (SymbolKind.isDefined_index_some_iff hfree habs htext).symm
  refine ⟨SymbolKind.subroutine.holds_index fs .standard path (some text), ?_⟩
  rw [SymbolKind.filter_occurrences_root (FileSystem.isFile_of_fileText? htext),
    List.filter_filterMap, List.map_filterMap,
    Document.validate_eq_append, List.filterMap_append, Document.filterMap_ownProblems,
    List.nil_append, List.filterMap_filterMap]
  generalize visibleSubroutines fs .standard path (Document.known .standard text) = visible
    at hvisible ⊢
  -- Both sides go through the lines of code.
  rw [known_eq_map_ofCode hplain, List.filterMap_map, List.filterMap_filter]
  apply List.filterMap_congr
  intro code hcode
  exact unknownCall?_ofCode Vocabulary.coherent_standard hnames hcode hvisible

/-- A script that calls a subroutine of the script that it includes, and one that does not exist. -/
def callingText : Text :=
  "include lib\ngosub run\ngosub lost\n".toList

/-- A script that includes the calling one. -/
def calledText : Text :=
  "include main\nsubroutine run\nendsubroutine\n".toList

/-- A disk with both scripts. -/
def callDisk : FileSystem :=
  ⟨true, [("main.osc".toList, .file true (Utf8.encode callingText)),
    ("lib.osc".toList, .file true (Utf8.encode calledText))], []⟩

/-- The walk from the included script comes back to the one that is validated. -/
theorem walk_callDisk :
    Include.walk callDisk .standard ⟨"/lib.osc".toList⟩ none =
      [Visit.ofText ⟨"/lib.osc".toList⟩ calledText,
        Visit.ofText ⟨"/main.osc".toList⟩ callingText] := by
  rw [Include.walk, Include.explore_of_encode calledText [⟨"/main.osc".toList⟩] List.not_mem_nil
      (by decide +kernel) (by decide +kernel),
    List.append_nil, Include.explore_of_encode callingText [⟨"/lib.osc".toList⟩]
      (by decide +kernel) (by decide +kernel) (by decide +kernel),
    List.append_nil, Include.explore_of_mem (by decide +kernel), Include.explore]

theorem validate_callDisk :
    validate callDisk .standard ⟨"/main.osc".toList⟩ callingText =
      [⟨⟨2, 6, 10⟩, .unknownSubroutine "lost".toList⟩] := by
  have hincluded : (Document.known .standard callingText).filterMap
      (·.included? callDisk .standard ⟨"/main.osc".toList⟩) = [⟨"/lib.osc".toList⟩] := by
    decide +kernel
  have hvisible : visibleSubroutines callDisk .standard ⟨"/main.osc".toList⟩
      (Document.known .standard callingText) = ["run".toList] := by
    rw [visibleSubroutines, hincluded]
    show _ ++ (closureSubroutines callDisk .standard ⟨"/lib.osc".toList⟩ ++ []) = _
    rw [closureSubroutines, SymbolKind.index, walk_callDisk]
    decide +kernel
  rw [Document.validate_eq_append, hvisible]
  decide +kernel

/-- The one unknown call of the sample script is its one reference without a definition. -/
theorem unknownCalls_validate_sample :
    let path : Path := ⟨"/main.osc".toList⟩
    let index := SymbolKind.subroutine.index callDisk .standard path (some callingText)
    let found := SymbolKind.subroutine.occurrencesIn .standard
      (Include.walk callDisk .standard path (some callingText))
    callDisk.LinkFree ∧ path.isAbsolute = true ∧ callDisk.fileText? path = some callingText ∧
    (∀ diagnostic ∈ validate callDisk .standard path callingText,
      diagnostic.problem ≠ .inlineComment) ∧
    NamesSubroutines .standard callingText ∧ index.Holds found ∧
    (found.filter fun found =>
      found.location.path.parts = path.parts ∧ found.usage = .reference ∧
        index.isDefined found.name = false).map (fun found => (found.name, found.location.span)) =
      [("lost".toList, ⟨2, 6, 10⟩)] := by
  intro path index found
  have hfree : callDisk.LinkFree := by simp [FileSystem.LinkFree, callDisk, Directory.linkFree]
  have habs : path.isAbsolute = true := by decide +kernel
  have htext : callDisk.fileText? path = some callingText :=
    FileSystem.fileText?_of_readText (Include.readText_of_encode (by decide +kernel))
  have hcomments : ∀ diagnostic ∈ validate callDisk .standard path callingText,
      diagnostic.problem ≠ .inlineComment := by
    rw [validate_callDisk]
    decide +kernel
  have hnames : NamesSubroutines .standard callingText := by
    unfold NamesSubroutines
    decide +kernel
  obtain ⟨hholds, hcalls⟩ :=
    unknownCalls_validate callDisk hfree habs htext hcomments hnames
  refine ⟨hfree, habs, htext, hcomments, hnames, hholds, ?_⟩
  rw [← hcalls, validate_callDisk]
  decide +kernel

end ScriptAnalysis
