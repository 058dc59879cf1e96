import ScriptAnalysis.Include.Link
import ScriptAnalysis.Proofs.CodeLine
import ScriptAnalysis.Proofs.Validation.Comments
import ScriptAnalysis.Proofs.Validation.Matching
import ScriptAnalysis.Proofs.Validation.Visibility

/-!
# Linked and missing includes

An include is looked up twice: its line links to the script that it names, and a validation reports
a script that cannot be found. The links come from the lines of code, the reports from the
instructions with a known command, which wait until the whole script has been read. On a line
without a comment behind its code, one of the two finds the script exactly if the other does not
miss it.

* `Include.linksOn_links`: the links on a line.
* `missingIncludesOn_validate`: the reports on a line.
* `linked_or_reported`: every include is linked or reported, and nothing else is.
-/

namespace ScriptAnalysis

/-- Whether a problem is a comment behind code. -/
def Problem.isInlineComment : Problem → Bool
  | inlineComment => true
  | _ => false

/-- Whether a problem says that an included script does not exist. -/
def Problem.isMissingInclude : Problem → Bool
  | includeNotFound _ => true
  | _ => false

/-- The links on line number `n`. -/
def Include.linksOn (n : Nat) (links : List IncludeLink) : List IncludeLink :=
  links.filter fun link => link.span.line == n

variable {fs : FileSystem} {vocabulary : Vocabulary} {path : Path} {text : Text}

theorem Problem.rank_of_isInlineComment {problem : Problem}
    (h : problem.isInlineComment = true) : problem.rank < 4 := by
  cases problem <;> simp_all [isInlineComment, rank]

theorem Problem.isMissingInclude_iff {problem : Problem} :
    problem.isMissingInclude = true ↔ problem.rank = 5 := by
  cases problem <;> simp [isMissingInclude, rank]

/-! ## Links -/

namespace Include

/-- The link of an include is at its argument and leads to the script that this names. -/
theorem link?_of_isInclude {code : CodeLine} (h : vocabulary.isInclude code.commandName = true) :
    link? fs vocabulary path code =
      code.argument?.bind fun argument =>
        (resolve fs vocabulary path argument.text).map fun target =>
          ⟨argument.span code.line, target⟩ := by
  rw [link?, target?, if_pos h]
  cases code.argument? with
  | none => rfl
  | some argument => cases h : resolve fs vocabulary path argument.text <;> simp [h]

/-- Other lines have no link. -/
theorem link?_of_not_isInclude {code : CodeLine}
    (h : vocabulary.isInclude code.commandName = false) :
    link? fs vocabulary path code = none := by
  rw [link?, target?, h]
  rfl

/-- The link of a line is on that line. -/
theorem line_of_link? {code : CodeLine} {link : IncludeLink}
    (h : link? fs vocabulary path code = some link) : link.span.line = code.line := by
  obtain ⟨target, -, h⟩ := Option.bind_eq_some_iff.1 h
  obtain ⟨argument, -, h⟩ := Option.bind_eq_some_iff.1 h
  cases h
  rfl

/-- The links on a line are that of its code, if it has one. -/
theorem linksOn_links (n : Nat) :
    linksOn n (links fs vocabulary path text) =
      ((Text.lines text)[n]?.bind fun raw =>
        (CodeLine.ofLine? n raw).bind (link? fs vocabulary path)).toList := by
  rw [linksOn, links, codeLines, List.filterMap_filterMap]
  refine filter_filterMap_zipIdx (fun numbered link hlink => ?_) (Text.lines text) n
  obtain ⟨code, hcode, hlink⟩ := Option.bind_eq_some_iff.1 hlink
  exact (line_of_link? hlink).trans (CodeLine.ofTokens?_eq_some_iff.1 hcode).1

/-- Nothing is the name of no script. -/
theorem resolve_nil (base : Path) : resolve fs vocabulary base [] = none := by
  rfl

end Include

/-! ## Reports -/

open Blocks

namespace Instruction

/-- The report of an include without a comment behind its code is made if the argument names no
script. It is at the argument, or at the command if there is none. -/
theorem missingInclude?_ofCode {code : CodeLine} (hcode : code ∈ codeLines text)
    (h : vocabulary.isInclude code.commandName = true) :
    (ofCode code).missingInclude? fs vocabulary path =
      match Include.resolve fs vocabulary path ((code.argument?.map (·.text)).getD []) with
      | some _ => none
      | none =>
        some ⟨(code.argument?.getD code.command).span code.line,
          .includeNotFound (stripQuotes ((code.argument?.map (·.text)).getD []))⟩ := by
  have hspan : code.argument?.getD code.command ∈ code.tokens := by
    cases hargument : code.argument? with
    | none => exact List.mem_cons_self
    | some argument => exact List.mem_cons_of_mem _ (List.mem_of_head? hargument)
  have hwiden : ((code.argument?.getD code.command).span code.line).widen =
      (code.argument?.getD code.command).span code.line :=
    Span.widen_eq_self (CodeLine.start_lt_stop hcode hspan)
  rw [missingInclude?, name_ofCode, if_pos h, includeText, argument_ofCode]
  cases hargument : code.argument? with
  | none =>
    rw [hargument, Option.getD_none] at hwiden
    simp [Diagnostic.report, commandSpan, ofCode, hwiden, Include.resolve_nil]
  | some argument =>
    rw [hargument, Option.getD_some] at hwiden
    cases hresolve : Include.resolve fs vocabulary path argument.text <;>
      simp [Diagnostic.report, ofCode, hwiden, hresolve]

/-- Other instructions have no such report. -/
theorem missingInclude?_of_not_isInclude {instruction : Instruction}
    (h : vocabulary.isInclude instruction.name = false) :
    instruction.missingInclude? fs vocabulary path = none := by
  rw [missingInclude?, h]
  rfl

end Instruction

/-- The reports of missing includes on a line are that of its instruction, if this has a known
command. -/
theorem missingIncludesOn_validate (n : Nat) :
    diagnosticsOn Problem.isMissingInclude n (validate fs vocabulary path text) =
      ((Instruction.at? text n).bind fun instruction =>
        if vocabulary.isKnown instruction.name then
          instruction.missingInclude? fs vocabulary path
        else none).toList := by
  have hother {diagnostics : List Diagnostic}
      (hrank : ∀ diagnostic ∈ diagnostics, diagnostic.problem.rank ≠ 5) :
      diagnosticsOn Problem.isMissingInclude n diagnostics = [] := by
    refine diagnosticsOn_eq_nil (fun diagnostic hmem => ?_) n
    rw [← Bool.not_eq_true, Problem.isMissingInclude_iff]
    exact hrank diagnostic hmem
  have hlines : diagnosticsOn Problem.isMissingInclude n
      ((List.range (Text.lines text).length).flatMap (problemsAt vocabulary text)) = [] := by
    refine hother fun diagnostic hmem => ?_
    obtain ⟨m, -, hproblem⟩ := List.mem_flatMap.1 hmem
    have hrank := rank_of_mem_problemsAt hproblem
    omega
  have hunclosed : diagnosticsOn Problem.isMissingInclude n
      ((openBefore vocabulary text (Text.lines text).length).reverse.map unclosed) = [] := by
    refine hother fun diagnostic hmem => ?_
    obtain ⟨block, -, rfl⟩ := List.mem_map.1 hmem
    simp [unclosed, Problem.rank]
  have hcalls (visible : List Text) (instructions : List Instruction) :
      diagnosticsOn Problem.isMissingInclude n
        (instructions.filterMap (·.unknownCall? vocabulary visible)) = [] := by
    refine hother fun diagnostic hmem => ?_
    obtain ⟨instruction, -, hproblem⟩ := List.mem_filterMap.1 hmem
    rw [(Instruction.line_rank_of_unknownCall? hproblem).2]
    decide
  -- All that is left are the reports of includes, which have the lines of their instructions.
  have hincludes (instructions : List Instruction) :
      diagnosticsOn Problem.isMissingInclude n
        (instructions.filterMap (·.missingInclude? fs vocabulary path)) =
      (instructions.filterMap (·.missingInclude? fs vocabulary path)).filter
        fun diagnostic => diagnostic.span.line == n := by
    refine List.filter_congr fun diagnostic hmem => ?_
    obtain ⟨instruction, -, hproblem⟩ := List.mem_filterMap.1 hmem
    rw [Problem.isMissingInclude_iff.2 (Instruction.line_rank_of_missingInclude? hproblem).2,
      Bool.true_and]
  rw [validate_eq_run, diagnosticsOn_append, diagnosticsOn_append, hlines, hunclosed,
    List.nil_append, List.nil_append, symbolProblems, diagnosticsOn_append, hcalls, hincludes,
    List.append_nil, List.filterMap_filter, Instruction.ofText, List.filterMap_filterMap,
    Instruction.at?, Option.bind_assoc]
  refine filter_filterMap_zipIdx (fun numbered diagnostic hfound => ?_) (Text.lines text) n
  obtain ⟨instruction, hinstruction, hproblem⟩ := Option.bind_eq_some_iff.1 hfound
  split at hproblem
  · exact (Instruction.line_rank_of_missingInclude? hproblem).1.trans
      (Instruction.line_of_ofLine? hinstruction)
  · cases hproblem

/-- If no comment is reported on a line, its instruction is its code. -/
theorem ofLine?_eq_map_ofCode_of_validate {n : Nat} {raw : Text}
    (hraw : (Text.lines text)[n]? = some raw)
    (hcomment : diagnosticsOn Problem.isInlineComment n (validate fs vocabulary path text) = []) :
    Instruction.ofLine? n raw = (CodeLine.ofLine? n raw).map Instruction.ofCode := by
  refine Instruction.ofLine?_eq_map_ofCode fun instruction hinstruction => ?_
  have hat : Instruction.at? text n = some instruction := by
    rw [Instruction.at?, hraw, Option.bind_some, hinstruction]
  rw [lineProblemsOn_validate fs vocabulary path text fun _ => Problem.rank_of_isInlineComment,
    problemsAt, hat, List.filter_eq_nil_iff] at hcomment
  cases hspan : instruction.comment with
  | none => rfl
  | some span =>
    refine absurd rfl (hcomment (Diagnostic.report span .inlineComment) ?_)
    simp [Instruction.remarks, hspan]

/-- Let every include command be known, and let no comment be reported on a line. If its command is
an include command, the line either has one link, at its first argument and to a regular file, and
no report of a missing include, or it has no link and one such report, at its first argument or,
without one, at its command. If its command is no include command, it has neither. -/
theorem linked_or_reported (fs : FileSystem) (vocabulary : Vocabulary) (path : Path) (text : Text)
    (hknown : ∀ command, vocabulary.isInclude command = true → vocabulary.isKnown command = true)
    (n : Nat)
    (hcomment : diagnosticsOn Problem.isInlineComment n (validate fs vocabulary path text) = []) :
    (∀ code ∈ codeLines text, code.line = n → vocabulary.isInclude code.commandName = true →
      (∃ argument target, code.argument? = some argument ∧ fs.isFile target = true ∧
        Include.linksOn n (Include.links fs vocabulary path text) = [⟨argument.span n, target⟩] ∧
        diagnosticsOn Problem.isMissingInclude n (validate fs vocabulary path text) = []) ∨
      (Include.linksOn n (Include.links fs vocabulary path text) = [] ∧
        diagnosticsOn Problem.isMissingInclude n (validate fs vocabulary path text) =
          [⟨(code.argument?.getD code.command).span n,
            .includeNotFound (stripQuotes ((code.argument?.map (·.text)).getD []))⟩])) ∧
    ((∀ code ∈ codeLines text, code.line = n → vocabulary.isInclude code.commandName = false) →
      Include.linksOn n (Include.links fs vocabulary path text) = [] ∧
        diagnosticsOn Problem.isMissingInclude n (validate fs vocabulary path text) = []) := by
  rw [Include.linksOn_links, missingIncludesOn_validate, Instruction.at?]
  cases hraw : (Text.lines text)[n]? with
  | none =>
    refine ⟨fun code hcode hline => ?_, fun _ => ⟨rfl, rfl⟩⟩
    obtain ⟨raw, hfound, -⟩ := exists_raw_of_mem_codeLines hcode
    rw [hline, hraw] at hfound
    cases hfound
  | some raw =>
    have hread := ofLine?_eq_map_ofCode_of_validate hraw hcomment
    rw [Option.bind_some, Option.bind_some, hread]
    refine ⟨fun code hmem hline hinclude => ?_, fun hother => ?_⟩
    · have hcode : CodeLine.ofLine? n raw = some code :=
        (ofLine?_eq_some_iff_mem_codeLines hraw).2 ⟨hmem, hline⟩
      rw [hcode, Option.bind_some, Option.map_some, Option.bind_some, Instruction.name_ofCode,
        if_pos (hknown _ hinclude), Include.link?_of_isInclude hinclude,
        Instruction.missingInclude?_ofCode hmem hinclude, hline]
      cases hargument : code.argument? with
      | none => exact .inr ⟨rfl, rfl⟩
      | some argument =>
        cases hresolve : Include.resolve fs vocabulary path argument.text with
        | some target =>
          exact .inl ⟨argument, target, rfl, Include.isFile_of_resolve hresolve,
            by simp [hresolve], by simp [hresolve]⟩
        | none => exact .inr ⟨by simp [hresolve], by simp [hresolve]⟩
    · cases hcode : CodeLine.ofLine? n raw with
      | none => exact ⟨rfl, rfl⟩
      | some code =>
        obtain ⟨hmem, hline⟩ := (ofLine?_eq_some_iff_mem_codeLines hraw).1 hcode
        have hinclude := hother code hmem hline
        rw [Option.bind_some, Option.map_some, Option.bind_some,
          Include.link?_of_not_isInclude hinclude,
          Instruction.missingInclude?_of_not_isInclude hinclude, ite_self]
        exact ⟨rfl, rfl⟩

/-- On a disk with one script, an include of it in capitals and quotes is linked. Includes of a
missing script and of a blank, and one without an argument, are reported. -/
theorem linked_or_reported_sample :
    let text := "INCLUDE 'lib'\ninclude gone\ninclude ' '\nloadscript\nlog lib\n".toList
    let fs : FileSystem := ⟨true, [("lib.osc".toList, .file true [])], []⟩
    let path : Path := ⟨"main.osc".toList⟩
    let links (n : Nat) := Include.linksOn n (Include.links fs .standard path text)
    let missing (n : Nat) := diagnosticsOn Problem.isMissingInclude n
      (validate fs .standard path text)
    (∀ command, Vocabulary.standard.isInclude command = true →
        Vocabulary.standard.isKnown command = true) ∧
      (∀ n < 5, diagnosticsOn Problem.isInlineComment n (validate fs .standard path text) = []) ∧
      (∃ target, fs.isFile target = true ∧ links 0 = [⟨⟨0, 8, 13⟩, target⟩] ∧ missing 0 = []) ∧
      (links 1 = [] ∧ missing 1 = [⟨⟨1, 8, 12⟩, .includeNotFound "gone".toList⟩]) ∧
      (links 2 = [] ∧ missing 2 = [⟨⟨2, 8, 11⟩, .includeNotFound " ".toList⟩]) ∧
      (links 3 = [] ∧ missing 3 = [⟨⟨3, 0, 10⟩, .includeNotFound []⟩]) ∧
      (links 4 = [] ∧ missing 4 = []) := by
  intro text fs path links missing
  have hknown := Vocabulary.coherent_standard.isKnown_include
  have hcomment : ∀ n < 5, diagnosticsOn Problem.isInlineComment n
      (validate fs .standard path text) = [] := by
    decide +kernel
  have hline (n : Nat) (hn : n < 5) := linked_or_reported fs .standard path text hknown n
    (hcomment n hn)
  have hcode : codeLines text =
      [⟨0, ⟨"INCLUDE".toList, 0, 7⟩, [⟨"'lib'".toList, 8, 13⟩]⟩,
        ⟨1, ⟨"include".toList, 0, 7⟩, [⟨"gone".toList, 8, 12⟩]⟩,
        ⟨2, ⟨"include".toList, 0, 7⟩, [⟨"' '".toList, 8, 11⟩]⟩,
        ⟨3, ⟨"loadscript".toList, 0, 10⟩, []⟩,
        ⟨4, ⟨"log".toList, 0, 3⟩, [⟨"lib".toList, 4, 7⟩]⟩] := by
    decide +kernel
  have hmissing (code : CodeLine) (hmem : code ∈ codeLines text) (hn : code.line < 5)
      (hinclude : Vocabulary.standard.isInclude code.commandName = true)
      (hnone : links code.line = []) :=
    ((hline code.line hn).1 code hmem rfl hinclude).resolve_left (by
      rintro ⟨argument, target, -, -, hlinked, -⟩
      exact List.cons_ne_nil _ _ (hlinked.symm.trans hnone))
  refine ⟨hknown, hcomment, ?_, ?_, ?_, ?_, ?_⟩
  · rcases (hline 0 (by decide)).1 ⟨0, ⟨"INCLUDE".toList, 0, 7⟩, [⟨"'lib'".toList, 8, 13⟩]⟩
      (by simp [hcode]) rfl (by decide +kernel) with
      ⟨argument, target, hargument, hfile, hlinked, hnone⟩ | ⟨-, hreported⟩
    · cases hargument
      exact ⟨target, hfile, hlinked, hnone⟩
    · exact absurd hreported (by decide +kernel)
  · exact hmissing ⟨1, ⟨"include".toList, 0, 7⟩, [⟨"gone".toList, 8, 12⟩]⟩ (by simp [hcode])
      (by decide) (by decide +kernel) (by decide +kernel)
  · exact hmissing ⟨2, ⟨"include".toList, 0, 7⟩, [⟨"' '".toList, 8, 11⟩]⟩ (by simp [hcode])
      (by decide) (by decide +kernel) (by decide +kernel)
  · exact hmissing ⟨3, ⟨"loadscript".toList, 0, 10⟩, []⟩ (by simp [hcode]) (by decide)
      (by decide +kernel) (by decide +kernel)
  · refine (hline 4 (by decide)).2 fun code hmem hat => ?_
    rw [hcode] at hmem
    revert code
    decide +kernel

end ScriptAnalysis
