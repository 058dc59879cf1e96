import ScriptAnalysis.Proofs.Token.Layout
import ScriptAnalysis.Proofs.Validation.Comments
import ScriptAnalysis.Proofs.Validation.Matching

/-!
# Lines and comments without meaning

A blank line, a line that starts with its comment, and a line with an unknown command take no part
in what a validation finds on other lines: to insert one only moves the lines behind it. What a
comment says makes no difference either, except to where the comment ends.

A validation is a function of the instructions of a text. A change of the instructions that each
step of the validation carries over to its diagnostics is one that the whole validation carries
over.

* `diagnose`: the diagnostics of instructions.
* `Instruction.Carries`, `diagnose_map`: changes that a validation carries over.
* `diagnose_renumber`: other line numbers.
* `diagnose_stretchComment`: another end of a comment.
* `validate_inert_lines`: what inserting a line and rewriting a comment do to a validation.
-/

namespace ScriptAnalysis

/-- The diagnostics of the script at `path` with the given instructions. -/
def diagnose (fs : FileSystem) (vocabulary : Vocabulary) (path : Path)
    (instructions : List Instruction) : List Diagnostic :=
  let known := instructions.filter fun instruction => vocabulary.isKnown instruction.name
  (Blocks.scan vocabulary [] instructions).1 ++
    (Blocks.scan vocabulary [] instructions).2.reverse.map Blocks.unclosed ++
    known.filterMap (·.missingInclude? fs vocabulary path) ++
    known.filterMap (·.unknownCall? vocabulary (visibleSubroutines fs vocabulary path known))

/-- A text is validated through its instructions. -/
theorem validate_eq_diagnose (fs : FileSystem) (vocabulary : Vocabulary) (path : Path)
    (text : Text) :
    validate fs vocabulary path text = diagnose fs vocabulary path (Instruction.ofText text) :=
  rfl

/-! ## Changes that a validation carries over -/

/-- Whether every step of a validation carries the change of an instruction by `change` over to the
open blocks, as a change by `block`, and to the diagnostics, as a change by `diagnostic`. -/
structure Instruction.Carries (fs : FileSystem) (vocabulary : Vocabulary) (path : Path)
    (change : Instruction → Instruction) (block : OpenBlock → OpenBlock)
    (diagnostic : Diagnostic → Diagnostic) (instruction : Instruction) : Prop where
  /-- The command stays. -/
  name_eq : (change instruction).name = instruction.name
  /-- The argument stays. -/
  argument_eq : (change instruction).argument = instruction.argument
  /-- The problems that the instruction has by itself. -/
  remarks_eq : (change instruction).remarks vocabulary =
    (instruction.remarks vocabulary).map diagnostic
  /-- What the instruction does to the open blocks, and its problem among them. -/
  step_eq : ∀ blocks : List OpenBlock,
    Blocks.step vocabulary (blocks.map block) (change instruction) =
      ((Blocks.step vocabulary blocks instruction).1.map block,
        (Blocks.step vocabulary blocks instruction).2.map diagnostic)
  /-- The problem of an include. -/
  missingInclude?_eq : (change instruction).missingInclude? fs vocabulary path =
    (instruction.missingInclude? fs vocabulary path).map diagnostic
  /-- The problem of a call. -/
  unknownCall?_eq : ∀ visible, (change instruction).unknownCall? vocabulary visible =
    (instruction.unknownCall? vocabulary visible).map diagnostic

section Carries

variable {fs : FileSystem} {vocabulary : Vocabulary} {path : Path}
  {change : Instruction → Instruction} {block : OpenBlock → OpenBlock}
  {diagnostic : Diagnostic → Diagnostic} {instructions : List Instruction}

/-- The scan carries a change over that each of its steps carries over. -/
theorem Blocks.scan_map
    (hremarks : ∀ instruction ∈ instructions, (change instruction).remarks vocabulary =
      (instruction.remarks vocabulary).map diagnostic)
    (hstep : ∀ instruction ∈ instructions, ∀ blocks : List OpenBlock,
      step vocabulary (blocks.map block) (change instruction) =
        ((step vocabulary blocks instruction).1.map block,
          (step vocabulary blocks instruction).2.map diagnostic))
    (blocks : List OpenBlock) :
    scan vocabulary (blocks.map block) (instructions.map change) =
      ((scan vocabulary blocks instructions).1.map diagnostic,
        (scan vocabulary blocks instructions).2.map block) := by
  induction instructions generalizing blocks with
  | nil => rfl
  | cons instruction rest ih =>
    obtain ⟨hfirst, hothers⟩ := List.forall_mem_cons.1 hremarks
    obtain ⟨hfirst', hothers'⟩ := List.forall_mem_cons.1 hstep
    simp only [List.map_cons, scan, hfirst, hfirst', ih hothers hothers', List.map_append]

/-- The same subroutines are visible. -/
theorem visibleSubroutines_map
    (h : ∀ instruction ∈ instructions,
      instruction.Carries fs vocabulary path change block diagnostic) :
    visibleSubroutines fs vocabulary path (instructions.map change) =
      visibleSubroutines fs vocabulary path instructions := by
  have hdefined : (instructions.map change).filterMap (·.defined? vocabulary) =
      instructions.filterMap (·.defined? vocabulary) := by
    rw [List.filterMap_map]
    refine List.filterMap_congr fun instruction hmem => ?_
    simp only [Function.comp_apply, Instruction.defined?, (h instruction hmem).name_eq,
      (h instruction hmem).argument_eq]
  have hincluded : (instructions.map change).filterMap (·.included? fs vocabulary path) =
      instructions.filterMap (·.included? fs vocabulary path) := by
    rw [List.filterMap_map]
    refine List.filterMap_congr fun instruction hmem => ?_
    simp only [Function.comp_apply, Instruction.included?, Instruction.includeText,
      (h instruction hmem).name_eq, (h instruction hmem).argument_eq]
  rw [visibleSubroutines, hdefined, hincluded, visibleSubroutines]

/-- A validation carries a change over that each of its steps carries over. -/
theorem diagnose_map
    (h : ∀ instruction ∈ instructions,
      instruction.Carries fs vocabulary path change block diagnostic)
    (hunclosed : ∀ opened, Blocks.unclosed (block opened) = diagnostic (Blocks.unclosed opened)) :
    diagnose fs vocabulary path (instructions.map change) =
      (diagnose fs vocabulary path instructions).map diagnostic := by
  -- The change keeps the commands, and so the instructions with a known command.
  have hknown : (instructions.map change).filter
        (fun instruction => vocabulary.isKnown instruction.name) =
      (instructions.filter fun instruction => vocabulary.isKnown instruction.name).map change := by
    rw [List.filter_map]
    refine congrArg (List.map change) (List.filter_congr fun instruction hmem => ?_)
    simp only [Function.comp_apply, (h instruction hmem).name_eq]
  have hcarried : ∀ instruction ∈ instructions.filter
        (fun instruction => vocabulary.isKnown instruction.name),
      instruction.Carries fs vocabulary path change block diagnostic :=
    fun instruction hmem => h instruction (List.mem_of_mem_filter hmem)
  have hscan := Blocks.scan_map (fun instruction hmem => (h instruction hmem).remarks_eq)
    (fun instruction hmem => (h instruction hmem).step_eq) []
  rw [List.map_nil] at hscan
  simp only [diagnose, hknown, hscan, visibleSubroutines_map hcarried, List.map_append,
    List.filterMap_map, List.map_filterMap, List.map_reverse, List.map_map]
  refine congrArg₂ (· ++ ·) (congrArg₂ (· ++ ·) (congrArg₂ (· ++ ·) rfl ?_) ?_) ?_
  · exact congrArg List.reverse (List.map_congr_left fun opened _ => hunclosed opened)
  · exact List.filterMap_congr fun instruction hmem =>
      (hcarried instruction hmem).missingInclude?_eq
  · exact List.filterMap_congr fun instruction hmem =>
      (hcarried instruction hmem).unknownCall?_eq _

end Carries

/-! ## Other line numbers -/

/-- The same columns on the line with another number. -/
def Span.renumber (number : Nat → Nat) (span : Span) : Span :=
  { span with line := number span.line }

/-- The same problem with another number of the line that it speaks of. -/
def Problem.renumber (number : Nat → Nat) : Problem → Problem
  | mismatchedCloser closer expected opener openedOn =>
    mismatchedCloser closer expected opener (number openedOn)
  | problem => problem

/-- The same diagnostic with other line numbers. -/
def Diagnostic.renumber (number : Nat → Nat) (diagnostic : Diagnostic) : Diagnostic :=
  ⟨diagnostic.span.renumber number, diagnostic.problem.renumber number⟩

/-- The same instruction on a line with another number. -/
def Instruction.renumber (number : Nat → Nat) (instruction : Instruction) : Instruction :=
  { instruction with
    line := number instruction.line
    comment := instruction.comment.map (Span.renumber number) }

/-- The same block, opened on a line with another number. -/
def OpenBlock.renumber (number : Nat → Nat) (block : OpenBlock) : OpenBlock :=
  { block with span := block.span.renumber number }

section Renumber

variable (number : Nat → Nat)

/-- A problem is reported on the line with the other number. -/
theorem Diagnostic.renumber_report (span : Span) (problem : Problem) :
    (report span problem).renumber number =
      report (span.renumber number) (problem.renumber number) := by
  have hwiden : span.widen.renumber number = (span.renumber number).widen := by
    rw [Span.widen, Span.widen]
    show _ = if span.start < span.stop then _ else _
    split <;> rfl
  rw [renumber, report, report, hwiden]

namespace Instruction

@[simp]
theorem name_renumber (instruction : Instruction) :
    (instruction.renumber number).name = instruction.name :=
  rfl

@[simp]
theorem commandSpan_renumber (instruction : Instruction) :
    (instruction.renumber number).commandSpan = instruction.commandSpan.renumber number :=
  rfl

theorem remarks_renumber (vocabulary : Vocabulary) (instruction : Instruction) :
    (instruction.renumber number).remarks vocabulary =
      (instruction.remarks vocabulary).map (Diagnostic.renumber number) := by
  have hcommand (problem : Problem) (h : problem.renumber number = problem) :
      (Diagnostic.report instruction.commandSpan problem).renumber number =
        Diagnostic.report (instruction.commandSpan.renumber number) problem := by
    rw [Diagnostic.renumber_report, h]
  have hcomment : ((instruction.renumber number).comment.map
        (Diagnostic.report · .inlineComment)).toList =
      (instruction.comment.map (Diagnostic.report · .inlineComment)).toList.map
        (Diagnostic.renumber number) := by
    show ((instruction.comment.map (Span.renumber number)).map _).toList = _
    cases instruction.comment with
    | none => rfl
    | some span =>
      simp only [Option.map_some, Option.toList_some, List.map_singleton,
        Diagnostic.renumber_report, Problem.renumber]
  rw [remarks, remarks, hcomment, List.map_append, List.map_append, name_renumber,
    commandSpan_renumber]
  refine congrArg₂ (· ++ ·) (congrArg₂ (· ++ ·) rfl ?_) ?_
  · show (if isMixedCase instruction.command.text then _ else _) = _
    split
    · rw [List.map_singleton, hcommand _ rfl]
      rfl
    · rfl
  · show (if _ then if instruction.name = vocabulary.callKeyword ∧ instruction.argument = none
      then _ else _ else _) = _
    split
    · split
      · rw [List.map_singleton, hcommand _ rfl]
      · rfl
    · rw [List.map_singleton, hcommand _ rfl]
      rfl

theorem step_renumber (vocabulary : Vocabulary) (instruction : Instruction)
    (blocks : List OpenBlock) :
    Blocks.step vocabulary (blocks.map (OpenBlock.renumber number))
        (instruction.renumber number) =
      ((Blocks.step vocabulary blocks instruction).1.map (OpenBlock.renumber number),
        (Blocks.step vocabulary blocks instruction).2.map (Diagnostic.renumber number)) := by
  -- Blocks are asked for their openers, which stay.
  have hany (opener : Text) : (blocks.map (OpenBlock.renumber number)).any (·.opener = opener) =
      blocks.any (·.opener = opener) := by
    rw [List.any_map]
    rfl
  have hhead (opener : Text) :
      (blocks.map (OpenBlock.renumber number)).head?.any (·.opener = opener) =
        blocks.head?.any (·.opener = opener) := by
    cases blocks <;> rfl
  cases hrole : vocabulary.role instruction.name with
  | unknown => simp [Blocks.step, hrole]
  | opener closer => simp [Blocks.step, hrole, OpenBlock.renumber]
  | continuation =>
    simp only [Blocks.step, name_renumber, hrole, hhead, commandSpan_renumber]
    split
    · rfl
    · simp [Diagnostic.renumber_report, Problem.renumber]
  | closer =>
    simp only [Blocks.step, name_renumber, hrole, commandSpan_renumber]
    cases blocks with
    | nil => simp [Diagnostic.renumber_report, Problem.renumber]
    | cons block outer =>
      simp only [List.map_cons, OpenBlock.renumber]
      by_cases hfits : block.closer = instruction.name
      · simp [hfits]
      · simp [hfits, Diagnostic.renumber_report, Problem.renumber, OpenBlock.renumber,
          Span.renumber]
  | leaveLoop =>
    simp only [Blocks.step, name_renumber, hrole, hany, commandSpan_renumber]
    split
    · rfl
    · simp [Diagnostic.renumber_report, Problem.renumber]
  | leaveSubroutine =>
    simp only [Blocks.step, name_renumber, hrole, hany, commandSpan_renumber]
    split
    · rfl
    · simp [Diagnostic.renumber_report, Problem.renumber]
  | plain => simp [Blocks.step, hrole]

/-- Every step of a validation carries other line numbers over. -/
theorem carries_renumber (fs : FileSystem) (vocabulary : Vocabulary) (path : Path)
    (instruction : Instruction) :
    instruction.Carries fs vocabulary path (renumber number) (OpenBlock.renumber number)
      (Diagnostic.renumber number) where
  name_eq := rfl
  argument_eq := rfl
  remarks_eq := instruction.remarks_renumber number vocabulary
  step_eq := instruction.step_renumber number vocabulary
  missingInclude?_eq := by
    have htext : (instruction.renumber number).includeText = instruction.includeText := rfl
    have hargument : (instruction.renumber number).argument = instruction.argument := rfl
    rw [missingInclude?, missingInclude?, name_renumber, htext, hargument]
    split
    · split
      · rfl
      · rw [Option.map_some, Diagnostic.renumber_report]
        cases instruction.argument <;> rfl
    · rfl
  unknownCall?_eq visible := by
    have hargument : (instruction.renumber number).argument = instruction.argument := rfl
    rw [unknownCall?, unknownCall?, name_renumber, hargument]
    split
    · cases instruction.argument with
      | none => rfl
      | some argument =>
        dsimp only
        split
        · rfl
        · rw [Option.map_some, Diagnostic.renumber_report]
          rfl
    · rfl

/-- The instruction of a line by another number. -/
theorem ofLine?_renumber (line : Nat) (raw : Text) :
    ofLine? (number line) raw = (ofLine? line raw).map (renumber number) := by
  rw [ofLine?, ofLine?]
  split
  · rfl
  · cases Token.scan (codeText raw) with
    | nil => rfl
    | cons command arguments =>
      rw [Option.map_some]
      cases commentColumn? raw <;> rfl

end Instruction

/-- A scan of instructions with other line numbers finds the same with the other line numbers. -/
theorem Blocks.scan_renumber (vocabulary : Vocabulary) (instructions : List Instruction) :
    (scan vocabulary [] (instructions.map (Instruction.renumber number))).1 =
      (scan vocabulary [] instructions).1.map (Diagnostic.renumber number) :=
  congrArg Prod.fst
    (scan_map (fun instruction _ => instruction.remarks_renumber number vocabulary)
      (fun instruction _ => instruction.step_renumber number vocabulary) [])

/-- A validation of instructions with other line numbers has the same diagnostics with the other
line numbers. -/
theorem diagnose_renumber (fs : FileSystem) (vocabulary : Vocabulary) (path : Path)
    (instructions : List Instruction) :
    diagnose fs vocabulary path (instructions.map (Instruction.renumber number)) =
      (diagnose fs vocabulary path instructions).map (Diagnostic.renumber number) :=
  diagnose_map (fun instruction _ => instruction.carries_renumber number fs vocabulary path)
    fun opened => (Diagnostic.renumber_report number opened.span
      (.missingCloser opened.opener opened.closer)).symm

end Renumber

/-! ## Inserting a line -/

/-- Whether a line is blank or starts with its comment. -/
def Text.isIdle (raw : Text) : Bool :=
  match raw.dropWhile isBlank with
  | [] => true
  | c :: _ => c == '#'

/-- On a blank line and on one that starts with its comment, the comment is what is seen first. -/
theorem commentColumn?_of_isIdle {raw : Text} (h : raw.isIdle = true) :
    commentColumn? raw = visibleColumn? raw := by
  have hfrom (column : Nat) :
      commentColumnFrom? .initial column raw = (visibleColumn? raw).map (column + ·) := by
    induction raw generalizing column with
    | nil => rfl
    | cons c rest ih =>
      by_cases hblank : Text.isBlank c = true
      · have hrest : Text.isIdle rest = true := by
          rwa [Text.isIdle, List.dropWhile_cons_of_pos hblank] at h
        rw [commentColumnFrom?_blank rfl hblank, ih hrest, visibleColumn?, visibleColumn?,
          List.findIdx?_cons, hblank]
        simp [Function.comp_def, Nat.add_assoc, Nat.add_comm 1]
      · -- The first character that is not blank marks a comment.
        obtain rfl : c = '#' := by
          rw [Text.isIdle, List.dropWhile_cons_of_neg hblank] at h
          simpa using h
        rw [visibleColumn?, List.findIdx?_cons]
        rfl
  simpa [commentColumn?] using hfrom 0

/-- The number of a line after another has been inserted before line number `place`. -/
def makeRoom (place line : Nat) : Nat :=
  if line < place then line else line + 1

namespace Instruction

/-- A blank line and one that starts with its comment hold no instruction. -/
theorem ofLine?_of_isIdle {raw : Text} (h : raw.isIdle = true) (line : Nat) :
    ofLine? line raw = none := by
  rw [ofLine?, if_pos (commentColumn?_of_isIdle h)]

/-- The instructions of lines that are numbered from `first`. -/
def ofLines (first : Nat) (raws : List Text) : List Instruction :=
  (raws.zipIdx first).filterMap fun (raw, line) => ofLine? line raw

theorem ofText_eq_ofLines (text : Text) : ofText text = ofLines 0 (Text.lines text) :=
  rfl

theorem ofLines_append (first : Nat) (raws others : List Text) :
    ofLines first (raws ++ others) =
      ofLines first raws ++ ofLines (first + raws.length) others := by
  rw [ofLines, List.zipIdx_append, List.filterMap_append, ofLines, ofLines]

theorem ofLines_cons (first : Nat) (raw : Text) (others : List Text) :
    ofLines first (raw :: others) = (ofLine? first raw).toList ++ ofLines (first + 1) others := by
  simp only [ofLines, List.zipIdx_cons, List.filterMap_cons]
  cases ofLine? first raw <;> rfl

/-- Lines numbered from another number on. -/
theorem ofLines_renumber {number : Nat → Nat} {first first' : Nat} {raws : List Text}
    (h : ∀ i < raws.length, number (first + i) = first' + i) :
    ofLines first' raws = (ofLines first raws).map (renumber number) := by
  induction raws generalizing first first' with
  | nil => rfl
  | cons raw others ih =>
    have hfirst : number first = first' := h 0 (Nat.succ_pos _)
    have hothers : ∀ i < others.length, number (first + 1 + i) = first' + 1 + i := by
      intro i hi
      have hnext := h (i + 1) (Nat.succ_lt_succ hi)
      rw [Nat.add_assoc, Nat.add_comm 1, hnext]
      omega
    rw [ofLines_cons, ofLines_cons, List.map_append, ih hothers, ← hfirst, ofLine?_renumber]
    cases ofLine? first raw <;> rfl

/-- The instructions before an inserted line stay, those behind it move by one line. -/
theorem ofText_insert {text text' raw : Text} {before after : List Text}
    (htext : Text.lines text = before ++ after)
    (hinsert : Text.lines text' = before ++ raw :: after) :
    ofText text = Instruction.before text before.length ++ ofLines before.length after ∧
      ofText text' =
        (Instruction.before text before.length).map (renumber (makeRoom before.length)) ++
          ((ofLine? before.length raw).toList ++
            (ofLines before.length after).map (renumber (makeRoom before.length))) := by
  have hbefore : Instruction.before text before.length = ofLines 0 before := by
    rw [Instruction.before, htext, List.take_left]
    rfl
  have hstay : ofLines 0 before =
      (ofLines 0 before).map (renumber (makeRoom before.length)) := by
    refine ofLines_renumber fun i hi => ?_
    rw [Nat.zero_add, makeRoom, if_pos hi]
  have hmove : ofLines (before.length + 1) after =
      (ofLines before.length after).map (renumber (makeRoom before.length)) := by
    refine ofLines_renumber fun i hi => ?_
    rw [makeRoom, if_neg (by omega)]
    omega
  rw [hbefore, ofText_eq_ofLines, ofText_eq_ofLines, htext, hinsert, ofLines_append,
    ofLines_append, ofLines_cons, Nat.zero_add, ← hstay, hmove]
  exact ⟨rfl, rfl⟩

/-- The diagnostics of a line with an unknown command: its comment, if it has one, the case of its
command, if that is mixed, and the command. -/
def unknownRemarks (instruction : Instruction) : List Diagnostic :=
  (instruction.comment.map (⟨·, .inlineComment⟩)).toList ++
    (if isMixedCase instruction.command.text then
      [⟨instruction.commandSpan, .mixedCaseCommand instruction.command.text⟩]
    else []) ++
    [⟨instruction.commandSpan, .unknownCommand instruction.command.text⟩]

/-- The comment of an instruction starts and ends on its line, and holds a column. -/
theorem comment_of_ofLine? {line : Nat} {raw : Text} {instruction : Instruction} {span : Span}
    (h : ofLine? line raw = some instruction) (hcomment : instruction.comment = some span) :
    ∃ column, commentColumn? raw = some column ∧ span = ⟨line, column, raw.length⟩ ∧
      column < raw.length := by
  rw [ofLine?] at h
  split at h
  · cases h
  · split at h
    · cases h
    · cases h
      obtain ⟨column, hcolumn, rfl⟩ := Option.map_eq_some_iff.1 hcomment
      exact ⟨column, hcolumn, rfl, by simpa using commentColumnFrom?_lt hcolumn⟩

theorem remarks_eq_unknownRemarks {vocabulary : Vocabulary} {text : Text} {line : Nat}
    {instruction : Instruction} (h : at? text line = some instruction)
    (hunknown : vocabulary.isKnown instruction.name = false) :
    instruction.remarks vocabulary = instruction.unknownRemarks := by
  obtain ⟨raw, hraw⟩ := exists_ofLine?_of_at? h
  have hcomment : instruction.comment.map (Diagnostic.report · .inlineComment) =
      instruction.comment.map (⟨·, .inlineComment⟩) := by
    refine Option.map_congr fun span hspan => ?_
    obtain ⟨column, -, rfl, hlt⟩ := comment_of_ofLine? hraw hspan
    rw [Diagnostic.report, Span.widen_eq_self hlt]
  simp only [remarks, unknownRemarks, hcomment, hunknown, Blocks.report_commandSpan h,
    Bool.false_eq_true, if_false]

end Instruction

section Insert

variable {fs : FileSystem} {vocabulary : Vocabulary} {path : Path}

/-- An instruction with an unknown command has its own problems, between those of the lines before
it and all others. -/
theorem diagnose_insert_unknown {instruction : Instruction}
    (h : vocabulary.isKnown instruction.name = false) (first second : List Instruction) :
    ∃ later, diagnose fs vocabulary path (first ++ second) =
        (Blocks.scan vocabulary [] first).1 ++ later ∧
      diagnose fs vocabulary path (first ++ instruction :: second) =
        (Blocks.scan vocabulary [] first).1 ++ (instruction.remarks vocabulary ++ later) := by
  have hstep (blocks : List OpenBlock) :
      Blocks.step vocabulary blocks instruction = (blocks, []) := by
    have hrole : vocabulary.role instruction.name = .unknown := by
      rw [Vocabulary.role, h, if_neg Bool.false_ne_true]
    simp [Blocks.step, hrole]
  have hknown : (first ++ instruction :: second).filter
        (fun instruction => vocabulary.isKnown instruction.name) =
      (first ++ second).filter fun instruction => vocabulary.isKnown instruction.name := by
    rw [List.filter_append, List.filter_cons_of_neg (by simp [h]), List.filter_append]
  -- Neither the open blocks nor the known instructions change.
  simp only [diagnose, hknown, Blocks.scan_append, Blocks.scan, hstep, List.append_nil,
    List.append_assoc, List.append_cancel_left_eq]
  exact ⟨_, rfl, rfl⟩

variable {text text' raw : Text} {before after : List Text}

/-- A line without an instruction only moves the lines behind it. -/
theorem validate_insert_none (htext : Text.lines text = before ++ after)
    (hinsert : Text.lines text' = before ++ raw :: after)
    (h : Instruction.ofLine? before.length raw = none) :
    validate fs vocabulary path text' =
      (validate fs vocabulary path text).map (Diagnostic.renumber (makeRoom before.length)) := by
  obtain ⟨hold, hnew⟩ := Instruction.ofText_insert htext hinsert
  rw [h, Option.toList_none, List.nil_append, ← List.map_append, ← hold] at hnew
  rw [validate_eq_diagnose, hnew, diagnose_renumber, validate_eq_diagnose]

/-- A line with an unknown command moves the lines behind it, and has its own diagnostics between
those of the lines before it and all others. -/
theorem validate_insert_unknown (htext : Text.lines text = before ++ after)
    (hinsert : Text.lines text' = before ++ raw :: after) {instruction : Instruction}
    (h : Instruction.ofLine? before.length raw = some instruction)
    (hunknown : vocabulary.isKnown instruction.name = false) :
    ∃ later,
      validate fs vocabulary path text =
        (List.range before.length).flatMap (Blocks.problemsAt vocabulary text) ++ later ∧
      validate fs vocabulary path text' =
        ((List.range before.length).flatMap (Blocks.problemsAt vocabulary text)).map
            (Diagnostic.renumber (makeRoom before.length)) ++
          (instruction.unknownRemarks ++
            later.map (Diagnostic.renumber (makeRoom before.length))) := by
  obtain ⟨hold, hnew⟩ := Instruction.ofText_insert htext hinsert
  generalize makeRoom before.length = number at hnew ⊢
  have hat : Instruction.at? text' before.length = some instruction := by
    rw [Instruction.at?, hinsert, List.getElem?_append_right (Nat.le_refl _), Nat.sub_self]
    exact h
  have hfound : (Blocks.scan vocabulary [] (Instruction.before text before.length)).1 =
      (List.range before.length).flatMap (Blocks.problemsAt vocabulary text) := by
    rw [Blocks.scan_before]
  have hmoved : (Blocks.scan vocabulary []
        ((Instruction.before text before.length).map (Instruction.renumber number))).1 =
      ((List.range before.length).flatMap (Blocks.problemsAt vocabulary text)).map
        (Diagnostic.renumber number) := by
    rw [Blocks.scan_renumber, hfound]
  rw [h, Option.toList_some, List.singleton_append] at hnew
  obtain ⟨later, hlater, -⟩ := diagnose_insert_unknown hunknown
    (Instruction.before text before.length) (Instruction.ofLines before.length after)
  obtain ⟨later', hwithout, hwith⟩ := diagnose_insert_unknown hunknown
    ((Instruction.before text before.length).map (Instruction.renumber number))
    ((Instruction.ofLines before.length after).map (Instruction.renumber number))
  -- Without the inserted line, the moved lines have the diagnostics of the text, moved.
  rw [← List.map_append, diagnose_renumber, hlater, List.map_append, hmoved, hfound,
    List.append_cancel_left_eq] at hwithout
  refine ⟨later, ?_, ?_⟩
  · rw [validate_eq_diagnose, hold, hlater, hfound]
  · rw [validate_eq_diagnose, hnew, hwith, hmoved, hwithout,
      Instruction.remarks_eq_unknownRemarks hat hunknown]

end Insert

/-! ## Rewriting a comment -/

/-- The same diagnostic, with another end if it is about the comment of line number `line`. -/
def Diagnostic.stretchComment (line stop : Nat) (diagnostic : Diagnostic) : Diagnostic :=
  if diagnostic.problem = .inlineComment ∧ diagnostic.span.line = line then
    { diagnostic with span := { diagnostic.span with stop } }
  else diagnostic

/-- The same instruction, with another end of its comment if it is on line number `line`. -/
def Instruction.stretchComment (line stop : Nat) (instruction : Instruction) : Instruction :=
  if instruction.line = line then
    { instruction with comment := instruction.comment.map fun span => { span with stop } }
  else instruction

theorem Diagnostic.stretchComment_of_ne {line stop : Nat} {diagnostic : Diagnostic}
    (h : diagnostic.problem ≠ .inlineComment) : diagnostic.stretchComment line stop = diagnostic :=
  if_neg fun hboth => h hboth.1

namespace Instruction

variable {fs : FileSystem} {vocabulary : Vocabulary} {path : Path} {instruction : Instruction}
  {line stop : Nat}

/-- The problems that an instruction has by itself are that of its comment and those of its
command. -/
theorem remarks_eq_append (vocabulary : Vocabulary) (instruction : Instruction) :
    instruction.remarks vocabulary =
      (instruction.comment.map (Diagnostic.report · .inlineComment)).toList ++
        remarks vocabulary { instruction with comment := none } := by
  simp only [remarks, Option.map_none, Option.toList_none, List.nil_append, List.append_assoc]
  rfl

/-- Only a comment is reported as a comment. -/
theorem problem_ne_of_mem_remarks {diagnostic : Diagnostic} (hnone : instruction.comment = none)
    (h : diagnostic ∈ instruction.remarks vocabulary) : diagnostic.problem ≠ .inlineComment := by
  rcases Blocks.mem_remarks_cases h with
    ⟨span, hspan, -⟩ | ⟨-, rfl⟩ | ⟨-, -, -, rfl⟩ | ⟨-, rfl⟩
  · rw [hnone] at hspan
    cases hspan
  all_goals simp

/-- Among the open blocks no comment is reported. -/
theorem problem_ne_of_mem_step {blocks : List OpenBlock} {diagnostic : Diagnostic}
    (h : diagnostic ∈ (Blocks.step vocabulary blocks instruction).2) :
    diagnostic.problem ≠ .inlineComment := by
  intro heq
  have hblocks := Blocks.isOfBlocks_of_mem_step h
  rw [heq] at hblocks
  cases hblocks

/-- The end of a comment shows in the diagnostic of the comment alone. -/
theorem remarks_stretchComment
    (h : ∀ span, instruction.comment = some span → span.line = instruction.line ∧
      span.start < span.stop ∧ (instruction.line = line → span.start < stop)) :
    (instruction.stretchComment line stop).remarks vocabulary =
      (instruction.remarks vocabulary).map (Diagnostic.stretchComment line stop) := by
  have hcommand : (remarks vocabulary { instruction with comment := none }).map
      (Diagnostic.stretchComment line stop) =
        remarks vocabulary { instruction with comment := none } := by
    conv_rhs => rw [← List.map_id (remarks vocabulary { instruction with comment := none })]
    refine List.map_congr_left fun diagnostic hmem => ?_
    exact Diagnostic.stretchComment_of_ne (problem_ne_of_mem_remarks rfl hmem)
  have hsame : { instruction.stretchComment line stop with comment := none } =
      { instruction with comment := none } := by
    rw [stretchComment]
    split <;> rfl
  rw [remarks_eq_append vocabulary (instruction.stretchComment line stop),
    remarks_eq_append vocabulary instruction, List.map_append, hcommand, hsame]
  refine congrArg₂ (· ++ ·) ?_ rfl
  rw [stretchComment]
  cases hcomment : instruction.comment with
  | none => split <;> simp [hcomment]
  | some span =>
    obtain ⟨hline, hlt, hlt'⟩ := h span hcomment
    by_cases hon : instruction.line = line
    · simp [hon, Diagnostic.report, Diagnostic.stretchComment, Span.widen, hlt, hlt' hon,
        hline.trans hon]
    · have hoff : span.line ≠ line := fun heq => hon (hline.symm.trans heq)
      simp [hon, hcomment, Diagnostic.report, Diagnostic.stretchComment, Span.widen, hlt, hoff]

/-- Every step of a validation carries another end of a comment over. -/
theorem carries_stretchComment
    (h : ∀ span, instruction.comment = some span → span.line = instruction.line ∧
      span.start < span.stop ∧ (instruction.line = line → span.start < stop)) :
    instruction.Carries fs vocabulary path (stretchComment line stop) id
      (Diagnostic.stretchComment line stop) := by
  -- Without its comment, an instruction is the same.
  have hsame : ∃ comment, instruction.stretchComment line stop =
      { instruction with comment := comment } := by
    rw [stretchComment]
    split
    · exact ⟨_, rfl⟩
    · exact ⟨instruction.comment, rfl⟩
  obtain ⟨comment, hchange⟩ := hsame
  refine ⟨by rw [hchange]; rfl, by rw [hchange], remarks_stretchComment h, fun blocks => ?_, ?_,
    fun visible => ?_⟩
  · rw [hchange, List.map_id, List.map_id]
    have hstep : Blocks.step vocabulary blocks { instruction with comment := comment } =
        Blocks.step vocabulary blocks instruction := rfl
    rw [hstep]
    refine Prod.ext rfl ?_
    conv_lhs => rw [← List.map_id (Blocks.step vocabulary blocks instruction).2]
    exact List.map_congr_left fun diagnostic hmem =>
      (Diagnostic.stretchComment_of_ne (problem_ne_of_mem_step hmem)).symm
  · rw [hchange]
    show instruction.missingInclude? fs vocabulary path = _
    rw [missingInclude?]
    split
    · split
      · rfl
      · refine congrArg some (Diagnostic.stretchComment_of_ne ?_).symm
        simp
    · rfl
  · rw [hchange]
    show instruction.unknownCall? vocabulary visible = _
    rw [unknownCall?]
    split
    · split
      · dsimp only
        split
        · rfl
        · refine congrArg some (Diagnostic.stretchComment_of_ne ?_).symm
          simp
      · rfl
    · rfl

/-- What a comment says makes no difference to the instruction, but for the end of the comment. -/
theorem ofLine?_rewrite_comment {code comment comment' : Text}
    (h : commentColumn? (code ++ '#' :: comment) = some code.length) (line : Nat) :
    ofLine? line (code ++ '#' :: comment') =
      (ofLine? line (code ++ '#' :: comment)).map
        (stretchComment line (code ++ '#' :: comment').length) := by
  have hcolumn : commentColumn? (code ++ '#' :: comment') = some code.length := by
    rw [commentColumn?, commentColumnFrom?_append] at h ⊢
    -- The mark is not quoted, since the comment would otherwise start behind it.
    have hquotes : (QuoteState.initial.after code).quotes '#' = false := by
      cases hquotes : (QuoteState.initial.after code).quotes '#' with
      | false => rfl
      | true =>
        rw [commentColumnFrom?, hquotes, Bool.not_true, Bool.false_and,
          if_neg Bool.false_ne_true] at h
        rcases Option.or_eq_some_iff.1 h with hcode | ⟨-, hcomment⟩
        · have hlt := commentColumnFrom?_lt hcode
          omega
        · obtain ⟨offset, hfound, -⟩ := getElem?_of_commentColumnFrom? hcomment
          omega
    rwa [commentColumnFrom?, hquotes] at h ⊢
  have hvisible : visibleColumn? (code ++ '#' :: comment') =
      visibleColumn? (code ++ '#' :: comment) := by
    have hmark : (!Text.isBlank '#') = true := by decide +kernel
    rw [visibleColumn?, visibleColumn?, List.findIdx?_append, List.findIdx?_append,
      List.findIdx?_cons, List.findIdx?_cons, hmark]
    rfl
  have hcode : codeText (code ++ '#' :: comment') = codeText (code ++ '#' :: comment) := by
    simp only [codeText, hcolumn, h, List.take_left]
  rw [ofLine?, ofLine?, hvisible, hcode, hcolumn, h]
  split
  · rfl
  · cases Token.scan (codeText (code ++ '#' :: comment)) with
    | nil => rfl
    | cons command arguments => simp [stretchComment]

/-- Lines with other numbers keep their comments. -/
theorem map_stretchComment_ofLines {first : Nat} {raws : List Text}
    (h : ∀ i < raws.length, first + i ≠ line) :
    (ofLines first raws).map (stretchComment line stop) = ofLines first raws := by
  conv_rhs => rw [← List.map_id (ofLines first raws)]
  refine List.map_congr_left fun instruction hmem => ?_
  obtain ⟨⟨raw, number⟩, hnumber, hinstruction⟩ := List.mem_filterMap.1 hmem
  obtain ⟨hle, hlt⟩ := List.mem_zipIdx hnumber
  have hne := h (number - first) (by omega)
  rw [stretchComment, line_of_ofLine? hinstruction, if_neg (by omega)]
  rfl

/-- The instructions of a text with another comment on one line. -/
theorem ofText_rewrite_comment {text text' code comment comment' : Text}
    {before after : List Text}
    (htext : Text.lines text = before ++ (code ++ '#' :: comment) :: after)
    (hrewrite : Text.lines text' = before ++ (code ++ '#' :: comment') :: after)
    (h : commentColumn? (code ++ '#' :: comment) = some code.length) :
    ofText text' = (ofText text).map
      (stretchComment before.length (code ++ '#' :: comment').length) := by
  rw [ofText_eq_ofLines, ofText_eq_ofLines, htext, hrewrite, ofLines_append, ofLines_append,
    ofLines_cons, ofLines_cons, List.map_append, List.map_append, Nat.zero_add,
    map_stretchComment_ofLines fun i hi => by omega,
    map_stretchComment_ofLines fun i hi => by omega, ofLine?_rewrite_comment h]
  cases ofLine? before.length (code ++ '#' :: comment) <;> rfl

end Instruction

/-- A validation of instructions with another end of a comment has the same diagnostics with the
other end of the comment. -/
theorem diagnose_stretchComment {fs : FileSystem} {vocabulary : Vocabulary} {path : Path}
    {instructions : List Instruction} {line stop : Nat}
    (h : ∀ instruction ∈ instructions, ∀ span, instruction.comment = some span →
      span.line = instruction.line ∧ span.start < span.stop ∧
        (instruction.line = line → span.start < stop)) :
    diagnose fs vocabulary path (instructions.map (Instruction.stretchComment line stop)) =
      (diagnose fs vocabulary path instructions).map (Diagnostic.stretchComment line stop) := by
  have hunclosed (opened : OpenBlock) : Blocks.unclosed (id opened) =
      (Blocks.unclosed opened).stretchComment line stop := by
    refine (Diagnostic.stretchComment_of_ne ?_).symm
    simp [Blocks.unclosed]
  exact diagnose_map
    (fun instruction hmem => Instruction.carries_stretchComment (h instruction hmem)) hunclosed

/-- Another comment behind the same code changes the end of its diagnostic, if it has one. -/
theorem validate_rewrite_comment {fs : FileSystem} {vocabulary : Vocabulary} {path : Path}
    {text text' code comment comment' : Text} {before after : List Text}
    (htext : Text.lines text = before ++ (code ++ '#' :: comment) :: after)
    (hrewrite : Text.lines text' = before ++ (code ++ '#' :: comment') :: after)
    (h : commentColumn? (code ++ '#' :: comment) = some code.length) :
    validate fs vocabulary path text' =
      (validate fs vocabulary path text).map
        (Diagnostic.stretchComment before.length (code ++ '#' :: comment').length) := by
  rw [validate_eq_diagnose, Instruction.ofText_rewrite_comment htext hrewrite h,
    validate_eq_diagnose]
  refine diagnose_stretchComment fun instruction hmem span hspan => ?_
  obtain ⟨⟨raw, line⟩, hraw, hinstruction⟩ := List.mem_filterMap.1 hmem
  obtain ⟨column, hcolumn, rfl, hlt⟩ := Instruction.comment_of_ofLine? hinstruction hspan
  have hline := Instruction.line_of_ofLine? hinstruction
  refine ⟨hline.symm, hlt, fun hon => ?_⟩
  -- On the line of the comment, the comment starts behind the code.
  obtain rfl : line = before.length := hline.symm.trans hon
  have hraw' := List.mem_zipIdx_iff_getElem?.1 hraw
  rw [htext, List.getElem?_append_right (Nat.le_refl _), Nat.sub_self, List.getElem?_cons_zero]
    at hraw'
  have hsame : code ++ '#' :: comment = raw := Option.some.inj hraw'
  rw [← hsame, h, Option.some.injEq] at hcolumn
  show column < _
  rw [← hcolumn, List.length_append, List.length_cons]
  omega

/-- Comments and lines without meaning make no difference to a validation. A blank line and one that
starts with its comment only move the lines behind them. A line with an unknown command moves them
too, and is reported for itself. Another comment behind the same code changes the end of the
diagnostic of the comment, if there is one. -/
theorem validate_inert_lines (fs : FileSystem) (vocabulary : Vocabulary) (path : Path) :
    (∀ (before after : List Text) (text text' raw : Text), Text.lines text = before ++ after →
      Text.lines text' = before ++ raw :: after → raw.isIdle = true →
      validate fs vocabulary path text' =
        (validate fs vocabulary path text).map
          (Diagnostic.renumber (makeRoom before.length))) ∧
    (∀ (before after : List Text) (text text' raw : Text) (instruction : Instruction),
      Text.lines text = before ++ after → Text.lines text' = before ++ raw :: after →
      Instruction.ofLine? before.length raw = some instruction →
      vocabulary.isKnown instruction.name = false →
      ∃ later,
        validate fs vocabulary path text =
          (List.range before.length).flatMap (Blocks.problemsAt vocabulary text) ++ later ∧
        validate fs vocabulary path text' =
          ((List.range before.length).flatMap (Blocks.problemsAt vocabulary text)).map
              (Diagnostic.renumber (makeRoom before.length)) ++
            (instruction.unknownRemarks ++
              later.map (Diagnostic.renumber (makeRoom before.length)))) ∧
    (∀ (before after : List Text) (text text' code comment comment' : Text),
      Text.lines text = before ++ (code ++ '#' :: comment) :: after →
      Text.lines text' = before ++ (code ++ '#' :: comment') :: after →
      commentColumn? (code ++ '#' :: comment) = some code.length →
      validate fs vocabulary path text' =
        (validate fs vocabulary path text).map
          (Diagnostic.stretchComment before.length (code ++ '#' :: comment').length)) := by
  refine ⟨?_, ?_, ?_⟩
  · intro before after text text' raw htext hinsert hidle
    exact validate_insert_none htext hinsert (Instruction.ofLine?_of_isIdle hidle _)
  · intro before after text text' raw instruction htext hinsert hinstruction hunknown
    exact validate_insert_unknown htext hinsert hinstruction hunknown
  · intro before after text text' code comment comment' htext hrewrite hcomment
    exact validate_rewrite_comment htext hrewrite hcomment

/-- A loop that ends in the closer of a condition, so that a diagnostic speaks of the line that
opened the loop. A comment before the loop moves the line and what is said of it. An unknown command
moves them too, and is reported for its comment, its case and itself. Another comment behind the
last command ends elsewhere. -/
theorem validate_inert_lines_sample :
    let path : Path := ⟨"main.osc".toList⟩
    let found (text : String) := validate ⟨true, [], []⟩ .standard path text.toList
    let first : Diagnostic := ⟨⟨0, 0, 3⟩, .mixedCaseCommand "Log".toList⟩
    let others (opened stop : Nat) : List Diagnostic :=
      [⟨⟨opened + 1, 0, 5⟩,
          .mismatchedCloser "endif".toList "done".toList "while".toList opened⟩,
        ⟨⟨opened + 2, 6, stop⟩, .inlineComment⟩,
        ⟨⟨opened, 0, 5⟩, .missingCloser "while".toList "done".toList⟩]
    found "Log 1\nwhile 1\nendif\nlog 2 # ok" = first :: others 1 10 ∧
      found "Log 1\n  # note\nwhile 1\nendif\nlog 2 # ok" = first :: others 2 10 ∧
      found "Log 1\nPlay # it\nwhile 1\nendif\nlog 2 # ok" =
        first :: ⟨⟨1, 5, 9⟩, .inlineComment⟩ ::
          ⟨⟨1, 0, 4⟩, .mixedCaseCommand "Play".toList⟩ ::
          ⟨⟨1, 0, 4⟩, .unknownCommand "Play".toList⟩ :: others 2 10 ∧
      found "Log 1\nwhile 1\nendif\nlog 2 # done" = first :: others 1 12 := by
  intro path found first others
  have hfound : found "Log 1\nwhile 1\nendif\nlog 2 # ok" = first :: others 1 10 := by
    decide +kernel
  obtain ⟨hidle, hunknown, hcomment⟩ := validate_inert_lines ⟨true, [], []⟩ .standard path
  let before := ["Log 1".toList]
  let after := ["while 1".toList, "endif".toList, "log 2 # ok".toList]
  have hmoved := hidle before after "Log 1\nwhile 1\nendif\nlog 2 # ok".toList
    "Log 1\n  # note\nwhile 1\nendif\nlog 2 # ok".toList "  # note".toList (by decide +kernel)
    (by decide +kernel) (by decide +kernel)
  obtain ⟨later, hlater, hreported⟩ := hunknown before after
    "Log 1\nwhile 1\nendif\nlog 2 # ok".toList
    "Log 1\nPlay # it\nwhile 1\nendif\nlog 2 # ok".toList "Play # it".toList
    ⟨1, some ⟨1, 5, 9⟩, ⟨"Play".toList, 0, 4⟩, none⟩ (by decide +kernel) (by decide +kernel)
    (by decide +kernel) (by decide +kernel)
  have hrewritten := hcomment ["Log 1".toList, "while 1".toList, "endif".toList] []
    "Log 1\nwhile 1\nendif\nlog 2 # ok".toList "Log 1\nwhile 1\nendif\nlog 2 # done".toList
    "log 2 ".toList " ok".toList " done".toList (by decide +kernel) (by decide +kernel)
    (by decide +kernel)
  have hfirst : (List.range before.length).flatMap
      (Blocks.problemsAt .standard "Log 1\nwhile 1\nendif\nlog 2 # ok".toList) = [first] := by
    decide +kernel
  rw [hfirst] at hlater hreported
  obtain rfl : later = others 1 10 := (List.cons.inj (hlater.symm.trans hfound)).2
  refine ⟨hfound, hmoved.trans ?_, hreported.trans ?_, hrewritten.trans ?_⟩
  · rw [show validate _ _ _ _ = _ from hfound]
    decide +kernel
  · decide +kernel
  · rw [show validate _ _ _ _ = _ from hfound]
    decide +kernel

end ScriptAnalysis
