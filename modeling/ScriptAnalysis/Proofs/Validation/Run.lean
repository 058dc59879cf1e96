import ScriptAnalysis.Validation.Validate

/-!
# The validation of a script line by line

The scan of a script is a run over its line numbers: before each line some blocks are open, and the
line makes its problems among them. What a line does to the blocks follows from its block event
alone, which is to open a block, to close one, or nothing.

* `Vocabulary.event?`, `Instruction.at?`: the block event of a command, and the instruction of a
  line.
* `Blocks.openBefore`, `Blocks.problemsAt`: the blocks open before a line, and the problems of a
  line.
* `Problem.rank`: the order in which a validation looks for problems.
* `Blocks.mem_remarks_cases`: the problems that an instruction has by itself.
* `Blocks.step_of_event?_opening` and its siblings: what a line does to the blocks, by its event.
* `validate_eq_run`: the diagnostics of a script, its line phase being a run over the line numbers.
-/

namespace ScriptAnalysis

/-- What a command does to the open blocks. -/
inductive BlockEvent where
  /-- The command opens a block. -/
  | opening (command : Text)
  /-- The command closes a block. -/
  | closing (command : Text)
  deriving DecidableEq, Repr

/-- The block event of a command in lower case. A command that is not known has none. One that opens
blocks opens one, whatever else it is; one that divides conditionals closes none. -/
def Vocabulary.event? (vocabulary : Vocabulary) (command : Text) : Option BlockEvent :=
  if vocabulary.isKnown command = false then none
  else if (vocabulary.closerFor? command).isSome then some (.opening command)
  else if vocabulary.isContinuation command then none
  else if vocabulary.isCloser command then some (.closing command)
  else none

/-- The instruction on line number `n` of a text. -/
def Instruction.at? (text : Text) (n : Nat) : Option Instruction :=
  (Text.lines text)[n]?.bind (ofLine? n)

/-- The instructions on the first `n` lines of a text. -/
def Instruction.before (text : Text) (n : Nat) : List Instruction :=
  ((Text.lines text).take n).zipIdx.filterMap fun (raw, line) => ofLine? line raw

namespace Blocks

/-- The blocks that are open before line number `n` of a text, the innermost first. -/
def openBefore (vocabulary : Vocabulary) (text : Text) (n : Nat) : List OpenBlock :=
  (scan vocabulary [] (Instruction.before text n)).2

/-- The problems that line number `n` of a text has by itself and among the blocks open there. -/
def problemsAt (vocabulary : Vocabulary) (text : Text) (n : Nat) : List Diagnostic :=
  match Instruction.at? text n with
  | none => []
  | some instruction =>
    instruction.remarks vocabulary ++
      (step vocabulary (openBefore vocabulary text n) instruction).2

end Blocks

namespace Problem

/-- Whether a problem says that a closer does not close a block. -/
def isStrayCloser : Problem → Bool
  | unexpectedCloser _ => true
  | mismatchedCloser .. => true
  | _ => false

/-- Whether a problem says that a block is not closed. -/
def isMissingCloser : Problem → Bool
  | missingCloser .. => true
  | _ => false

/-- Whether a problem is about the place of a command among the open blocks. -/
def isOfBlocks : Problem → Bool
  | misplacedContinuation .. => true
  | unexpectedCloser _ => true
  | mismatchedCloser .. => true
  | misplacedBreak .. => true
  | misplacedReturn .. => true
  | _ => false

/-- Where a problem stands in the order in which a validation looks for problems: first those of a
line, which are its comment, its command and the place of the command among the blocks, and after
the last line the blocks that are open, the includes and the calls. -/
def rank : Problem → Nat
  | inlineComment => 0
  | mixedCaseCommand _ => 1
  | unknownCommand _ => 2
  | missingCallTarget _ => 2
  | misplacedContinuation .. => 3
  | unexpectedCloser _ => 3
  | mismatchedCloser .. => 3
  | misplacedBreak .. => 3
  | misplacedReturn .. => 3
  | missingCloser .. => 4
  | includeNotFound _ => 5
  | unknownSubroutine _ => 6

/-- The problems of rank three are those of the place among the open blocks. -/
theorem isOfBlocks_iff {problem : Problem} : problem.isOfBlocks = true ↔ problem.rank = 3 := by
  cases problem <;> simp [isOfBlocks, rank]

/-- The problems of rank four are missing closers. -/
theorem isMissingCloser_iff {problem : Problem} :
    problem.isMissingCloser = true ↔ problem.rank = 4 := by
  cases problem <;> simp [isMissingCloser, rank]

theorem rank_of_isStrayCloser {problem : Problem} (h : problem.isStrayCloser = true) :
    problem.rank = 3 := by
  cases problem <;> simp_all [isStrayCloser, rank]

/-- Only problems of rank three and four concern a closer. -/
theorem concern_no_closer_of_rank {problem : Problem} (hstray : problem.rank ≠ 3)
    (hmissing : problem.rank ≠ 4) :
    problem.isStrayCloser = false ∧ problem.isMissingCloser = false := by
  cases problem <;> simp_all [rank, isStrayCloser, isMissingCloser]

end Problem

/-! ### Instructions of a text by line number -/

namespace Instruction

/-- An instruction knows the number of its line. -/
theorem line_of_ofLine? {n : Nat} {raw : Text} {instruction : Instruction}
    (h : ofLine? n raw = some instruction) : instruction.line = n := by
  unfold ofLine? at h
  split at h
  · cases h
  · split at h
    · cases h
    · cases h
      rfl

/-- The comment of an instruction is on its line. -/
theorem comment_line_of_ofLine? {n : Nat} {raw : Text} {instruction : Instruction} {span : Span}
    (h : ofLine? n raw = some instruction) (hcomment : instruction.comment = some span) :
    span.line = n := by
  unfold ofLine? at h
  split at h
  · cases h
  · split at h
    · cases h
    · cases h
      obtain ⟨column, -, rfl⟩ := Option.map_eq_some_iff.1 hcomment
      rfl

/-- The instruction of a line comes from the characters of the line. -/
theorem exists_ofLine?_of_at? {text : Text} {n : Nat} {instruction : Instruction}
    (h : at? text n = some instruction) : ∃ raw, ofLine? n raw = some instruction := by
  obtain ⟨raw, -, hraw⟩ := Option.bind_eq_some_iff.1 h
  exact ⟨raw, hraw⟩

/-- The instruction of a line knows the number of the line. -/
theorem line_of_at? {text : Text} {n : Nat} {instruction : Instruction}
    (h : at? text n = some instruction) : instruction.line = n := by
  obtain ⟨raw, hraw⟩ := exists_ofLine?_of_at? h
  exact line_of_ofLine? hraw

/-- A line with an instruction is a line of the text. -/
theorem lt_length_of_at? {text : Text} {n : Nat} {instruction : Instruction}
    (h : at? text n = some instruction) : n < (Text.lines text).length := by
  obtain ⟨raw, hraw, -⟩ := Option.bind_eq_some_iff.1 h
  exact (List.getElem?_eq_some_iff.1 hraw).1

/-- One line more has its instruction more, if it has one. -/
theorem before_succ (text : Text) (n : Nat) :
    before text (n + 1) = before text n ++ (at? text n).toList := by
  unfold before at?
  rw [List.take_add_one]
  cases hraw : (Text.lines text)[n]? with
  | none => simp
  | some raw =>
    have hn : n < (Text.lines text).length := (List.getElem?_eq_some_iff.1 hraw).1
    have hlength : ((Text.lines text).take n).length = n := by
      rw [List.length_take]
      omega
    simp only [Option.toList_some, List.zipIdx_append, hlength, List.filterMap_append,
      List.zipIdx_cons, List.zipIdx_nil, Option.bind_some, Nat.zero_add]
    cases hinstruction : ofLine? n raw <;> simp [hinstruction]

/-- The instructions of a text are those on all its lines. -/
theorem ofText_eq_before (text : Text) : ofText text = before text (Text.lines text).length := by
  rw [ofText, before, List.take_length]

end Instruction

/-! ### The run of the scan -/

namespace Blocks

/-- Before the first line no block is open. -/
theorem openBefore_zero (vocabulary : Vocabulary) (text : Text) :
    openBefore vocabulary text 0 = [] := by
  simp [openBefore, Instruction.before, scan]

/-- A line without an instruction leaves the open blocks alone. -/
theorem openBefore_succ_of_none (vocabulary : Vocabulary) {text : Text} {n : Nat}
    (h : Instruction.at? text n = none) :
    openBefore vocabulary text (n + 1) = openBefore vocabulary text n := by
  simp [openBefore, Instruction.before_succ, h]

/-- A line with an instruction does to the open blocks what the instruction does. -/
theorem openBefore_succ_of_some (vocabulary : Vocabulary) {text : Text} {n : Nat}
    {instruction : Instruction} (h : Instruction.at? text n = some instruction) :
    openBefore vocabulary text (n + 1) =
      (step vocabulary (openBefore vocabulary text n) instruction).1 := by
  simp [openBefore, Instruction.before_succ, h, scan_append, scan]

/-- The scan of the first lines collects their problems, line by line. -/
theorem scan_before (vocabulary : Vocabulary) (text : Text) (n : Nat) :
    scan vocabulary [] (Instruction.before text n) =
      ((List.range n).flatMap (problemsAt vocabulary text), openBefore vocabulary text n) := by
  -- The blocks are open before the next line by definition; the induction is about the problems.
  induction n with
  | zero => simp [Instruction.before, scan, openBefore]
  | succ n ih =>
    apply Prod.ext
    · rw [Instruction.before_succ, scan_append, ih, List.range_succ, List.flatMap_append]
      cases h : Instruction.at? text n with
      | none => simp [scan, problemsAt, h]
      | some instruction => simp [scan, problemsAt, h]
    · rfl

/-- The problem of a span is on the line of the span. -/
@[simp]
theorem line_report (span : Span) (problem : Problem) :
    (Diagnostic.report span problem).span.line = span.line := by
  unfold Diagnostic.report Span.widen
  split <;> rfl

/-- The problem of a diagnostic is the one that was reported. -/
@[simp]
theorem problem_report (span : Span) (problem : Problem) :
    (Diagnostic.report span problem).problem = problem :=
  rfl

/-- A problem that an instruction has by itself is about its comment, the case of its command, a
missing call target or an unknown command. -/
theorem mem_remarks_cases {vocabulary : Vocabulary} {instruction : Instruction}
    {diagnostic : Diagnostic} (h : diagnostic ∈ instruction.remarks vocabulary) :
    (∃ span, instruction.comment = some span ∧ diagnostic = .report span .inlineComment) ∨
      (Instruction.isMixedCase instruction.command.text = true ∧
        diagnostic =
          .report instruction.commandSpan (.mixedCaseCommand instruction.command.text)) ∨
      (vocabulary.isKnown instruction.name = true ∧ instruction.name = vocabulary.callKeyword ∧
        instruction.argument = none ∧
        diagnostic = .report instruction.commandSpan (.missingCallTarget instruction.name)) ∨
      (vocabulary.isKnown instruction.name = false ∧
        diagnostic =
          .report instruction.commandSpan (.unknownCommand instruction.command.text)) := by
  simp only [Instruction.remarks, List.mem_append, Option.mem_toList, Option.map_eq_some_iff] at h
  rcases h with (⟨span, hspan, rfl⟩ | hcase) | hcommand
  · exact .inl ⟨span, hspan, rfl⟩
  · split at hcase
    · next hmixed => exact .inr (.inl ⟨hmixed, List.mem_singleton.1 hcase⟩)
    · cases hcase
  · split at hcommand
    · next hknown =>
      split at hcommand
      · next hcall =>
        exact .inr (.inr (.inl ⟨hknown, hcall.1, hcall.2, List.mem_singleton.1 hcommand⟩))
      · cases hcommand
    · next hunknown =>
      exact .inr (.inr (.inr ⟨Bool.eq_false_iff.2 hunknown, List.mem_singleton.1 hcommand⟩))

/-- The problems that an instruction has by itself are on the line of its command, if its comment is
there. -/
theorem line_of_mem_remarks {vocabulary : Vocabulary} {instruction : Instruction} {n : Nat}
    {diagnostic : Diagnostic} (hline : instruction.commandSpan.line = n)
    (hcomment : ∀ span, instruction.comment = some span → span.line = n)
    (h : diagnostic ∈ instruction.remarks vocabulary) : diagnostic.span.line = n := by
  rcases mem_remarks_cases h with ⟨span, hspan, rfl⟩ | ⟨-, rfl⟩ | ⟨-, -, -, rfl⟩ | ⟨-, rfl⟩
  · rw [line_report]
    exact hcomment span hspan
  all_goals rw [line_report, hline]

/-- Among the open blocks an instruction has at most one problem, at its command. -/
theorem step_snd (vocabulary : Vocabulary) (blocks : List OpenBlock) (instruction : Instruction) :
    (step vocabulary blocks instruction).2 = [] ∨
      ∃ problem, (step vocabulary blocks instruction).2 =
        [Diagnostic.report instruction.commandSpan problem] := by
  cases hrole : vocabulary.role instruction.name with
  | unknown => simp [step, hrole]
  | opener closer => simp [step, hrole]
  | continuation =>
    simp only [step, hrole]
    split
    · exact .inl rfl
    · exact .inr ⟨_, rfl⟩
  | closer =>
    simp only [step, hrole]
    cases blocks with
    | nil => exact .inr ⟨_, rfl⟩
    | cons block outer =>
      dsimp only
      split
      · exact .inl rfl
      · exact .inr ⟨_, rfl⟩
  | leaveLoop =>
    simp only [step, hrole]
    split
    · exact .inl rfl
    · exact .inr ⟨_, rfl⟩
  | leaveSubroutine =>
    simp only [step, hrole]
    split
    · exact .inl rfl
    · exact .inr ⟨_, rfl⟩
  | plain => simp [step, hrole]

/-- The problems that an instruction makes among the open blocks are about its place there. -/
theorem isOfBlocks_of_mem_step {vocabulary : Vocabulary} {blocks : List OpenBlock}
    {instruction : Instruction} {diagnostic : Diagnostic}
    (h : diagnostic ∈ (step vocabulary blocks instruction).2) :
    diagnostic.problem.isOfBlocks = true := by
  cases hrole : vocabulary.role instruction.name with
  | unknown | opener | plain => simp [step, hrole] at h
  | continuation | leaveLoop | leaveSubroutine =>
    simp only [step, hrole] at h
    split at h
    · cases h
    · cases List.mem_singleton.1 h
      rfl
  | closer =>
    simp only [step, hrole] at h
    split at h
    · cases List.mem_singleton.1 h
      rfl
    · split at h
      · cases h
      · cases List.mem_singleton.1 h
        rfl

/-- The problems that an instruction makes among the open blocks are on the line of its command. -/
theorem line_of_mem_step {vocabulary : Vocabulary} {blocks : List OpenBlock}
    {instruction : Instruction} {diagnostic : Diagnostic}
    (h : diagnostic ∈ (step vocabulary blocks instruction).2) :
    diagnostic.span.line = instruction.commandSpan.line := by
  rcases step_snd vocabulary blocks instruction with hnil | ⟨problem, hone⟩
  · rw [hnil] at h
    cases h
  · rw [hone] at h
    rw [List.mem_singleton.1 h, line_report]

/-- The problems of a line are on that line. -/
theorem line_of_mem_problemsAt {vocabulary : Vocabulary} {text : Text} {n : Nat}
    {diagnostic : Diagnostic} (h : diagnostic ∈ problemsAt vocabulary text n) :
    diagnostic.span.line = n := by
  unfold problemsAt at h
  split at h
  · cases h
  · next instruction hat =>
    obtain ⟨raw, hraw⟩ := Instruction.exists_ofLine?_of_at? hat
    have hline : instruction.commandSpan.line = n := Instruction.line_of_ofLine? hraw
    rcases List.mem_append.1 h with hremark | hstep
    · exact line_of_mem_remarks hline (fun _ => Instruction.comment_line_of_ofLine? hraw) hremark
    · exact (line_of_mem_step hstep).trans hline

/-! ### What an instruction does by its block event -/

/-- The block event of a command follows from its role. -/
theorem event?_eq_of_role (vocabulary : Vocabulary) (command : Text) :
    vocabulary.event? command =
      match vocabulary.role command with
      | .opener _ => some (.opening command)
      | .closer => some (.closing command)
      | _ => none := by
  unfold Vocabulary.event? Vocabulary.role
  -- The tests come in the same order on both sides. The role goes on to ask for the keywords that
  -- leave a loop or a subroutine, which is no block event.
  by_cases hknown : vocabulary.isKnown command
  · cases vocabulary.closerFor? command with
    | some closer => simp [hknown]
    | none =>
      by_cases hdivides : vocabulary.isContinuation command
      · simp [hknown, hdivides]
      · by_cases hcloses : vocabulary.isCloser command
        · simp [hknown, hdivides, hcloses]
        · simp only [hknown, hdivides, hcloses]
          by_cases hbreak : command = vocabulary.breakKeyword
          · rw [if_pos hbreak]
            rfl
          · by_cases hreturn : command = vocabulary.returnKeyword
            · rw [if_neg hbreak, if_pos hreturn]
              rfl
            · rw [if_neg hbreak, if_neg hreturn]
              rfl
  · simp [hknown]

/-- The closer in the role of an opener is the one it requires. -/
theorem closerFor?_of_role {vocabulary : Vocabulary} {command closer : Text}
    (h : vocabulary.role command = .opener closer) :
    vocabulary.closerFor? command = some closer := by
  unfold Vocabulary.role at h
  split at h
  · split at h
    · next hcloser =>
      cases h
      exact hcloser
    · -- A word that requires no closer has another role.
      repeat' split at h
      all_goals cases h
  · cases h

/-- The event of opening a block names the command, which requires a closer. -/
theorem role_of_event?_opening {vocabulary : Vocabulary} {command opener : Text}
    (h : vocabulary.event? command = some (.opening opener)) :
    opener = command ∧
      ∃ closer, vocabulary.closerFor? command = some closer ∧
        vocabulary.role command = .opener closer := by
  rw [event?_eq_of_role] at h
  split at h
  · next closer hrole =>
    cases h
    exact ⟨rfl, closer, closerFor?_of_role hrole, hrole⟩
  · cases h
  · cases h

/-- The event of closing a block names the command, whose role is to close blocks. -/
theorem role_of_event?_closing {vocabulary : Vocabulary} {command closer : Text}
    (h : vocabulary.event? command = some (.closing closer)) :
    closer = command ∧ vocabulary.role command = .closer := by
  rw [event?_eq_of_role] at h
  split at h
  · cases h
  · next hrole =>
    cases h
    exact ⟨rfl, hrole⟩
  · cases h

/-- A command without a block event neither opens nor closes a block. -/
theorem role_of_event?_none {vocabulary : Vocabulary} {command : Text}
    (h : vocabulary.event? command = none) :
    (∀ closer, vocabulary.role command ≠ .opener closer) ∧ vocabulary.role command ≠ .closer := by
  rw [event?_eq_of_role] at h
  split at h
  · cases h
  · cases h
  · next hopener hcloser => exact ⟨hopener, hcloser⟩

/-- An instruction without a block event leaves the open blocks alone, and its problems among them
concern no closer. -/
theorem step_of_event?_none {vocabulary : Vocabulary} {instruction : Instruction}
    (h : vocabulary.event? instruction.name = none) (blocks : List OpenBlock) :
    (step vocabulary blocks instruction).1 = blocks ∧
      ∀ diagnostic ∈ (step vocabulary blocks instruction).2,
        diagnostic.problem.isStrayCloser = false ∧
          diagnostic.problem.isMissingCloser = false := by
  obtain ⟨hopener, hcloser⟩ := role_of_event?_none h
  cases hrole : vocabulary.role instruction.name with
  | unknown => simp [step, hrole]
  | opener closer => exact absurd hrole (hopener closer)
  | continuation =>
    simp only [step, hrole]
    split <;> simp [Problem.isStrayCloser, Problem.isMissingCloser]
  | closer => exact absurd hrole hcloser
  | leaveLoop =>
    simp only [step, hrole]
    split <;> simp [Problem.isStrayCloser, Problem.isMissingCloser]
  | leaveSubroutine =>
    simp only [step, hrole]
    split <;> simp [Problem.isStrayCloser, Problem.isMissingCloser]
  | plain => simp [step, hrole]

/-- An instruction that opens a block puts it on top of the open blocks and has no problem there. -/
theorem step_of_event?_opening {vocabulary : Vocabulary} {instruction : Instruction} {opener : Text}
    (h : vocabulary.event? instruction.name = some (.opening opener)) (blocks : List OpenBlock) :
    ∃ closer, vocabulary.closerFor? opener = some closer ∧
      step vocabulary blocks instruction =
        (⟨opener, closer, instruction.commandSpan⟩ :: blocks, []) := by
  obtain ⟨rfl, closer, hcloser, hrole⟩ := role_of_event?_opening h
  exact ⟨closer, hcloser, by simp [step, hrole]⟩

/-- A closer without an open block is unexpected. -/
theorem step_nil_of_event?_closing {vocabulary : Vocabulary} {instruction : Instruction}
    {closer : Text} (h : vocabulary.event? instruction.name = some (.closing closer)) :
    step vocabulary [] instruction =
      ([], [Diagnostic.report instruction.commandSpan (.unexpectedCloser closer)]) := by
  obtain ⟨rfl, hrole⟩ := role_of_event?_closing h
  simp [step, hrole]

/-- The closer that the innermost block requires closes it. -/
theorem step_of_event?_closing {vocabulary : Vocabulary} {instruction : Instruction}
    {closer : Text} (h : vocabulary.event? instruction.name = some (.closing closer))
    {block : OpenBlock} (hfits : block.closer = closer) (outer : List OpenBlock) :
    step vocabulary (block :: outer) instruction = (outer, []) := by
  obtain ⟨rfl, hrole⟩ := role_of_event?_closing h
  simp [step, hrole, hfits]

/-- Any other closer is reported and closes nothing. -/
theorem step_of_event?_closing_ne {vocabulary : Vocabulary} {instruction : Instruction}
    {closer : Text} (h : vocabulary.event? instruction.name = some (.closing closer))
    {block : OpenBlock} (hmisfit : block.closer ≠ closer) (outer : List OpenBlock) :
    step vocabulary (block :: outer) instruction =
      (block :: outer,
        [Diagnostic.report instruction.commandSpan
          (.mismatchedCloser closer block.closer block.opener block.span.line)]) := by
  obtain ⟨rfl, hrole⟩ := role_of_event?_closing h
  simp [step, hrole, hmisfit]

/-- The problems that an instruction has by itself come before that of its place. -/
theorem rank_of_mem_remarks {vocabulary : Vocabulary} {instruction : Instruction}
    {diagnostic : Diagnostic} (h : diagnostic ∈ instruction.remarks vocabulary) :
    diagnostic.problem.rank < 3 := by
  rcases mem_remarks_cases h with ⟨span, -, rfl⟩ | ⟨-, rfl⟩ | ⟨-, -, -, rfl⟩ | ⟨-, rfl⟩ <;>
    simp [Problem.rank]

/-- The problems of a line come before those of the blocks that are open at the end. -/
theorem rank_of_mem_problemsAt {vocabulary : Vocabulary} {text : Text} {n : Nat}
    {diagnostic : Diagnostic} (h : diagnostic ∈ problemsAt vocabulary text n) :
    diagnostic.problem.rank < 4 := by
  unfold problemsAt at h
  split at h
  · cases h
  · rcases List.mem_append.1 h with hremark | hstep
    · exact Nat.lt_succ_of_lt (rank_of_mem_remarks hremark)
    · rw [Problem.isOfBlocks_iff.1 (isOfBlocks_of_mem_step hstep)]
      decide

/-- The problems that an instruction has by itself concern no closer. -/
theorem remarks_concern_no_closer {vocabulary : Vocabulary} {instruction : Instruction}
    {diagnostic : Diagnostic} (h : diagnostic ∈ instruction.remarks vocabulary) :
    diagnostic.problem.isStrayCloser = false ∧ diagnostic.problem.isMissingCloser = false := by
  have hrank := rank_of_mem_remarks h
  exact Problem.concern_no_closer_of_rank (by omega) (by omega)

end Blocks

/-! ### The diagnostics of a script as a run -/

/-- What a validation reports after the lines and blocks: includes and calls. -/
def symbolProblems (fs : FileSystem) (vocabulary : Vocabulary) (path : Path) (text : Text) :
    List Diagnostic :=
  let known := (Instruction.ofText text).filter fun instruction =>
    vocabulary.isKnown instruction.name
  known.filterMap (·.missingInclude? fs vocabulary path) ++
    known.filterMap (·.unknownCall? vocabulary (visibleSubroutines fs vocabulary path known))

/-- The diagnostics of a script: the problems of its lines, those of the blocks open after the last
line, and those of includes and calls. -/
theorem validate_eq_run (fs : FileSystem) (vocabulary : Vocabulary) (path : Path) (text : Text) :
    validate fs vocabulary path text =
      (List.range (Text.lines text).length).flatMap (Blocks.problemsAt vocabulary text) ++
        (Blocks.openBefore vocabulary text (Text.lines text).length).reverse.map Blocks.unclosed ++
        symbolProblems fs vocabulary path text := by
  rw [validate, symbolProblems, Instruction.ofText_eq_before, Blocks.scan_before]
  simp only [List.append_assoc]

/-- The problem of an include is on the line of the include, after those of the blocks. -/
theorem Instruction.line_rank_of_missingInclude? {fs : FileSystem} {vocabulary : Vocabulary}
    {path : Path} {instruction : Instruction} {diagnostic : Diagnostic}
    (h : instruction.missingInclude? fs vocabulary path = some diagnostic) :
    diagnostic.span.line = instruction.line ∧ diagnostic.problem.rank = 5 := by
  unfold missingInclude? at h
  split at h
  · split at h
    · cases h
    · cases h
      rw [Blocks.line_report]
      cases instruction.argument <;> exact ⟨rfl, rfl⟩
  · cases h

/-- The problem of a call is on the line of the call, after those of the includes. -/
theorem Instruction.line_rank_of_unknownCall? {vocabulary : Vocabulary} {visible : List Text}
    {instruction : Instruction} {diagnostic : Diagnostic}
    (h : instruction.unknownCall? vocabulary visible = some diagnostic) :
    diagnostic.span.line = instruction.line ∧ diagnostic.problem.rank = 6 := by
  unfold unknownCall? at h
  split at h
  · split at h
    · dsimp only at h
      split at h
      · cases h
      · cases h
        rw [Blocks.line_report]
        exact ⟨rfl, rfl⟩
    · cases h
  · cases h

/-- Includes and calls come after the blocks. -/
theorem rank_of_mem_symbolProblems {fs : FileSystem} {vocabulary : Vocabulary} {path : Path}
    {text : Text} {diagnostic : Diagnostic}
    (h : diagnostic ∈ symbolProblems fs vocabulary path text) : 4 < diagnostic.problem.rank := by
  rcases List.mem_append.1 h with hinclude | hcall
  · obtain ⟨instruction, -, hproblem⟩ := List.mem_filterMap.1 hinclude
    rw [(Instruction.line_rank_of_missingInclude? hproblem).2]
    decide
  · obtain ⟨instruction, -, hproblem⟩ := List.mem_filterMap.1 hcall
    rw [(Instruction.line_rank_of_unknownCall? hproblem).2]
    decide

/-- Includes and calls have no problem with closers. -/
theorem symbolProblems_concern_no_closer {fs : FileSystem} {vocabulary : Vocabulary} {path : Path}
    {text : Text} {diagnostic : Diagnostic}
    (h : diagnostic ∈ symbolProblems fs vocabulary path text) :
    diagnostic.problem.isStrayCloser = false ∧ diagnostic.problem.isMissingCloser = false := by
  have hrank := rank_of_mem_symbolProblems h
  exact Problem.concern_no_closer_of_rank (by omega) (by omega)

end ScriptAnalysis
