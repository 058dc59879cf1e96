import Mathlib.Data.List.Nodup
import ScriptAnalysis.Proofs.CodeLine
import ScriptAnalysis.Proofs.Validation.Places

/-!
# The order of the diagnostics

A validation lists its diagnostics in four groups: the problems of the lines, the blocks that are
open at the end, the missing includes and the unknown calls. Each group goes through the script from
its first line to its last. The problems of one line come in a fixed order, each kind at most once,
so that no diagnostic is listed twice. A line with an unknown command takes no part in the last
three groups.

* `Diagnostic.Before`: the order within the first group.
* `InPhases`: the four groups of a list of diagnostics.
* `InPhases.nodup`: no line has two diagnostics of one rank.
* `validate_inPhases`: the diagnostics of a script.
-/

namespace ScriptAnalysis

/-- Whether a diagnostic stands on an earlier line than another, or on the same line with an earlier
rank. -/
def Diagnostic.Before (left right : Diagnostic) : Prop :=
  left.span.line < right.span.line ∨
    left.span.line = right.span.line ∧ left.problem.rank < right.problem.rank

/-- The line of a diagnostic and the rank of its problem. -/
def Diagnostic.rankedLine (diagnostic : Diagnostic) : Nat × Nat :=
  (diagnostic.span.line, diagnostic.problem.rank)

/-- Whether diagnostics consist of the problems of lines, missing closers, missing includes and
unknown calls, each in the order of the lines. -/
structure InPhases (diagnostics lines blocks includes calls : List Diagnostic) : Prop where
  /-- The groups follow one another. -/
  eq_append : diagnostics = lines ++ blocks ++ includes ++ calls
  /-- The first group holds comments, the case of commands, unknown commands and missing call
  targets, and the places of commands among the blocks. -/
  rank_lines : ∀ diagnostic ∈ lines, diagnostic.problem.rank < 4
  /-- On one line, they come in this order, at most one of each. -/
  pairwise_lines : lines.Pairwise Diagnostic.Before
  /-- The second group holds missing closers. -/
  rank_blocks : ∀ diagnostic ∈ blocks, diagnostic.problem.rank = 4
  /-- They are on different lines. -/
  pairwise_blocks : blocks.Pairwise fun left right => left.span.line < right.span.line
  /-- The third group holds missing includes. -/
  rank_includes : ∀ diagnostic ∈ includes, diagnostic.problem.rank = 5
  /-- They are on different lines. -/
  pairwise_includes : includes.Pairwise fun left right => left.span.line < right.span.line
  /-- The fourth group holds unknown calls. -/
  rank_calls : ∀ diagnostic ∈ calls, diagnostic.problem.rank = 6
  /-- They are on different lines. -/
  pairwise_calls : calls.Pairwise fun left right => left.span.line < right.span.line

/-- No line has two diagnostics of one rank. -/
theorem InPhases.nodup {diagnostics lines blocks includes calls : List Diagnostic}
    (h : InPhases diagnostics lines blocks includes calls) :
    (diagnostics.map Diagnostic.rankedLine).Nodup := by
  have hlines {group : List Diagnostic}
      (hgroup : group.Pairwise fun left right => left.span.line < right.span.line) :
      group.Pairwise fun left right => left.rankedLine ≠ right.rankedLine :=
    hgroup.imp fun hlt heq => Nat.ne_of_lt hlt (congrArg Prod.fst heq)
  have hfirst : lines.Pairwise fun left right => left.rankedLine ≠ right.rankedLine := by
    refine h.pairwise_lines.imp fun hbefore heq => ?_
    rcases hbefore with hline | ⟨-, hrank⟩
    · exact Nat.ne_of_lt hline (congrArg Prod.fst heq)
    · exact Nat.ne_of_lt hrank (congrArg Prod.snd heq)
  -- Diagnostics of different groups have different ranks.
  have hapart {left right : Diagnostic} (hrank : left.problem.rank < right.problem.rank) :
      left.rankedLine ≠ right.rankedLine := fun heq =>
    Nat.ne_of_lt hrank (congrArg Prod.snd heq)
  rw [List.Nodup, List.pairwise_map, h.eq_append]
  refine List.pairwise_append.2 ⟨List.pairwise_append.2 ⟨List.pairwise_append.2
    ⟨hfirst, hlines h.pairwise_blocks, ?_⟩, hlines h.pairwise_includes, ?_⟩,
    hlines h.pairwise_calls, ?_⟩
  · intro left hleft right hright
    exact hapart (by rw [h.rank_blocks right hright]; exact h.rank_lines left hleft)
  · intro left hleft right hright
    refine hapart ?_
    rw [h.rank_includes right hright]
    rcases List.mem_append.1 hleft with hleft | hleft
    · exact Nat.lt_succ_of_lt (h.rank_lines left hleft)
    · rw [h.rank_blocks left hleft]
      decide
  · intro left hleft right hright
    refine hapart ?_
    rw [h.rank_calls right hright]
    rcases List.mem_append.1 hleft with hleft | hleft
    · rcases List.mem_append.1 hleft with hleft | hleft
      · have hrank := h.rank_lines left hleft
        omega
      · rw [h.rank_blocks left hleft]
        decide
    · rw [h.rank_includes left hleft]
      decide

variable {fs : FileSystem} {vocabulary : Vocabulary} {path : Path} {text : Text}

/-! ## The order within the groups -/

namespace Instruction

/-- The instructions of a text are in the order of their lines. -/
theorem pairwise_ofText (text : Text) :
    (ofText text).Pairwise fun left right => left.line < right.line :=
  pairwise_filterMap_zipIdx (fun _ _ hread => line_of_ofLine? hread) (Text.lines text)

/-- An instruction of a text is the one on its line. -/
theorem at?_of_mem_ofText {instruction : Instruction} (h : instruction ∈ ofText text) :
    at? text instruction.line = some instruction := by
  obtain ⟨raw, hon⟩ := exists_isOn_of_mem_ofText h
  rw [at?, hon.line_eq, Option.bind_some, hon.ofLine?_eq]

/-- What is reported of known instructions, at most once and on its line, is in the order of the
lines. -/
theorem pairwise_filterMap_ofText {problem? : Instruction → Option Diagnostic}
    (hline : ∀ instruction diagnostic, problem? instruction = some diagnostic →
      diagnostic.span.line = instruction.line)
    (known : Instruction → Bool) :
    (((ofText text).filter known).filterMap problem?).Pairwise fun left right =>
      left.span.line < right.span.line := by
  refine List.Pairwise.filterMap _ (fun left right hlt found hfound found' hfound' => ?_)
    ((pairwise_ofText text).filter known)
  rw [hline left found hfound, hline right found' hfound']
  exact hlt

end Instruction

namespace Blocks

/-- The problems of an instruction come in the order of their ranks, each rank at most once. -/
theorem pairwise_rank_remarks (vocabulary : Vocabulary) (instruction : Instruction) :
    (instruction.remarks vocabulary).Pairwise fun left right =>
      left.problem.rank < right.problem.rank := by
  unfold Instruction.remarks
  -- Each of the three parts holds at most one problem.
  cases instruction.comment <;> split_ifs <;> simp [Problem.rank]

/-- So do the problems of a line. -/
theorem pairwise_rank_problemsAt (vocabulary : Vocabulary) (text : Text) (n : Nat) :
    (problemsAt vocabulary text n).Pairwise fun left right =>
      left.problem.rank < right.problem.rank := by
  unfold problemsAt
  split
  · exact List.Pairwise.nil
  · next instruction _ =>
    refine List.pairwise_append.2 ⟨pairwise_rank_remarks vocabulary instruction, ?_,
      fun left hleft right hright => ?_⟩
    · rcases step_snd vocabulary (openBefore vocabulary text n) instruction with
        hnone | ⟨problem, hone⟩
      · rw [hnone]
        exact List.Pairwise.nil
      · rw [hone]
        exact List.pairwise_singleton _ _
    · rw [Problem.isOfBlocks_iff.1 (isOfBlocks_of_mem_step hright)]
      exact rank_of_mem_remarks hleft

/-- The problems of the lines are in the order of the lines, those of one line in that of their
ranks. -/
theorem pairwise_before_problemsAt (vocabulary : Vocabulary) (text : Text) (count : Nat) :
    ((List.range count).flatMap (problemsAt vocabulary text)).Pairwise Diagnostic.Before := by
  refine List.pairwise_flatMap.2 ⟨fun n _ => ?_, List.pairwise_lt_range.imp fun hlt => ?_⟩
  · refine (pairwise_rank_problemsAt vocabulary text n).imp_of_mem fun hleft hright hrank => ?_
    rw [Diagnostic.Before, line_of_mem_problemsAt hleft, line_of_mem_problemsAt hright]
    exact .inr ⟨rfl, hrank⟩
  · intro left hleft right hright
    rw [Diagnostic.Before, line_of_mem_problemsAt hleft, line_of_mem_problemsAt hright]
    exact .inl hlt

/-- The blocks that are open are reported from the outermost to the innermost, which is the order of
their lines. -/
theorem pairwise_line_unclosed (vocabulary : Vocabulary) (text : Text) (n : Nat) :
    ((openBefore vocabulary text n).reverse.map unclosed).Pairwise fun left right =>
      left.span.line < right.span.line := by
  rw [List.pairwise_map, List.pairwise_reverse]
  refine (tracks_openBefore vocabulary text n).sorted.imp fun hlt => ?_
  rwa [unclosed, unclosed, line_report, line_report]

end Blocks

open Blocks

/-- The diagnostics of a script are the problems of its lines, the blocks that are open at the end,
the missing includes and the unknown calls. -/
theorem inPhases_validate (fs : FileSystem) (vocabulary : Vocabulary) (path : Path) (text : Text) :
    ∃ lines blocks includes calls,
      InPhases (validate fs vocabulary path text) lines blocks includes calls := by
  -- The groups are those of the run; what is left are the ranks of their members.
  refine ⟨_, _, _, _, (validate_eq_run fs vocabulary path text).trans
    (List.append_assoc _ _ _).symm, ?_, pairwise_before_problemsAt vocabulary text _, ?_,
    pairwise_line_unclosed vocabulary text _, ?_,
    Instruction.pairwise_filterMap_ofText
      (fun _ _ h => (Instruction.line_rank_of_missingInclude? h).1) _, ?_,
    Instruction.pairwise_filterMap_ofText
      (fun _ _ h => (Instruction.line_rank_of_unknownCall? h).1) _⟩
  · intro diagnostic hmem
    obtain ⟨n, -, hproblem⟩ := List.mem_flatMap.1 hmem
    exact rank_of_mem_problemsAt hproblem
  · intro diagnostic hmem
    obtain ⟨block, -, rfl⟩ := List.mem_map.1 hmem
    rfl
  · intro diagnostic hmem
    obtain ⟨instruction, -, hproblem⟩ := List.mem_filterMap.1 hmem
    exact (Instruction.line_rank_of_missingInclude? hproblem).2
  · intro diagnostic hmem
    obtain ⟨instruction, -, hproblem⟩ := List.mem_filterMap.1 hmem
    exact (Instruction.line_rank_of_unknownCall? hproblem).2

/-! ## Lines with an unknown command -/

/-- A diagnostic with a rank below four is a problem of its line. -/
theorem mem_problemsAt_of_rank {diagnostic : Diagnostic}
    (h : diagnostic ∈ validate fs vocabulary path text) (hrank : diagnostic.problem.rank < 4) :
    diagnostic ∈ problemsAt vocabulary text diagnostic.span.line := by
  rw [validate_eq_run, List.mem_append, List.mem_append] at h
  rcases h with (hline | hblock) | hsymbol
  · obtain ⟨n, -, hproblem⟩ := List.mem_flatMap.1 hline
    rwa [line_of_mem_problemsAt hproblem]
  · obtain ⟨block, -, rfl⟩ := List.mem_map.1 hblock
    exact absurd hrank (by simp [unclosed, Problem.rank])
  · have hsymbols := rank_of_mem_symbolProblems hsymbol
    omega

/-- An unknown command is reported on the line of an instruction with such a command. -/
theorem at?_of_unknownCommand {diagnostic : Diagnostic}
    (h : diagnostic ∈ validate fs vocabulary path text) {command : Text}
    (hproblem : diagnostic.problem = .unknownCommand command) :
    ∃ instruction, Instruction.at? text diagnostic.span.line = some instruction ∧
      vocabulary.isKnown instruction.name = false := by
  have hmem := mem_problemsAt_of_rank h (by simp [hproblem, Problem.rank])
  unfold problemsAt at hmem
  split at hmem
  · cases hmem
  · next instruction hat =>
    refine ⟨instruction, hat, ?_⟩
    rcases List.mem_append.1 hmem with hremark | hstep
    · rcases mem_remarks_cases hremark with
        ⟨span, -, rfl⟩ | ⟨-, rfl⟩ | ⟨-, -, -, rfl⟩ | ⟨hunknown, -⟩
      · cases hproblem
      · cases hproblem
      · cases hproblem
      · exact hunknown
    · have hplace := isOfBlocks_of_mem_step hstep
      rw [hproblem] at hplace
      cases hplace

/-- On the line of an unknown command, only the command by itself and a comment have problems. -/
theorem rank_lt_three_of_unknown {instruction : Instruction} {n : Nat}
    (hat : Instruction.at? text n = some instruction)
    (hunknown : vocabulary.isKnown instruction.name = false) {diagnostic : Diagnostic}
    (h : diagnostic ∈ validate fs vocabulary path text) (hline : diagnostic.span.line = n) :
    diagnostic.problem.rank < 3 := by
  -- A known instruction is on another line.
  have hother {known : Instruction} (hmem : known ∈ (Instruction.ofText text).filter
      fun instruction => vocabulary.isKnown instruction.name) : known.line ≠ n := by
    rintro rfl
    obtain ⟨hmem, hknown⟩ := List.mem_filter.1 hmem
    rw [Instruction.at?_of_mem_ofText hmem] at hat
    cases hat
    rw [hunknown] at hknown
    cases hknown
  rw [validate_eq_run, List.mem_append, List.mem_append] at h
  rcases h with (hproblem | hblock) | hsymbol
  · -- Among the blocks an unknown command has no role, and so no problem.
    obtain ⟨m, -, hproblem⟩ := List.mem_flatMap.1 hproblem
    obtain rfl := (line_of_mem_problemsAt hproblem).symm.trans hline
    have hrole : vocabulary.role instruction.name = .unknown := by
      simp [Vocabulary.role, hunknown]
    simp only [problemsAt, hat, step, hrole, List.append_nil] at hproblem
    exact rank_of_mem_remarks hproblem
  · -- It opens no block either that could be left open.
    obtain ⟨block, hmem, rfl⟩ := List.mem_map.1 hblock
    rw [unclosed, line_report] at hline
    obtain ⟨opening, hopening, hevent, -⟩ := (tracks_openBefore vocabulary text _).openedBy block
      (List.mem_reverse.1 hmem)
    rw [hline, hat] at hopening
    cases hopening
    rw [Vocabulary.event?, if_pos hunknown] at hevent
    cases hevent
  · rcases List.mem_append.1 hsymbol with hinclude | hcall
    · obtain ⟨known, hmem, hproblem⟩ := List.mem_filterMap.1 hinclude
      exact absurd ((Instruction.line_rank_of_missingInclude? hproblem).1.symm.trans hline)
        (hother hmem)
    · obtain ⟨known, hmem, hproblem⟩ := List.mem_filterMap.1 hcall
      exact absurd ((Instruction.line_rank_of_unknownCall? hproblem).1.symm.trans hline)
        (hother hmem)

/-- The diagnostics of a script are in four groups, each from the first line to the last: the
problems of the lines, those of one line in the order of their ranks; the blocks that are open at
the end; the missing includes; the unknown calls. No line has two diagnostics of one rank, so that
none is listed twice. Where a command is unknown, the line has no other diagnostics than for a
comment and the case of the command. -/
theorem validate_inPhases (fs : FileSystem) (vocabulary : Vocabulary) (path : Path) (text : Text) :
    (∃ lines blocks includes calls,
      InPhases (validate fs vocabulary path text) lines blocks includes calls) ∧
    ((validate fs vocabulary path text).map Diagnostic.rankedLine).Nodup ∧
    (validate fs vocabulary path text).Nodup ∧
    ∀ diagnostic ∈ validate fs vocabulary path text, ∀ command,
      diagnostic.problem = .unknownCommand command →
      ∀ other ∈ validate fs vocabulary path text, other.span.line = diagnostic.span.line →
        other = diagnostic ∨ other.problem = .inlineComment ∨
          ∃ mixed, other.problem = .mixedCaseCommand mixed := by
  obtain ⟨lines, blocks, includes, calls, hphases⟩ := inPhases_validate fs vocabulary path text
  refine ⟨⟨lines, blocks, includes, calls, hphases⟩, hphases.nodup, hphases.nodup.of_map _,
    fun diagnostic hmem command hproblem other hother hline => ?_⟩
  obtain ⟨instruction, hat, hunknown⟩ := at?_of_unknownCommand hmem hproblem
  have hrank := rank_lt_three_of_unknown hat hunknown hother hline
  -- Of the ranks below three, that of the unknown command is taken.
  cases hkind : other.problem with
  | inlineComment => exact .inr (.inl rfl)
  | mixedCaseCommand mixed => exact .inr (.inr ⟨mixed, rfl⟩)
  | unknownCommand _ | missingCallTarget _ =>
    refine .inl (List.inj_on_of_nodup_map hphases.nodup hother hmem (Prod.ext hline ?_))
    simp only [Diagnostic.rankedLine, hkind, hproblem, Problem.rank]
  | _ => simp [hkind, Problem.rank] at hrank

/-- A script with a problem of every group. The unknown command on its first line is in mixed case
and has a comment behind it. -/
theorem validate_inPhases_sample :
    let text := "Foo #c\ngosub\nelse\nif 1\ninclude gone\ngosub lost\n".toList
    let found := validate ⟨true, [], []⟩ .standard ⟨"main.osc".toList⟩ text
    found.map Diagnostic.rankedLine =
        [(0, 0), (0, 1), (0, 2), (1, 2), (2, 3), (3, 4), (4, 5), (5, 6)] ∧
      (∃ lines blocks includes calls, InPhases found lines blocks includes calls) ∧
      found.Nodup ∧
      ∃ diagnostic ∈ found, diagnostic.problem = .unknownCommand "Foo".toList ∧
        ∀ other ∈ found, other.span.line = diagnostic.span.line →
          other = diagnostic ∨ other.problem = .inlineComment ∨
            ∃ mixed, other.problem = .mixedCaseCommand mixed := by
  intro text found
  obtain ⟨hphases, -, hnodup, honly⟩ :=
    validate_inPhases ⟨true, [], []⟩ .standard ⟨"main.osc".toList⟩ text
  have hunknown : (⟨⟨0, 0, 3⟩, .unknownCommand "Foo".toList⟩ : Diagnostic) ∈ found := by
    decide +kernel
  exact ⟨by decide +kernel, hphases, hnodup, _, hunknown, rfl, honly _ hunknown _ rfl⟩

end ScriptAnalysis
