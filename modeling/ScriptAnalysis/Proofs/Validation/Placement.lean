import ScriptAnalysis.Proofs.Validation.Matching

/-!
# Commands outside their blocks

A command that divides conditionals must stand directly in one, and a command that leaves a loop or
a subroutine somewhere inside one. What is open on a line can be said of the lines alone, line by
line from the first: a closer closes the latest line that is open there if that line requires it,
and nothing otherwise. The validator, which keeps the open blocks on a stack, finds the same.

* `OpenAt`, `LatestOpenAt`: the lines that are open at a line, and the latest of them.
* `openAt_iff_stillOpen`: they are the lines of the blocks on the stack.
* `PlacesReported`: which of the commands of a line are reported as misplaced.
* `placesReported_validate`: what a validation reports of the places of commands.
-/

namespace ScriptAnalysis

/-- Whether line `i` opens a block that requires the closer on line `j`. -/
def Requires (vocabulary : Vocabulary) (text : Text) (i j : Nat) : Prop :=
  ∃ opener closer, eventAt? vocabulary text i = some (.opening opener) ∧
    eventAt? vocabulary text j = some (.closing closer) ∧
    vocabulary.closerFor? opener = some closer

/-- Whether line `i` is open at line `k`: it opens a block, and no line from there to line `k`
closes it. A line closes the latest line that is open at it, if that requires its closer. -/
def OpenAt (vocabulary : Vocabulary) (text : Text) (k i : Nat) : Prop :=
  i < k ∧ (∃ opener, eventAt? vocabulary text i = some (.opening opener)) ∧
    ∀ j, j < k → ¬(Requires vocabulary text i j ∧ OpenAt vocabulary text j i ∧
      ∀ m, OpenAt vocabulary text j m → m ≤ i)
termination_by k

/-- Whether line `i` is the latest line that is open at line `k`. -/
def LatestOpenAt (vocabulary : Vocabulary) (text : Text) (k i : Nat) : Prop :=
  OpenAt vocabulary text k i ∧ ∀ m, OpenAt vocabulary text k m → m ≤ i

/-- Whether a problem says that a command stands outside the block that it needs. -/
def Problem.isMisplaced : Problem → Bool
  | misplacedContinuation .. => true
  | misplacedBreak .. => true
  | misplacedReturn .. => true
  | _ => false

/-- Whether the instruction on line `k` has a known command that opens no block. -/
structure InnerAt (vocabulary : Vocabulary) (text : Text) (k : Nat) (instruction : Instruction) :
    Prop where
  /-- It is the instruction of the line. -/
  at_eq : Instruction.at? text k = some instruction
  /-- Its command is known. -/
  known : vocabulary.isKnown instruction.name = true
  /-- The command opens no block. -/
  no_opener : vocabulary.closerFor? instruction.name = none

/-- Whether `found` is the problem of the command of an instruction, if this is not `inside`, and
nothing otherwise. -/
def ReportedOutside (inside : Prop) (instruction : Instruction) (problem : Problem)
    (found : List Diagnostic) : Prop :=
  (inside ∧ found = []) ∨ (¬inside ∧ found = [⟨instruction.commandSpan, problem⟩])

/-- Whether `found` are the problems of line `k` with the places of commands. Of the words that a
command may be, the first counts in this order: an opener, one that divides conditionals, a closer,
one that leaves loops, one that leaves subroutines. -/
structure PlacesReported (vocabulary : Vocabulary) (text : Text) (k : Nat)
    (found : List Diagnostic) : Prop where
  /-- A command that divides conditionals needs the latest line that is open to open one. -/
  divides : ∀ instruction, InnerAt vocabulary text k instruction →
    vocabulary.isContinuation instruction.name = true →
    ReportedOutside
      (∃ i, LatestOpenAt vocabulary text k i ∧
        eventAt? vocabulary text i = some (.opening vocabulary.conditionalKeyword))
      instruction
      (.misplacedContinuation instruction.name vocabulary.conditionalKeyword
        ((vocabulary.closerFor? vocabulary.conditionalKeyword).getD [])) found
  /-- A command that leaves loops needs a line that is open to open one. -/
  leavesLoop : ∀ instruction, InnerAt vocabulary text k instruction →
    vocabulary.isContinuation instruction.name = false →
    vocabulary.isCloser instruction.name = false →
    instruction.name = vocabulary.breakKeyword →
    ReportedOutside
      (∃ i, OpenAt vocabulary text k i ∧
        eventAt? vocabulary text i = some (.opening vocabulary.loopKeyword))
      instruction
      (.misplacedBreak instruction.name vocabulary.loopKeyword
        ((vocabulary.closerFor? vocabulary.loopKeyword).getD [])) found
  /-- A command that leaves subroutines needs a line that is open to open one. -/
  leavesSubroutine : ∀ instruction, InnerAt vocabulary text k instruction →
    vocabulary.isContinuation instruction.name = false →
    vocabulary.isCloser instruction.name = false →
    instruction.name ≠ vocabulary.breakKeyword → instruction.name = vocabulary.returnKeyword →
    ReportedOutside
      (∃ i, OpenAt vocabulary text k i ∧
        eventAt? vocabulary text i = some (.opening vocabulary.subroutineKeyword))
      instruction
      (.misplacedReturn instruction.name vocabulary.subroutineKeyword
        ((vocabulary.closerFor? vocabulary.subroutineKeyword).getD [])) found
  /-- No other line has such a problem. -/
  other : (∀ instruction, InnerAt vocabulary text k instruction →
      vocabulary.isContinuation instruction.name = false ∧
        (vocabulary.isCloser instruction.name = true ∨
          instruction.name ≠ vocabulary.breakKeyword ∧
            instruction.name ≠ vocabulary.returnKeyword)) →
    found = []

variable {vocabulary : Vocabulary} {text : Text} {k i : Nat}

/-! ## The open lines -/

/-- An open line is one that no line closes, the latest open line being the one to be closed. -/
theorem openAt_iff :
    OpenAt vocabulary text k i ↔
      i < k ∧ (∃ opener, eventAt? vocabulary text i = some (.opening opener)) ∧
        ∀ j < k, ¬(Requires vocabulary text i j ∧ LatestOpenAt vocabulary text j i) := by
  rw [OpenAt]
  rfl

namespace Blocks

/-- A line with an open block opens it. -/
theorem eventAt?_of_mem_openBefore {block : OpenBlock} (h : block ∈ openBefore vocabulary text k) :
    eventAt? vocabulary text block.span.line = some (.opening block.opener) ∧
      vocabulary.closerFor? block.opener = some block.closer := by
  obtain ⟨instruction, hat, hevent, hrequired, -⟩ :=
    (tracks_openBefore vocabulary text k).openedBy block h
  exact ⟨(eventAt?_of_at? hat).trans hevent, hrequired⟩

/-- The innermost line still open is that of the first of the open blocks. -/
theorem innermostOpen_iff :
    InnermostOpen vocabulary text (Closes vocabulary text) k i ↔
      ∃ block outer, openBefore vocabulary text k = block :: outer ∧ block.span.line = i := by
  constructor
  · rintro ⟨hopen, hlatest⟩
    obtain ⟨block, hmem, -⟩ := stillOpen_iff.1 hopen
    obtain ⟨first, outer, hblocks⟩ := List.exists_cons_of_ne_nil (List.ne_nil_of_mem hmem)
    obtain ⟨hfirst, hinnermost⟩ := innermostOpen_of_openBefore hblocks
    exact ⟨first, outer, hblocks, Nat.le_antisymm (hlatest _ hfirst) (hinnermost i hopen)⟩
  · rintro ⟨block, outer, hblocks, rfl⟩
    exact innermostOpen_of_openBefore hblocks

/-- A line closes the innermost line still open, if that requires its closer. -/
theorem closes_iff {j : Nat} :
    Closes vocabulary text i j ↔
      Requires vocabulary text i j ∧
        InnermostOpen vocabulary text (Closes vocabulary text) j i := by
  constructor
  · intro h
    have hmatching := blockMatching_closes vocabulary text
    exact ⟨hmatching.fits i j h, hmatching.innermost i j h⟩
  · rintro ⟨⟨opener, closer, hopening, hclosing, hrequired⟩, hinnermost⟩
    obtain ⟨block, outer, hblocks, rfl⟩ := innermostOpen_iff.1 hinnermost
    have hmem : block ∈ openBefore vocabulary text j := by simp [hblocks]
    obtain ⟨hopened, hcloser⟩ := eventAt?_of_mem_openBefore hmem
    rw [hopening] at hopened
    cases hopened
    rw [hrequired] at hcloser
    cases hcloser
    exact ⟨_, block, outer, hclosing, hblocks, rfl, rfl⟩

end Blocks

open Blocks

/-- The lines that are open are those that the run has not closed. -/
theorem openAt_iff_stillOpen :
    OpenAt vocabulary text k i ↔ StillOpen vocabulary text (Closes vocabulary text) k i := by
  -- Both ask whether an earlier line has closed the block, which depends on what is open there.
  induction k using Nat.strongRecOn generalizing i with
  | ind k ih =>
    rw [openAt_iff, StillOpen]
    refine and_congr_right fun _ => and_congr_right fun _ => forall₂_congr fun j hj => ?_
    rw [closes_iff, LatestOpenAt, InnermostOpen, ih j hj]
    simp only [ih j hj]

theorem latestOpenAt_iff_innermostOpen :
    LatestOpenAt vocabulary text k i ↔
      InnermostOpen vocabulary text (Closes vocabulary text) k i := by
  simp only [LatestOpenAt, InnermostOpen, openAt_iff_stillOpen]

/-- A command has opened a line that is open if it has opened a block of the stack. -/
theorem exists_openAt_iff (opener : Text) :
    (∃ i, OpenAt vocabulary text k i ∧ eventAt? vocabulary text i = some (.opening opener)) ↔
      (openBefore vocabulary text k).any (·.opener = opener) = true := by
  simp only [openAt_iff_stillOpen, stillOpen_iff, List.any_eq_true, decide_eq_true_eq]
  constructor
  · rintro ⟨i, ⟨block, hmem, rfl⟩, hopening⟩
    rw [(eventAt?_of_mem_openBefore hmem).1] at hopening
    cases hopening
    exact ⟨block, hmem, rfl⟩
  · rintro ⟨block, hmem, rfl⟩
    exact ⟨_, ⟨block, hmem, rfl⟩, (eventAt?_of_mem_openBefore hmem).1⟩

/-- A command has opened the latest line that is open if it has opened the block on top. -/
theorem exists_latestOpenAt_iff (opener : Text) :
    (∃ i, LatestOpenAt vocabulary text k i ∧
        eventAt? vocabulary text i = some (.opening opener)) ↔
      (openBefore vocabulary text k).head?.any (·.opener = opener) = true := by
  simp only [latestOpenAt_iff_innermostOpen, innermostOpen_iff]
  constructor
  · rintro ⟨i, ⟨block, outer, hblocks, rfl⟩, hopening⟩
    have hmem : block ∈ openBefore vocabulary text k := by simp [hblocks]
    rw [(eventAt?_of_mem_openBefore hmem).1] at hopening
    cases hopening
    simp [hblocks]
  · intro h
    cases hblocks : openBefore vocabulary text k with
    | nil => simp [hblocks] at h
    | cons block outer =>
      have hmem : block ∈ openBefore vocabulary text k := by simp [hblocks]
      obtain rfl : block.opener = opener := by simpa [hblocks] using h
      exact ⟨_, ⟨block, outer, rfl, rfl⟩, (eventAt?_of_mem_openBefore hmem).1⟩

/-! ## What is reported -/

theorem Problem.rank_of_isMisplaced {problem : Problem} (h : problem.isMisplaced = true) :
    problem.rank = 3 := by
  cases problem <;> simp_all [isMisplaced, rank]

/-- The role of a known command that opens no block. -/
theorem InnerAt.role_eq {instruction : Instruction}
    (h : InnerAt vocabulary text k instruction) :
    vocabulary.role instruction.name =
      if vocabulary.isContinuation instruction.name then .continuation
      else if vocabulary.isCloser instruction.name then .closer
      else if instruction.name = vocabulary.breakKeyword then .leaveLoop
      else if instruction.name = vocabulary.returnKeyword then .leaveSubroutine
      else .plain := by
  rw [Vocabulary.role, if_pos h.known, h.no_opener]

/-- An instruction that neither divides a conditional nor leaves a block is not misplaced. -/
theorem Blocks.filter_isMisplaced_step {instruction : Instruction} (blocks : List OpenBlock)
    (hdivides : vocabulary.role instruction.name ≠ .continuation)
    (hloop : vocabulary.role instruction.name ≠ .leaveLoop)
    (hsubroutine : vocabulary.role instruction.name ≠ .leaveSubroutine) :
    ((step vocabulary blocks instruction).2.filter fun diagnostic =>
      diagnostic.problem.isMisplaced) = [] := by
  cases hrole : vocabulary.role instruction.name with
  | unknown | opener | plain => simp [step, hrole]
  | continuation => exact absurd hrole hdivides
  | closer =>
    simp only [step, hrole]
    cases blocks with
    | nil => simp [Problem.isMisplaced]
    | cons block outer =>
      dsimp only
      split <;> simp [Problem.isMisplaced]
  | leaveLoop => exact absurd hrole hloop
  | leaveSubroutine => exact absurd hrole hsubroutine

/-- The problem of a command that needs a block around it is reported unless a test of the open
blocks finds one. -/
theorem reportedOutside_validate (fs : FileSystem) (path : Path) {instruction : Instruction}
    (h : InnerAt vocabulary text k instruction) {inside : Prop} {test : Bool} {problem : Problem}
    (htest : inside ↔ test = true) (hproblem : problem.isMisplaced = true)
    (hstep : (step vocabulary (openBefore vocabulary text k) instruction).2 =
      if test then [] else [Diagnostic.report instruction.commandSpan problem]) :
    ReportedOutside inside instruction problem
      (diagnosticsOn Problem.isMisplaced k (validate fs vocabulary path text)) := by
  rw [placeProblemsOn_validate fs vocabulary path (fun _ => Problem.rank_of_isMisplaced) h.at_eq,
    hstep, report_commandSpan h.at_eq]
  by_cases hinside : test = true
  · exact .inl ⟨htest.2 hinside, by simp [hinside]⟩
  · exact .inr ⟨mt htest.1 hinside, by simp [hinside, hproblem]⟩

/-- Nothing is reported of a command inside its block, and only of such a command. -/
theorem ReportedOutside.eq_nil_iff {inside : Prop} {instruction : Instruction} {problem : Problem}
    {found : List Diagnostic} (h : ReportedOutside inside instruction problem found) :
    found = [] ↔ inside := by
  rcases h with ⟨hinside, rfl⟩ | ⟨houtside, rfl⟩
  · exact iff_of_true rfl hinside
  · exact iff_of_false (List.cons_ne_nil _ _) houtside

/-- On every line, a validation reports a command that divides conditionals unless the latest line
that is open opens one, and a command that leaves loops or subroutines unless some line that is open
opens one. It reports no other command as misplaced. -/
theorem placesReported_validate (fs : FileSystem) (vocabulary : Vocabulary) (path : Path)
    (text : Text) (k : Nat) :
    PlacesReported vocabulary text k
      (diagnosticsOn Problem.isMisplaced k (validate fs vocabulary path text)) where
  divides instruction h hdivides := by
    have hrole := h.role_eq
    rw [if_pos hdivides] at hrole
    refine reportedOutside_validate fs path h (exists_latestOpenAt_iff _) rfl ?_
    simp only [step, hrole, apply_ite Prod.snd]
  leavesLoop instruction h hdivides hcloses hbreak := by
    have hrole := h.role_eq
    rw [hdivides, hcloses, if_neg Bool.false_ne_true, if_neg Bool.false_ne_true, if_pos hbreak]
      at hrole
    refine reportedOutside_validate fs path h (exists_openAt_iff _) rfl ?_
    simp only [step, hrole, apply_ite Prod.snd]
  leavesSubroutine instruction h hdivides hcloses hbreak hreturn := by
    have hrole := h.role_eq
    rw [hdivides, hcloses, if_neg Bool.false_ne_true, if_neg Bool.false_ne_true, if_neg hbreak,
      if_pos hreturn] at hrole
    refine reportedOutside_validate fs path h (exists_openAt_iff _) rfl ?_
    simp only [step, hrole, apply_ite Prod.snd]
  other hother := by
    cases hat : Instruction.at? text k with
    | none =>
      rw [lineProblemsOn_validate fs vocabulary path text (fun problem h => by
        rw [Problem.rank_of_isMisplaced h]
        decide) k, problemsAt, hat, List.filter_nil]
    | some instruction =>
      rw [placeProblemsOn_validate fs vocabulary path (fun _ => Problem.rank_of_isMisplaced) hat]
      -- The command is unknown, an opener, a closer, or none of the words that the roles are about.
      by_cases hknown : vocabulary.isKnown instruction.name = true
      · cases hcloser : vocabulary.closerFor? instruction.name with
        | some closer =>
          have hrole : vocabulary.role instruction.name = .opener closer := by
            rw [Vocabulary.role, if_pos hknown, hcloser]
          exact filter_isMisplaced_step _ (by simp [hrole]) (by simp [hrole]) (by simp [hrole])
        | none =>
          have hinner : InnerAt vocabulary text k instruction := ⟨hat, hknown, hcloser⟩
          obtain ⟨hdivides, hleaves⟩ := hother instruction hinner
          have hrole := hinner.role_eq
          rw [hdivides, if_neg Bool.false_ne_true] at hrole
          rcases hleaves with hcloses | ⟨hbreak, hreturn⟩
          · rw [if_pos hcloses] at hrole
            exact filter_isMisplaced_step _ (by simp [hrole]) (by simp [hrole]) (by simp [hrole])
          · rw [if_neg hbreak, if_neg hreturn] at hrole
            refine filter_isMisplaced_step _ ?_ ?_ ?_ <;> rw [hrole] <;> split <;> simp
      · have hrole : vocabulary.role instruction.name = .unknown := by
          rw [Vocabulary.role, if_neg hknown]
        exact filter_isMisplaced_step _ (by simp [hrole]) (by simp [hrole]) (by simp [hrole])

/-- A closer that does not fit leaves the inner loop open, so that the conditional around it cannot
be divided behind it. The loop can be left from there, but no subroutine can. -/
theorem placesReported_validate_sample :
    let text := "if 1\nelse\nwhile 2\nendif\nelse\nbreak\nreturnsub\n".toList
    let found (k : Nat) := diagnosticsOn Problem.isMisplaced k
      (validate ⟨true, [], []⟩ .standard ⟨"main.osc".toList⟩ text)
    let opens (i : Nat) (opener : String) :=
      eventAt? .standard text i = some (.opening opener.toList)
    ((∃ i, LatestOpenAt .standard text 1 i ∧ opens i "if") ∧ found 1 = []) ∧
      ((¬∃ i, LatestOpenAt .standard text 4 i ∧ opens i "if") ∧
        found 4 = [⟨⟨4, 0, 4⟩,
          .misplacedContinuation "else".toList "if".toList "endif".toList⟩]) ∧
      ((∃ i, OpenAt .standard text 5 i ∧ opens i "while") ∧ found 5 = []) ∧
      ((¬∃ i, OpenAt .standard text 6 i ∧ opens i "subroutine") ∧
        found 6 = [⟨⟨6, 0, 9⟩, .misplacedReturn "returnsub".toList "subroutine".toList
          "endsubroutine".toList⟩]) ∧
      found 3 = [] := by
  intro text found opens
  have hplaces := placesReported_validate ⟨true, [], []⟩ .standard ⟨"main.osc".toList⟩ text
  have hdivides (k : Nat) (instruction : Instruction)
      (h : InnerAt .standard text k instruction) (hname : instruction.name = "else".toList) :=
    (hplaces k).divides instruction h (by rw [hname]; decide +kernel)
  have hfirst := hdivides 1 ⟨1, none, ⟨"else".toList, 0, 4⟩, none⟩
    ⟨by decide +kernel, by decide +kernel, by decide +kernel⟩ (by decide +kernel)
  have hsecond := hdivides 4 ⟨4, none, ⟨"else".toList, 0, 4⟩, none⟩
    ⟨by decide +kernel, by decide +kernel, by decide +kernel⟩ (by decide +kernel)
  have hbreak := (hplaces 5).leavesLoop ⟨5, none, ⟨"break".toList, 0, 5⟩, none⟩
    ⟨by decide +kernel, by decide +kernel, by decide +kernel⟩ (by decide +kernel)
    (by decide +kernel) (by decide +kernel)
  have hreturn := (hplaces 6).leavesSubroutine ⟨6, none, ⟨"returnsub".toList, 0, 9⟩, none⟩
    ⟨by decide +kernel, by decide +kernel, by decide +kernel⟩ (by decide +kernel)
    (by decide +kernel) (by decide +kernel) (by decide +kernel)
  have hfound : found 1 = [] ∧ found 4 ≠ [] ∧ found 5 = [] ∧ found 6 ≠ [] ∧ found 3 = [] := by
    decide +kernel
  obtain ⟨hnone, hsome, hnone', hsome', hlast⟩ := hfound
  refine ⟨⟨hfirst.eq_nil_iff.1 hnone, hnone⟩, ?_, ⟨hbreak.eq_nil_iff.1 hnone', hnone'⟩, ?_, hlast⟩
  · rcases hsecond with ⟨-, hnil⟩ | hreported
    · exact absurd hnil hsome
    · exact hreported
  · rcases hreturn with ⟨-, hnil⟩ | hreported
    · exact absurd hnil hsome'
    · exact hreported

end ScriptAnalysis
