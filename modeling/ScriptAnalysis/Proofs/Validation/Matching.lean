import ScriptAnalysis.Proofs.Validation.Reading

/-!
# Openers and closers of a script

Every line that opens a block is either closed by a later line or reported as not closed, and every
line that closes a block either closes the innermost open one or is reported, also in a script whose
blocks are in disorder. The pairs of lines that belong together form a matching.

* `eventAt?_eq_bind_lineEvent?`: the block event of a line from its tokens.
* `StillOpen`, `InnermostOpen`: what is open before a line, said of a matching alone.
* `BlockMatching`: a matching of opener lines with closer lines.
* `Blocks.stillOpen_iff`: the open blocks of the run are the lines still open.
* `exists_blockMatching`: the matching of a script and what a validation reports of it.
-/

namespace ScriptAnalysis

/-- The block event of line number `n` of a text. -/
def eventAt? (vocabulary : Vocabulary) (text : Text) (n : Nat) : Option BlockEvent :=
  (Instruction.at? text n).bind fun instruction => vocabulary.event? instruction.name

/-- The block event of a line is told by the first token before the comment of the line. -/
theorem eventAt?_eq_bind_lineEvent? (vocabulary : Vocabulary) (text : Text) (n : Nat) :
    eventAt? vocabulary text n = (Text.lines text)[n]?.bind (lineEvent? vocabulary) := by
  rw [eventAt?, Instruction.at?, Option.bind_assoc]
  simp only [Instruction.bind_event?_ofLine?]

/-- Whether line `i` opens a block that no line before line `j` is matched with. -/
def StillOpen (vocabulary : Vocabulary) (text : Text) (matched : Nat → Nat → Prop) (j i : Nat) :
    Prop :=
  i < j ∧ (∃ opener, eventAt? vocabulary text i = some (.opening opener)) ∧
    ∀ k < j, ¬ matched i k

/-- Whether line `i` is the last of the lines still open before line `j`. -/
def InnermostOpen (vocabulary : Vocabulary) (text : Text) (matched : Nat → Nat → Prop) (j i : Nat) :
    Prop :=
  StillOpen vocabulary text matched j i ∧ ∀ k, StillOpen vocabulary text matched j k → k ≤ i

/-- A matching of the lines that open blocks with the lines that close them. -/
structure BlockMatching (vocabulary : Vocabulary) (text : Text) (matched : Nat → Nat → Prop) :
    Prop where
  /-- A block has one closer. -/
  closer_unique : ∀ i j k, matched i j → matched i k → j = k
  /-- A closer closes one block. -/
  opener_unique : ∀ i j k, matched i k → matched j k → i = j
  /-- The closer is the one that the opener requires. -/
  fits : ∀ i j, matched i j →
    ∃ opener closer, eventAt? vocabulary text i = some (.opening opener) ∧
      eventAt? vocabulary text j = some (.closing closer) ∧
      vocabulary.closerFor? opener = some closer
  /-- A closer closes the innermost block that is still open before it. -/
  innermost : ∀ i j, matched i j → InnermostOpen vocabulary text matched j i

/-- The diagnostics on line number `n` whose problem is one of `kind`. -/
def diagnosticsOn (kind : Problem → Bool) (n : Nat) (diagnostics : List Diagnostic) :
    List Diagnostic :=
  diagnostics.filter fun diagnostic => kind diagnostic.problem && diagnostic.span.line == n

/-- Whether the diagnostics of a text account for its opener lines: one without a partner is
reported once as not closed, at its command, and one with a partner is not. -/
def OpenersAccounted (vocabulary : Vocabulary) (text : Text) (diagnostics : List Diagnostic)
    (matched : Nat → Nat → Prop) : Prop :=
  ∀ i instruction opener closer, Instruction.at? text i = some instruction →
    vocabulary.event? instruction.name = some (.opening opener) →
    vocabulary.closerFor? opener = some closer →
    ((∃ j, matched i j) ∧ diagnosticsOn Problem.isMissingCloser i diagnostics = []) ∨
      ((¬ ∃ j, matched i j) ∧
        diagnosticsOn Problem.isMissingCloser i diagnostics =
          [⟨instruction.commandSpan, .missingCloser opener closer⟩])

/-- Whether the diagnostics of a text account for its closer lines: one with a partner is not
reported, and one without is reported once, at its command. It is unexpected where no line is still
open, and otherwise does not fit the innermost line still open. -/
def ClosersAccounted (vocabulary : Vocabulary) (text : Text) (diagnostics : List Diagnostic)
    (matched : Nat → Nat → Prop) : Prop :=
  ∀ j instruction closer, Instruction.at? text j = some instruction →
    vocabulary.event? instruction.name = some (.closing closer) →
    ((∃ i, matched i j) ∧ diagnosticsOn Problem.isStrayCloser j diagnostics = []) ∨
      ((¬ ∃ i, matched i j) ∧ (∀ i, ¬ StillOpen vocabulary text matched j i) ∧
        diagnosticsOn Problem.isStrayCloser j diagnostics =
          [⟨instruction.commandSpan, .unexpectedCloser closer⟩]) ∨
      ((¬ ∃ i, matched i j) ∧ ∃ i opener expected,
        InnermostOpen vocabulary text matched j i ∧
        eventAt? vocabulary text i = some (.opening opener) ∧
        vocabulary.closerFor? opener = some expected ∧
        diagnosticsOn Problem.isStrayCloser j diagnostics =
          [⟨instruction.commandSpan, .mismatchedCloser closer expected opener i⟩])

namespace Blocks

variable {vocabulary : Vocabulary} {text : Text}

/-- Whether line `j` closes the block that line `i` has opened. -/
def Closes (vocabulary : Vocabulary) (text : Text) (i j : Nat) : Prop :=
  ∃ closer block outer, eventAt? vocabulary text j = some (.closing closer) ∧
    openBefore vocabulary text j = block :: outer ∧ block.closer = closer ∧ block.span.line = i

/-! ### The open blocks line by line -/

/-- The event of a line with an instruction is that of its command. -/
theorem eventAt?_of_at? {n : Nat} {instruction : Instruction}
    (h : Instruction.at? text n = some instruction) :
    eventAt? vocabulary text n = vocabulary.event? instruction.name := by
  rw [eventAt?, h, Option.bind_some]

/-- A line without a closer closes nothing. -/
theorem not_closes {n : Nat} (h : ∀ closer, eventAt? vocabulary text n ≠ some (.closing closer))
    (i : Nat) : ¬ Closes vocabulary text i n := by
  rintro ⟨closer, -, -, hclosing, -⟩
  exact h closer hclosing

/-- A block is closed on a line of the text. -/
theorem lt_length_of_closes {i j : Nat} (h : Closes vocabulary text i j) :
    j < (Text.lines text).length := by
  obtain ⟨closer, block, outer, hclosing, -⟩ := h
  obtain ⟨found, hfound, -⟩ := Option.bind_eq_some_iff.1 hclosing
  exact Instruction.lt_length_of_at? hfound

/-- A line with a closer closes the innermost block, if that requires the closer. -/
theorem closes_iff_of_closing {n i : Nat} {closer : Text}
    (h : eventAt? vocabulary text n = some (.closing closer)) :
    Closes vocabulary text i n ↔ ∃ block outer, openBefore vocabulary text n = block :: outer ∧
      block.closer = closer ∧ block.span.line = i := by
  constructor
  · rintro ⟨other, block, outer, hother, hopen, hcloser, hblock⟩
    rw [h] at hother
    cases hother
    exact ⟨block, outer, hopen, hcloser, hblock⟩
  · rintro ⟨block, outer, hopen, hcloser, hblock⟩
    exact ⟨closer, block, outer, h, hopen, hcloser, hblock⟩

/-- A line with a closer closes nothing and leaves the blocks alone, or takes the innermost block
away and closes that. -/
theorem openBefore_succ_of_closing {n : Nat} {instruction : Instruction} {closer : Text}
    (hat : Instruction.at? text n = some instruction)
    (hevent : vocabulary.event? instruction.name = some (.closing closer)) :
    (openBefore vocabulary text (n + 1) = openBefore vocabulary text n ∧
        ∀ i, ¬ Closes vocabulary text i n) ∨
      ∃ block, openBefore vocabulary text n = block :: openBefore vocabulary text (n + 1) ∧
        ∀ i, Closes vocabulary text i n ↔ block.span.line = i := by
  have hline : eventAt? vocabulary text n = some (.closing closer) :=
    (eventAt?_of_at? hat).trans hevent
  have hnext := openBefore_succ_of_some vocabulary hat
  cases hopen : openBefore vocabulary text n with
  | nil =>
    rw [hopen, step_nil_of_event?_closing hevent] at hnext
    refine .inl ⟨hnext, fun i hi => ?_⟩
    obtain ⟨block, outer, hblock, -⟩ := (closes_iff_of_closing hline).1 hi
    rw [hopen] at hblock
    cases hblock
  | cons block outer =>
    by_cases hfits : block.closer = closer
    · rw [hopen, step_of_event?_closing hevent hfits] at hnext
      refine .inr ⟨block, by rw [hnext], fun i => ?_⟩
      rw [closes_iff_of_closing hline, hopen]
      constructor
      · rintro ⟨other, others, heq, -, hi⟩
        cases heq
        exact hi
      · intro hi
        exact ⟨block, outer, rfl, hfits, hi⟩
    · -- The closer of another block is reported, and the block stays open.
      rw [hopen, step_of_event?_closing_ne hevent hfits] at hnext
      refine .inl ⟨hnext, fun i hi => ?_⟩
      obtain ⟨other, others, hother, hcloser, -⟩ := (closes_iff_of_closing hline).1 hi
      rw [hopen] at hother
      cases hother
      exact hfits hcloser

/-- What a line can do to the open blocks: leave them alone, add its own, or close the innermost. -/
theorem openBefore_succ_cases (vocabulary : Vocabulary) (text : Text) (n : Nat) :
    (openBefore vocabulary text (n + 1) = openBefore vocabulary text n ∧
        (∀ opener, eventAt? vocabulary text n ≠ some (.opening opener)) ∧
        ∀ i, ¬ Closes vocabulary text i n) ∨
      (∃ instruction opener closer, Instruction.at? text n = some instruction ∧
        eventAt? vocabulary text n = some (.opening opener) ∧
        vocabulary.closerFor? opener = some closer ∧
        openBefore vocabulary text (n + 1) =
          ⟨opener, closer, instruction.commandSpan⟩ :: openBefore vocabulary text n ∧
        ∀ i, ¬ Closes vocabulary text i n) ∨
      ∃ block, openBefore vocabulary text n = block :: openBefore vocabulary text (n + 1) ∧
        (∀ opener, eventAt? vocabulary text n ≠ some (.opening opener)) ∧
        ∀ i, Closes vocabulary text i n ↔ block.span.line = i := by
  cases hat : Instruction.at? text n with
  | none =>
    have hnone : eventAt? vocabulary text n = none := by rw [eventAt?, hat, Option.bind_none]
    exact .inl ⟨openBefore_succ_of_none vocabulary hat, by simp [hnone],
      not_closes (by simp [hnone])⟩
  | some instruction =>
    have hline : eventAt? vocabulary text n = vocabulary.event? instruction.name :=
      eventAt?_of_at? hat
    have hnext := openBefore_succ_of_some vocabulary hat
    cases hevent : vocabulary.event? instruction.name with
    | none =>
      rw [(step_of_event?_none hevent _).1] at hnext
      rw [hevent] at hline
      exact .inl ⟨hnext, by simp [hline], not_closes (by simp [hline])⟩
    | some event =>
      rw [hevent] at hline
      cases event with
      | opening opener =>
        obtain ⟨closer, hcloser, hstep⟩ :=
          step_of_event?_opening hevent (openBefore vocabulary text n)
        rw [hstep] at hnext
        exact .inr (.inl ⟨instruction, opener, closer, rfl, hline, hcloser, hnext,
          not_closes (by simp [hline])⟩)
      | closing closer =>
        rcases openBefore_succ_of_closing hat hevent with ⟨hsame, hquiet⟩ | ⟨block, hopen, hcloses⟩
        · exact .inl ⟨hsame, by simp [hline], hquiet⟩
        · exact .inr (.inr ⟨block, hopen, by simp [hline], hcloses⟩)

/-- Whether a block was opened by the instruction on its line. -/
def OpenedBy (vocabulary : Vocabulary) (text : Text) (block : OpenBlock) : Prop :=
  ∃ instruction, Instruction.at? text block.span.line = some instruction ∧
    vocabulary.event? instruction.name = some (.opening block.opener) ∧
    vocabulary.closerFor? block.opener = some block.closer ∧
    block.span = instruction.commandSpan

/-- What holds of the blocks open before line `n`: they were opened by earlier lines, the innermost
by the last of them, and they are the blocks still open. -/
structure Tracks (vocabulary : Vocabulary) (text : Text) (n : Nat) (blocks : List OpenBlock) :
    Prop where
  /-- Every block was opened by its line. -/
  openedBy : ∀ block ∈ blocks, OpenedBy vocabulary text block
  /-- An inner block was opened after an outer one. -/
  sorted : blocks.Pairwise fun inner outer => outer.span.line < inner.span.line
  /-- The blocks are those still open. -/
  stillOpen_iff : ∀ i, (∃ block ∈ blocks, block.span.line = i) ↔
    StillOpen vocabulary text (Closes vocabulary text) n i

/-- One line more leaves open what it is not matched with, and is open itself if it opens a block:
no line up to it closes that block. -/
theorem stillOpen_succ_iff {matched : Nat → Nat → Prop} {n i : Nat}
    (hlater : ∀ k ≤ n, ¬ matched n k) :
    StillOpen vocabulary text matched (n + 1) i ↔
      StillOpen vocabulary text matched n i ∧ ¬ matched i n ∨
        i = n ∧ ∃ opener, eventAt? vocabulary text n = some (.opening opener) := by
  constructor
  · rintro ⟨hlt, hopener, hopen⟩
    rcases Nat.lt_succ_iff_lt_or_eq.1 hlt with hbefore | rfl
    · exact .inl ⟨⟨hbefore, hopener, fun k hk => hopen k (by omega)⟩, hopen n (Nat.lt_succ_self n)⟩
    · exact .inr ⟨rfl, hopener⟩
  · rintro (⟨⟨hlt, hopener, hopen⟩, hlast⟩ | ⟨rfl, hopener⟩)
    · refine ⟨by omega, hopener, fun k hk => ?_⟩
      rcases Nat.lt_succ_iff_lt_or_eq.1 hk with hbefore | rfl
      · exact hopen k hbefore
      · exact hlast
    · exact ⟨Nat.lt_succ_self i, hopener, fun k hk => hlater k (Nat.le_of_lt_succ hk)⟩

namespace Tracks

variable {n : Nat} {blocks : List OpenBlock} {block : OpenBlock}

/-- A line that neither opens nor closes a block keeps what holds of the blocks. -/
theorem keep (h : Tracks vocabulary text n blocks)
    (hlater : ∀ k ≤ n, ¬ Closes vocabulary text n k)
    (hopens : ∀ opener, eventAt? vocabulary text n ≠ some (.opening opener))
    (hcloses : ∀ i, ¬ Closes vocabulary text i n) : Tracks vocabulary text (n + 1) blocks where
  openedBy := h.openedBy
  sorted := h.sorted
  stillOpen_iff i := by
    rw [stillOpen_succ_iff hlater, ← h.stillOpen_iff]
    simp [hcloses, hopens]

/-- The block of a line goes on top of the blocks that are open before the line. -/
theorem push (h : Tracks vocabulary text n blocks)
    (hlater : ∀ k ≤ n, ¬ Closes vocabulary text n k) (hline : block.span.line = n)
    (hopened : OpenedBy vocabulary text block) (hcloses : ∀ i, ¬ Closes vocabulary text i n) :
    Tracks vocabulary text (n + 1) (block :: blocks) where
  openedBy := List.forall_mem_cons.2 ⟨hopened, h.openedBy⟩
  sorted := by
    refine List.pairwise_cons.2 ⟨fun outer houter => ?_, h.sorted⟩
    obtain ⟨hlt, -⟩ := (h.stillOpen_iff outer.span.line).1 ⟨outer, houter, rfl⟩
    exact hline ▸ hlt
  stillOpen_iff i := by
    have hopens : ∃ opener, eventAt? vocabulary text n = some (.opening opener) := by
      obtain ⟨instruction, hat, hevent, -⟩ := hopened
      rw [hline] at hat
      exact ⟨block.opener, (eventAt?_of_at? hat).trans hevent⟩
    rw [stillOpen_succ_iff hlater, ← h.stillOpen_iff, and_iff_left (hcloses i),
      and_iff_left hopens, or_comm, eq_comm]
    simp only [List.mem_cons, exists_eq_or_imp, hline]

/-- A line that closes the innermost block leaves the outer ones. -/
theorem pop (h : Tracks vocabulary text n (block :: blocks))
    (hlater : ∀ k ≤ n, ¬ Closes vocabulary text n k)
    (hopens : ∀ opener, eventAt? vocabulary text n ≠ some (.opening opener))
    (hcloses : ∀ i, Closes vocabulary text i n ↔ block.span.line = i) :
    Tracks vocabulary text (n + 1) blocks where
  openedBy := fun other hother => h.openedBy other (List.mem_cons_of_mem _ hother)
  sorted := h.sorted.of_cons
  stillOpen_iff i := by
    rw [stillOpen_succ_iff hlater, ← h.stillOpen_iff, hcloses]
    simp only [List.mem_cons, exists_eq_or_imp]
    constructor
    · -- An outer block has another line than the innermost.
      rintro ⟨other, hother, rfl⟩
      have hlt := List.rel_of_pairwise_cons h.sorted hother
      exact .inl ⟨.inr ⟨other, hother, rfl⟩, by omega⟩
    · rintro (⟨hinner | houter, hne⟩ | ⟨-, opener, hopener⟩)
      · exact absurd hinner hne
      · exact houter
      · exact absurd hopener (hopens opener)

/-- What a line can do to the blocks keeps what holds of them. -/
theorem succ (h : Tracks vocabulary text n (openBefore vocabulary text n))
    (hearlier : ∀ i j, j ≤ n → Closes vocabulary text i j → i < j) :
    Tracks vocabulary text (n + 1) (openBefore vocabulary text (n + 1)) := by
  have hlater (k : Nat) (hk : k ≤ n) : ¬ Closes vocabulary text n k := fun hcloses =>
    Nat.not_lt_of_le hk (hearlier n k hk hcloses)
  rcases openBefore_succ_cases vocabulary text n with
    ⟨hnext, hopens, hcloses⟩ |
      ⟨instruction, opener, closer, hat, hevent, hcloser, hnext, hcloses⟩ |
      ⟨block, hopen, hopens, hcloses⟩
  · rw [hnext]
    exact h.keep hlater hopens hcloses
  · have hline : instruction.commandSpan.line = n := Instruction.line_of_at? hat
    rw [eventAt?_of_at? hat] at hevent
    rw [hnext]
    exact h.push hlater hline ⟨instruction, by rw [hline, hat], hevent, hcloser, rfl⟩ hcloses
  · rw [hopen] at h
    exact h.pop hlater hopens hcloses

end Tracks

/-- A block is closed after it was opened. -/
theorem lt_of_closes {i j : Nat} (h : Tracks vocabulary text j (openBefore vocabulary text j))
    (hcloses : Closes vocabulary text i j) : i < j := by
  obtain ⟨-, block, outer, -, hopen, -, hline⟩ := hcloses
  exact ((h.stillOpen_iff i).1 ⟨block, by simp [hopen], hline⟩).1

/-- The blocks of the run are tracked before every line. -/
theorem tracks_openBefore (vocabulary : Vocabulary) (text : Text) (n : Nat) :
    Tracks vocabulary text n (openBefore vocabulary text n) := by
  -- That a line closes only earlier blocks is known from the blocks open before that line, so that
  -- the induction has to reach back to every line before.
  induction n using Nat.strongRecOn with
  | ind n ih =>
    cases n with
    | zero =>
      rw [openBefore_zero]
      refine ⟨by simp, List.Pairwise.nil, fun i => ?_⟩
      simp [StillOpen]
    | succ n =>
      exact (ih n (Nat.lt_succ_self n)).succ fun i j hj hcloses =>
        lt_of_closes (ih j (Nat.lt_succ_of_le hj)) hcloses

/-- The blocks open before a line are the lines still open. -/
theorem stillOpen_iff {n i : Nat} :
    StillOpen vocabulary text (Closes vocabulary text) n i ↔
      ∃ block ∈ openBefore vocabulary text n, block.span.line = i :=
  ((tracks_openBefore vocabulary text n).stillOpen_iff i).symm

/-- The first of the blocks open before a line is the innermost line still open. -/
theorem innermostOpen_of_openBefore {n : Nat} {block : OpenBlock} {outer : List OpenBlock}
    (h : openBefore vocabulary text n = block :: outer) :
    InnermostOpen vocabulary text (Closes vocabulary text) n block.span.line := by
  have hsorted := (tracks_openBefore vocabulary text n).sorted
  rw [h] at hsorted
  refine ⟨stillOpen_iff.2 ⟨block, by simp [h], rfl⟩, fun k hk => ?_⟩
  obtain ⟨other, hother, rfl⟩ := stillOpen_iff.1 hk
  rw [h] at hother
  rcases List.mem_cons.1 hother with rfl | hlater
  · exact Nat.le_refl _
  · exact Nat.le_of_lt ((List.pairwise_cons.1 hsorted).1 other hlater)

/-- The lines that close blocks, with the lines whose blocks they close, are a matching. -/
theorem blockMatching_closes (vocabulary : Vocabulary) (text : Text) :
    BlockMatching vocabulary text (Closes vocabulary text) := by
  -- A block that is closed is open before its closer, so that no earlier line has closed it.
  have hfirst (i j k : Nat) (hij : Closes vocabulary text i j) (hik : Closes vocabulary text i k) :
      ¬ j < k := by
    obtain ⟨-, block, outer, -, hopen, -, hline⟩ := hik
    exact fun hlt => (stillOpen_iff.2 ⟨block, by simp [hopen], hline⟩).2.2 j hlt hij
  refine ⟨fun i j k hij hik => ?_, fun i j k hik hjk => ?_, fun i j hij => ?_, fun i j hij => ?_⟩
  · have hle := hfirst i j k hij hik
    have hge := hfirst i k j hik hij
    omega
  · obtain ⟨-, block, outer, -, hopen, -, hi⟩ := hik
    obtain ⟨-, other, others, -, hopen', -, hj⟩ := hjk
    rw [hopen] at hopen'
    cases hopen'
    exact hi.symm.trans hj
  · obtain ⟨closer, block, outer, hevent, hopen, hcloser, rfl⟩ := hij
    obtain ⟨instruction, hat, hopener, hrequired, -⟩ :=
      (tracks_openBefore vocabulary text j).openedBy block (by simp [hopen])
    exact ⟨block.opener, closer, (eventAt?_of_at? hat).trans hopener, hevent, hcloser ▸ hrequired⟩
  · obtain ⟨-, block, outer, -, hopen, -, rfl⟩ := hij
    exact innermostOpen_of_openBefore hopen

/-! ### What a validation reports on a line -/

/-- The problem at the command of a line is reported where the command is. -/
theorem report_commandSpan {n : Nat} {instruction : Instruction}
    (h : Instruction.at? text n = some instruction) (problem : Problem) :
    Diagnostic.report instruction.commandSpan problem = ⟨instruction.commandSpan, problem⟩ := by
  obtain ⟨raw, hraw⟩ := Instruction.exists_ofLine?_of_at? h
  -- The command is a token of its line, and no token is empty, so that the span is not widened.
  have hcommand : instruction.command ∈ Token.scan (codeText raw) := by
    unfold Instruction.ofLine? at hraw
    split at hraw
    · cases hraw
    · split at hraw
      · cases hraw
      · next hscan =>
        cases hraw
        simp [hscan]
  rw [Diagnostic.report, Span.widen_eq_self]
  exact (Token.fits_of_mem_scan hcommand).start_lt_stop

/-- Where the lines of members are different, one line holds one member. -/
theorem filter_line_eq_singleton {blocks : List OpenBlock} {block : OpenBlock}
    (hsorted : blocks.Pairwise fun inner outer => outer.span.line < inner.span.line)
    (hmem : block ∈ blocks) :
    (blocks.filter fun other => other.span.line == block.span.line) = [block] := by
  induction blocks with
  | nil => cases hmem
  | cons first others ih =>
    obtain ⟨hfirst, hothers⟩ := List.pairwise_cons.1 hsorted
    rcases List.mem_cons.1 hmem with rfl | hlater
    · have hnone : (others.filter fun other => other.span.line == block.span.line) = [] := by
        rw [List.filter_eq_nil_iff]
        intro other hother
        have hlt := hfirst other hother
        simp only [beq_iff_eq]
        omega
      rw [List.filter_cons_of_pos (by simp), hnone]
    · have hlt := hfirst block hlater
      have hne : ¬ (first.span.line == block.span.line) = true := by
        simp only [beq_iff_eq]
        omega
      rw [List.filter_cons, if_neg hne, ih hothers hlater]

/-- The line phase reports no missing closer. -/
theorem problemsAt_not_missing {n : Nat} {diagnostic : Diagnostic}
    (h : diagnostic ∈ problemsAt vocabulary text n) :
    diagnostic.problem.isMissingCloser = false := by
  have hrank := rank_of_mem_problemsAt h
  rw [← Bool.not_eq_true, Problem.isMissingCloser_iff]
  omega

/-- The diagnostics on a line in two lists are those in the first and those in the second. -/
theorem diagnosticsOn_append (kind : Problem → Bool) (n : Nat) (first second : List Diagnostic) :
    diagnosticsOn kind n (first ++ second) =
      diagnosticsOn kind n first ++ diagnosticsOn kind n second :=
  List.filter_append ..

/-- Where no problem is of a kind, none on a line is. -/
theorem diagnosticsOn_eq_nil {kind : Problem → Bool} {diagnostics : List Diagnostic}
    (h : ∀ diagnostic ∈ diagnostics, kind diagnostic.problem = false) (n : Nat) :
    diagnosticsOn kind n diagnostics = [] := by
  refine List.filter_eq_nil_iff.2 fun diagnostic hmem => ?_
  simp [h diagnostic hmem]

/-- Of the problems of the first lines, those on one line are the ones of that line. -/
theorem diagnosticsOn_flatMap_problemsAt (kind : Problem → Bool) (vocabulary : Vocabulary)
    (text : Text) {n count : Nat} (h : n < count) :
    diagnosticsOn kind n ((List.range count).flatMap (problemsAt vocabulary text)) =
      (problemsAt vocabulary text n).filter fun diagnostic => kind diagnostic.problem := by
  have hline (m : Nat) : diagnosticsOn kind n (problemsAt vocabulary text m) =
      if m = n then (problemsAt vocabulary text n).filter fun diagnostic => kind diagnostic.problem
      else [] := by
    split
    · next heq =>
      subst heq
      refine List.filter_congr fun diagnostic hmem => ?_
      simp [line_of_mem_problemsAt hmem]
    · next hne =>
      refine List.filter_eq_nil_iff.2 fun diagnostic hmem => ?_
      simp [line_of_mem_problemsAt hmem, hne]
  induction count with
  | zero => omega
  | succ count ih =>
    rw [List.range_succ, List.flatMap_append, List.flatMap_singleton, diagnosticsOn_append, hline]
    rcases Nat.lt_succ_iff_lt_or_eq.1 h with hbefore | rfl
    · rw [ih hbefore, if_neg (Nat.ne_of_gt hbefore), List.append_nil]
    · -- The problems of the lines before have their own numbers.
      have hnone : diagnosticsOn kind n
          ((List.range n).flatMap (problemsAt vocabulary text)) = [] := by
        refine List.filter_eq_nil_iff.2 fun diagnostic hmem => ?_
        obtain ⟨m, hm, hproblem⟩ := List.mem_flatMap.1 hmem
        have hlt := List.mem_range.1 hm
        simp only [line_of_mem_problemsAt hproblem, Bool.and_eq_true, beq_iff_eq, not_and]
        omega
      rw [hnone, if_pos rfl, List.nil_append]

end Blocks

open Blocks

/-- On any line, a validation reports the problems of the line that are of the kind looked for, if
that is a kind of such problems. -/
theorem lineProblemsOn_validate (fs : FileSystem) (vocabulary : Vocabulary) (path : Path)
    (text : Text) {kind : Problem → Bool}
    (hkind : ∀ problem, kind problem = true → problem.rank < 4) (n : Nat) :
    diagnosticsOn kind n (validate fs vocabulary path text) =
      (problemsAt vocabulary text n).filter fun diagnostic => kind diagnostic.problem := by
  have hlater (problem : Problem) (hrank : 4 ≤ problem.rank) : kind problem = false := by
    rw [← Bool.not_eq_true]
    exact fun hproblem => absurd (hkind problem hproblem) (Nat.not_lt_of_le hrank)
  have hunclosed : diagnosticsOn kind n
      ((openBefore vocabulary text (Text.lines text).length).reverse.map unclosed) = [] := by
    refine diagnosticsOn_eq_nil (fun diagnostic hmem => ?_) n
    obtain ⟨block, -, rfl⟩ := List.mem_map.1 hmem
    exact hlater _ (Nat.le_refl 4)
  have hsymbols : diagnosticsOn kind n (symbolProblems fs vocabulary path text) = [] :=
    diagnosticsOn_eq_nil
      (fun _ hmem => hlater _ (Nat.le_of_lt (rank_of_mem_symbolProblems hmem))) n
  rw [validate_eq_run, diagnosticsOn_append, diagnosticsOn_append, hunclosed, hsymbols,
    List.append_nil, List.append_nil]
  rcases Nat.lt_or_ge n (Text.lines text).length with hlt | hge
  · exact diagnosticsOn_flatMap_problemsAt _ _ _ hlt
  · -- Behind the last line there is nothing on either side.
    have hnone : Instruction.at? text n = none := by
      rw [Option.eq_none_iff_forall_ne_some]
      exact fun instruction hat => absurd (Instruction.lt_length_of_at? hat) (Nat.not_lt_of_le hge)
    rw [problemsAt, hnone, List.filter_nil]
    refine List.filter_eq_nil_iff.2 fun diagnostic hmem => ?_
    obtain ⟨m, hm, hproblem⟩ := List.mem_flatMap.1 hmem
    have hlt := List.mem_range.1 hm
    simp only [line_of_mem_problemsAt hproblem, Bool.and_eq_true, beq_iff_eq, not_and]
    omega

/-- On a line with an instruction, a validation reports the problem that the line makes among the
open blocks, if it is of the kind looked for. -/
theorem placeProblemsOn_validate (fs : FileSystem) (vocabulary : Vocabulary) (path : Path)
    {text : Text} {n : Nat} {instruction : Instruction} {kind : Problem → Bool}
    (hkind : ∀ problem, kind problem = true → problem.rank = 3)
    (h : Instruction.at? text n = some instruction) :
    diagnosticsOn kind n (validate fs vocabulary path text) =
      (step vocabulary (openBefore vocabulary text n) instruction).2.filter
        fun diagnostic => kind diagnostic.problem := by
  have hremarks : (instruction.remarks vocabulary).filter
      (fun diagnostic => kind diagnostic.problem) = [] := by
    refine List.filter_eq_nil_iff.2 fun diagnostic hmem hproblem => ?_
    have hrank := rank_of_mem_remarks hmem
    rw [hkind _ hproblem] at hrank
    exact Nat.lt_irrefl 3 hrank
  rw [lineProblemsOn_validate fs vocabulary path text
    (fun problem hproblem => Nat.lt_of_le_of_lt (Nat.le_of_eq (hkind problem hproblem))
      (Nat.lt_succ_self 3)) n, problemsAt, h]
  simp only [List.filter_append, hremarks, List.nil_append]

/-- On any line, a validation reports the blocks opened there that are open after the last line. -/
theorem missingClosersOn_validate (fs : FileSystem) (vocabulary : Vocabulary) (path : Path)
    (text : Text) (n : Nat) :
    diagnosticsOn Problem.isMissingCloser n (validate fs vocabulary path text) =
      ((openBefore vocabulary text (Text.lines text).length).reverse.filter
        fun block => block.span.line == n).map unclosed := by
  have hlines : diagnosticsOn Problem.isMissingCloser n
      ((List.range (Text.lines text).length).flatMap (problemsAt vocabulary text)) = [] := by
    refine diagnosticsOn_eq_nil (fun diagnostic hmem => ?_) n
    obtain ⟨m, -, hproblem⟩ := List.mem_flatMap.1 hmem
    exact problemsAt_not_missing hproblem
  have hsymbols : diagnosticsOn Problem.isMissingCloser n
      (symbolProblems fs vocabulary path text) = [] :=
    diagnosticsOn_eq_nil (fun _ hmem => (symbolProblems_concern_no_closer hmem).2) n
  rw [validate_eq_run, diagnosticsOn_append, diagnosticsOn_append, hlines, hsymbols,
    List.append_nil, List.nil_append, diagnosticsOn, List.filter_map]
  congr 1
  refine List.filter_congr fun block _ => ?_
  simp [unclosed, Problem.isMissingCloser]

/-- The block of an opener line is open after the last line exactly if no line closes it. -/
theorem exists_mem_openBefore_length_iff {vocabulary : Vocabulary} {text : Text} {i : Nat}
    {instruction : Instruction} {opener : Text} (hat : Instruction.at? text i = some instruction)
    (hevent : vocabulary.event? instruction.name = some (.opening opener)) :
    (∃ block ∈ openBefore vocabulary text (Text.lines text).length, block.span.line = i) ↔
      ¬ ∃ j, Closes vocabulary text i j := by
  rw [← stillOpen_iff]
  constructor
  · rintro ⟨-, -, hopen⟩ ⟨j, hcloses⟩
    exact hopen j (lt_length_of_closes hcloses) hcloses
  · intro hopen
    exact ⟨Instruction.lt_length_of_at? hat, ⟨opener, (eventAt?_of_at? hat).trans hevent⟩,
      fun k _ hk => hopen ⟨k, hk⟩⟩

/-- Every opener line is closed or reported. -/
theorem openersAccounted_closes (fs : FileSystem) (vocabulary : Vocabulary) (path : Path)
    (text : Text) :
    OpenersAccounted vocabulary text (validate fs vocabulary path text)
      (Closes vocabulary text) := by
  intro i instruction opener closer hat hevent hcloser
  have htracks := tracks_openBefore vocabulary text (Text.lines text).length
  have hopen := exists_mem_openBefore_length_iff hat hevent
  rw [missingClosersOn_validate, List.filter_reverse]
  by_cases hclosed : ∃ j, Closes vocabulary text i j
  · refine .inl ⟨hclosed, ?_⟩
    have hnone : ((openBefore vocabulary text (Text.lines text).length).filter
        fun block => block.span.line == i) = [] := by
      refine List.filter_eq_nil_iff.2 fun block hmem hline => ?_
      exact hopen.1 ⟨block, hmem, by simpa using hline⟩ hclosed
    rw [hnone]
    rfl
  · -- The block is still there after the last line, once, since its line opened no other.
    obtain ⟨block, hmem, rfl⟩ := hopen.2 hclosed
    obtain ⟨found, hfound, hopener, hrequired, hspan⟩ := htracks.openedBy block hmem
    rw [hat] at hfound
    cases hfound
    rw [hevent] at hopener
    cases hopener
    rw [hcloser] at hrequired
    cases hrequired
    refine .inr ⟨hclosed, ?_⟩
    rw [filter_line_eq_singleton htracks.sorted hmem, List.reverse_singleton, List.map_singleton,
      unclosed, hspan, report_commandSpan hat]

/-- Every closer line closes a block or is reported. -/
theorem closersAccounted_closes (fs : FileSystem) (vocabulary : Vocabulary) (path : Path)
    (text : Text) :
    ClosersAccounted vocabulary text (validate fs vocabulary path text)
      (Closes vocabulary text) := by
  intro j instruction closer hat hevent
  have hline : eventAt? vocabulary text j = some (.closing closer) :=
    (eventAt?_of_at? hat).trans hevent
  rw [placeProblemsOn_validate fs vocabulary path
    (fun problem hstray => Problem.rank_of_isStrayCloser hstray) hat]
  cases hopen : openBefore vocabulary text j with
  | nil =>
    -- Without an open block nothing is still open, and the closer is unexpected.
    refine .inr (.inl ⟨?_, ?_, ?_⟩)
    · rintro ⟨i, -, block, outer, -, hblock, -⟩
      rw [hopen] at hblock
      cases hblock
    · intro i hi
      obtain ⟨block, hmem, -⟩ := stillOpen_iff.1 hi
      rw [hopen] at hmem
      cases hmem
    · rw [step_nil_of_event?_closing hevent, report_commandSpan hat]
      rfl
  | cons block outer =>
    by_cases hfits : block.closer = closer
    · refine .inl ⟨⟨block.span.line, closer, block, outer, hline, hopen, hfits, rfl⟩, ?_⟩
      rw [step_of_event?_closing hevent hfits]
      rfl
    · -- The report names the block on top of the stack, which is the innermost line still open.
      obtain ⟨found, hfound, hopener, hrequired, -⟩ :=
        (tracks_openBefore vocabulary text j).openedBy block (by simp [hopen])
      refine .inr (.inr ⟨?_, block.span.line, block.opener, block.closer,
        innermostOpen_of_openBefore hopen, (eventAt?_of_at? hfound).trans hopener, hrequired,
        ?_⟩)
      · rintro ⟨i, other, found', outer', hclosing, hblock, hcloser, -⟩
        rw [hopen] at hblock
        cases hblock
        rw [hline] at hclosing
        cases hclosing
        exact hfits hcloser
      · rw [step_of_event?_closing_ne hevent hfits, report_commandSpan hat]
        rfl

/-- Every opener and every closer of a script is accounted for once: there is a matching of opener
lines with closer lines such that the lines without a partner are those that a validation
reports. -/
theorem exists_blockMatching (fs : FileSystem) (vocabulary : Vocabulary) (path : Path)
    (text : Text) :
    ∃ matched : Nat → Nat → Prop, BlockMatching vocabulary text matched ∧
      OpenersAccounted vocabulary text (validate fs vocabulary path text) matched ∧
      ClosersAccounted vocabulary text (validate fs vocabulary path text) matched :=
  ⟨Closes vocabulary text, blockMatching_closes vocabulary text,
    openersAccounted_closes fs vocabulary path text,
    closersAccounted_closes fs vocabulary path text⟩

end ScriptAnalysis
