import ScriptAnalysis.Proofs.Token.Cut
import ScriptAnalysis.Proofs.Validation.Inert

/-!
# What a diagnostic points at

A diagnostic points at a part of an instruction: its comment, its command or its argument. The part
is not empty and lies within its line, so that no span is ever widened, and its characters are what
the problem speaks of. This holds as well for what is reported long after the line was read: blocks
that are never closed, includes that cannot be resolved, and calls of unknown subroutines.

* `Span.textOn`: the characters at a place.
* `Problem.ReadAt`: what a problem says of the characters at its place.
* `Diagnostic.PointsTo`: a diagnostic that points at a part of an instruction.
* `pointsTo_of_mem_validate`: every diagnostic of a script does.
-/

namespace ScriptAnalysis

/-- The characters of a line in the columns of a span. -/
def Span.textOn (raw : Text) (span : Span) : Text :=
  (raw.take span.stop).drop span.start

namespace Instruction

/-- The places of the parts of an instruction. -/
def spans (instruction : Instruction) : List Span :=
  instruction.commandSpan ::
    ((instruction.argument.map (·.span instruction.line)).toList ++ instruction.comment.toList)

/-- Whether an instruction is what the validator reads on a line of a text with the characters
`raw`. -/
structure IsOn (text raw : Text) (instruction : Instruction) : Prop where
  /-- The line of the text has these characters. -/
  line_eq : (Text.lines text)[instruction.line]? = some raw
  /-- The instruction is read from them. -/
  ofLine?_eq : ofLine? instruction.line raw = some instruction

end Instruction

/-- What a problem says of the characters at its place on a line of a text, on which `raw` are the
characters and `instruction` is read. -/
def Problem.ReadAt (vocabulary : Vocabulary) (text raw : Text) (instruction : Instruction)
    (span : Span) : Problem → Prop
  | inlineComment => StartsComment raw span.start ∧ span.stop = raw.length
  | mixedCaseCommand command => span.textOn raw = command
  | unknownCommand command => span.textOn raw = command
  | missingCallTarget command => Text.lowercase (span.textOn raw) = command
  | misplacedContinuation keyword _ _ => Text.lowercase (span.textOn raw) = keyword
  | unexpectedCloser closer => Text.lowercase (span.textOn raw) = closer
  | mismatchedCloser closer _ opener openedOn =>
    Text.lowercase (span.textOn raw) = closer ∧ openedOn < span.line ∧
      ∃ opening, Instruction.at? text openedOn = some opening ∧ opening.name = opener
  | missingCloser opener _ => Text.lowercase (span.textOn raw) = opener
  | misplacedBreak keyword _ _ => Text.lowercase (span.textOn raw) = keyword
  | misplacedReturn keyword _ _ => Text.lowercase (span.textOn raw) = keyword
  | includeNotFound target =>
    match instruction.argument with
    | some _ => stripQuotes (span.textOn raw) = target
    -- Without an argument, the command is what can be pointed at.
    | none => vocabulary.isInclude (Text.lowercase (span.textOn raw)) = true ∧ target = []
  | unknownSubroutine name => Text.lowercase (span.textOn raw) = name

/-- Whether a diagnostic points at a part of an instruction that is read on a line of a text with
the characters `raw`. -/
structure Diagnostic.PointsTo (vocabulary : Vocabulary) (text raw : Text)
    (instruction : Instruction) (diagnostic : Diagnostic) : Prop where
  /-- The instruction is read on the line of the diagnostic. -/
  line_eq : diagnostic.span.line = instruction.line
  /-- This is a line of the text. -/
  isOn : instruction.IsOn text raw
  /-- The place is that of a part of the instruction, not widened. -/
  mem_spans : diagnostic.span ∈ instruction.spans
  /-- The place holds a column. -/
  start_lt_stop : diagnostic.span.start < diagnostic.span.stop
  /-- The place is within the line. -/
  stop_le : diagnostic.span.stop ≤ raw.length
  /-- The characters there are what the problem speaks of. -/
  readAt : diagnostic.problem.ReadAt vocabulary text raw instruction diagnostic.span

/-! ## The parts of an instruction -/

namespace Token.Fits

variable {raw : Text} {token : Token}

/-- At the place of a token stand the characters of the token. -/
theorem textOn_span (h : Fits 0 raw token) (line : Nat) :
    (token.span line).textOn raw = token.text := by
  have htext := h.text_eq
  rw [Nat.sub_zero, Nat.sub_zero] at htext
  exact htext.symm

/-- A problem at the place of a token is reported there, since the token is not empty. -/
theorem report_span (h : Fits 0 raw token) (line : Nat) (problem : Problem) :
    Diagnostic.report (token.span line) problem = ⟨token.span line, problem⟩ := by
  rw [Diagnostic.report, Span.widen_eq_self]
  exact h.start_lt_stop

end Token.Fits

namespace Instruction

variable {text raw : Text} {instruction : Instruction}

/-- The instruction with a line number is read on that line. -/
theorem exists_isOn_of_at? {n : Nat} (h : at? text n = some instruction) :
    instruction.line = n ∧ ∃ raw, instruction.IsOn text raw := by
  obtain ⟨raw, hraw, hinstruction⟩ := Option.bind_eq_some_iff.1 h
  have hline := line_of_ofLine? hinstruction
  exact ⟨hline, raw, by rwa [hline], by rwa [hline]⟩

/-- An instruction of a text is read on its line. -/
theorem exists_isOn_of_mem_ofText (h : instruction ∈ ofText text) :
    ∃ raw, instruction.IsOn text raw := by
  obtain ⟨⟨raw, n⟩, hraw, hinstruction⟩ := List.mem_filterMap.1 h
  have hline := line_of_ofLine? hinstruction
  refine ⟨raw, ?_, by rwa [hline]⟩
  rw [hline]
  exact List.mem_zipIdx_iff_getElem?.1 hraw

/-- The command and the argument of an instruction are parts of its line. -/
theorem IsOn.fits (h : instruction.IsOn text raw) :
    Token.Fits 0 raw instruction.command ∧
      ∀ argument, instruction.argument = some argument → Token.Fits 0 raw argument := by
  -- What is divided is the line up to its comment.
  have htokens (token : Token) (htoken : token ∈ Token.scan (codeText raw)) :
      Token.Fits 0 raw token := by
    have hfits := Token.fits_of_mem_scan htoken
    rw [codeText] at hfits
    split at hfits
    · exact hfits.of_take
    · exact hfits
  have hread := h.ofLine?_eq
  rw [ofLine?] at hread
  split at hread
  · cases hread
  · split at hread
    · cases hread
    · next command arguments hscan =>
      rw [← Option.some.inj hread]
      rw [hscan] at htokens
      refine ⟨htokens command List.mem_cons_self, fun argument hargument => ?_⟩
      exact htokens argument (List.mem_cons_of_mem _ (List.mem_of_head? hargument))

end Instruction

/-! ## The problems of one instruction -/

namespace Diagnostic

variable {fs : FileSystem} {vocabulary : Vocabulary} {path : Path} {text raw : Text}
  {instruction : Instruction} {diagnostic : Diagnostic}

/-- A problem at a token of an instruction points there, if it speaks of the token. -/
theorem pointsTo_token (hon : instruction.IsOn text raw) {token : Token}
    (hfits : Token.Fits 0 raw token) (hmem : token.span instruction.line ∈ instruction.spans)
    {problem : Problem}
    (hread : problem.ReadAt vocabulary text raw instruction (token.span instruction.line)) :
    (report (token.span instruction.line) problem).PointsTo vocabulary text raw instruction := by
  have hstop := hfits.stop_le
  rw [Nat.zero_add] at hstop
  rw [hfits.report_span]
  exact ⟨rfl, hon, hmem, hfits.start_lt_stop, hstop, hread⟩

theorem pointsTo_command (hon : instruction.IsOn text raw) {problem : Problem}
    (hread : problem.ReadAt vocabulary text raw instruction instruction.commandSpan) :
    (report instruction.commandSpan problem).PointsTo vocabulary text raw instruction :=
  pointsTo_token hon hon.fits.1 List.mem_cons_self hread

theorem pointsTo_argument (hon : instruction.IsOn text raw) {argument : Token}
    (hargument : instruction.argument = some argument) {problem : Problem}
    (hread : problem.ReadAt vocabulary text raw instruction (argument.span instruction.line)) :
    (report (argument.span instruction.line) problem).PointsTo vocabulary text raw
      instruction := by
  refine pointsTo_token hon (hon.fits.2 argument hargument) ?_ hread
  simp [Instruction.spans, hargument]

/-- The problem of a comment points at the comment. -/
theorem pointsTo_comment (hon : instruction.IsOn text raw) {span : Span}
    (hcomment : instruction.comment = some span) :
    (report span .inlineComment).PointsTo vocabulary text raw instruction := by
  obtain ⟨column, hcolumn, rfl, hlt⟩ := Instruction.comment_of_ofLine? hon.ofLine?_eq hcomment
  rw [report, Span.widen_eq_self hlt]
  refine ⟨rfl, hon, ?_, hlt, Nat.le_refl _, commentColumn?_eq_some_iff.1 hcolumn, rfl⟩
  simp [Instruction.spans, hcomment]

/-- The characters at the command of an instruction are the command. -/
theorem textOn_commandSpan (hon : instruction.IsOn text raw) :
    instruction.commandSpan.textOn raw = instruction.command.text :=
  hon.fits.1.textOn_span instruction.line

/-- In lower case, they are its name. -/
theorem lowercase_textOn_commandSpan (hon : instruction.IsOn text raw) :
    Text.lowercase (instruction.commandSpan.textOn raw) = instruction.name := by
  rw [textOn_commandSpan hon, Instruction.name]

/-- The problems that an instruction has by itself point at it. -/
theorem pointsTo_of_mem_remarks (hon : instruction.IsOn text raw)
    (h : diagnostic ∈ instruction.remarks vocabulary) :
    diagnostic.PointsTo vocabulary text raw instruction := by
  rcases Blocks.mem_remarks_cases h with
    ⟨span, hspan, rfl⟩ | ⟨-, rfl⟩ | ⟨-, -, -, rfl⟩ | ⟨-, rfl⟩
  · exact pointsTo_comment hon hspan
  · exact pointsTo_command hon (textOn_commandSpan hon)
  · exact pointsTo_command hon (lowercase_textOn_commandSpan hon)
  · exact pointsTo_command hon (textOn_commandSpan hon)

/-- The problems of an instruction among the open blocks point at its command, if the blocks were
opened by earlier lines. -/
theorem pointsTo_of_mem_step (hon : instruction.IsOn text raw) {blocks : List OpenBlock}
    (hblocks : ∀ block ∈ blocks, block.span.line < instruction.line ∧
      ∃ opening, Instruction.at? text block.span.line = some opening ∧
        opening.name = block.opener)
    (h : diagnostic ∈ (Blocks.step vocabulary blocks instruction).2) :
    diagnostic.PointsTo vocabulary text raw instruction := by
  have hname := lowercase_textOn_commandSpan hon
  cases hrole : vocabulary.role instruction.name with
  | unknown | opener | plain => simp [Blocks.step, hrole] at h
  | continuation | leaveLoop | leaveSubroutine =>
    simp only [Blocks.step, hrole] at h
    split at h
    · cases h
    · cases List.mem_singleton.1 h
      exact pointsTo_command hon hname
  | closer =>
    simp only [Blocks.step, hrole] at h
    split at h
    · cases List.mem_singleton.1 h
      exact pointsTo_command hon hname
    · next block outer =>
      split at h
      · cases h
      · cases List.mem_singleton.1 h
        exact pointsTo_command hon ⟨hname, hblocks block List.mem_cons_self⟩

/-- The problem of an include points at its argument, or at the command if it has none. -/
theorem pointsTo_of_missingInclude? (hon : instruction.IsOn text raw)
    (h : instruction.missingInclude? fs vocabulary path = some diagnostic) :
    diagnostic.PointsTo vocabulary text raw instruction := by
  rw [Instruction.missingInclude?] at h
  split at h
  · next hinclude =>
    split at h
    · cases h
    · cases h
      cases hargument : instruction.argument with
      | some argument =>
        refine pointsTo_argument hon hargument ?_
        simp only [Problem.ReadAt, hargument, Instruction.includeText]
        rw [(hon.fits.2 argument hargument).textOn_span]
      | none =>
        refine pointsTo_command hon ?_
        simp only [Problem.ReadAt, hargument, Instruction.includeText]
        exact ⟨by rwa [lowercase_textOn_commandSpan hon], rfl⟩
  · cases h

/-- The problem of a call points at its argument. -/
theorem pointsTo_of_unknownCall? (hon : instruction.IsOn text raw) {visible : List Text}
    (h : instruction.unknownCall? vocabulary visible = some diagnostic) :
    diagnostic.PointsTo vocabulary text raw instruction := by
  rw [Instruction.unknownCall?] at h
  split at h
  · split at h
    · next argument hargument =>
      dsimp only at h
      split at h
      · cases h
      · cases h
        refine pointsTo_argument hon hargument ?_
        show Text.lowercase _ = _
        rw [(hon.fits.2 argument hargument).textOn_span]
    · cases h
  · cases h

end Diagnostic

/-! ## The problems of a script -/

namespace Blocks

variable {vocabulary : Vocabulary} {text : Text}

/-- A block that is open before a line was opened by the command of an earlier line. -/
theorem exists_opening_of_mem_openBefore {n : Nat} {block : OpenBlock}
    (h : block ∈ openBefore vocabulary text n) :
    block.span.line < n ∧
      ∃ opening, Instruction.at? text block.span.line = some opening ∧
        opening.name = block.opener ∧ block.span = opening.commandSpan := by
  have htracks := tracks_openBefore vocabulary text n
  obtain ⟨hlt, -⟩ := (htracks.stillOpen_iff block.span.line).1 ⟨block, h, rfl⟩
  obtain ⟨opening, hat, hevent, -, hspan⟩ := htracks.openedBy block h
  exact ⟨hlt, opening, hat, (role_of_event?_opening hevent).1.symm, hspan⟩

/-- The problems of a line point at its instruction. -/
theorem pointsTo_of_mem_problemsAt {n : Nat} {diagnostic : Diagnostic}
    (h : diagnostic ∈ problemsAt vocabulary text n) :
    ∃ raw instruction, diagnostic.PointsTo vocabulary text raw instruction := by
  rw [problemsAt] at h
  split at h
  · cases h
  · next instruction hat =>
    obtain ⟨rfl, raw, hon⟩ := Instruction.exists_isOn_of_at? hat
    refine ⟨raw, instruction, ?_⟩
    rcases List.mem_append.1 h with hremark | hstep
    · exact Diagnostic.pointsTo_of_mem_remarks hon hremark
    · refine Diagnostic.pointsTo_of_mem_step hon (fun block hblock => ?_) hstep
      obtain ⟨hlt, opening, hopening, hname, -⟩ := exists_opening_of_mem_openBefore hblock
      exact ⟨hlt, opening, hopening, hname⟩

/-- The problem of a block that is never closed points at the command that opened it. -/
theorem pointsTo_unclosed {n : Nat} {block : OpenBlock}
    (h : block ∈ openBefore vocabulary text n) :
    ∃ raw instruction, (unclosed block).PointsTo vocabulary text raw instruction := by
  obtain ⟨-, opening, hat, hname, hspan⟩ := exists_opening_of_mem_openBefore h
  obtain ⟨-, raw, hon⟩ := Instruction.exists_isOn_of_at? hat
  refine ⟨raw, opening, ?_⟩
  rw [unclosed, hspan]
  exact Diagnostic.pointsTo_command hon ((Diagnostic.lowercase_textOn_commandSpan hon).trans hname)

end Blocks

/-- Every diagnostic of a script points at a part of an instruction of the script, within its line,
and speaks of the characters that stand there. -/
theorem pointsTo_of_mem_validate (fs : FileSystem) (vocabulary : Vocabulary) (path : Path)
    (text : Text) {diagnostic : Diagnostic} (h : diagnostic ∈ validate fs vocabulary path text) :
    ∃ raw instruction, diagnostic.PointsTo vocabulary text raw instruction := by
  rw [validate_eq_run, List.mem_append, List.mem_append] at h
  rcases h with (hline | hblock) | hsymbol
  · obtain ⟨n, -, hproblem⟩ := List.mem_flatMap.1 hline
    exact Blocks.pointsTo_of_mem_problemsAt hproblem
  · obtain ⟨block, hmem, rfl⟩ := List.mem_map.1 hblock
    exact Blocks.pointsTo_unclosed (List.mem_reverse.1 hmem)
  · rcases List.mem_append.1 hsymbol with hinclude | hcall
    · obtain ⟨instruction, hmem, hproblem⟩ := List.mem_filterMap.1 hinclude
      obtain ⟨raw, hon⟩ := Instruction.exists_isOn_of_mem_ofText (List.mem_of_mem_filter hmem)
      exact ⟨raw, instruction, Diagnostic.pointsTo_of_missingInclude? hon hproblem⟩
    · obtain ⟨instruction, hmem, hproblem⟩ := List.mem_filterMap.1 hcall
      obtain ⟨raw, hon⟩ := Instruction.exists_isOn_of_mem_ofText (List.mem_of_mem_filter hmem)
      exact ⟨raw, instruction, Diagnostic.pointsTo_of_unknownCall? hon hproblem⟩

/-- A closer that does not fit points at itself and names the line of the loop, and an include that
is not found points at its argument, quotes included, before the comment of its line. -/
theorem pointsTo_of_mem_validate_sample :
    let text := "While 1\n  endif\ninclude 'a#b' #c".toList
    let path : Path := ⟨"main.osc".toList⟩
    let stray : Diagnostic :=
      ⟨⟨1, 2, 7⟩, .mismatchedCloser "endif".toList "done".toList "while".toList 0⟩
    let missing : Diagnostic := ⟨⟨2, 8, 13⟩, .includeNotFound "a#b".toList⟩
    stray ∈ validate ⟨true, [], []⟩ .standard path text ∧
      missing ∈ validate ⟨true, [], []⟩ .standard path text ∧
      (∃ raw instruction, stray.PointsTo .standard text raw instruction) ∧
      ∃ raw instruction, missing.PointsTo .standard text raw instruction := by
  intro text path stray missing
  have hstray : stray ∈ validate ⟨true, [], []⟩ .standard path text := by decide +kernel
  have hmissing : missing ∈ validate ⟨true, [], []⟩ .standard path text := by decide +kernel
  exact ⟨hstray, hmissing, pointsTo_of_mem_validate _ _ _ _ hstray,
    pointsTo_of_mem_validate _ _ _ _ hmissing⟩

end ScriptAnalysis
