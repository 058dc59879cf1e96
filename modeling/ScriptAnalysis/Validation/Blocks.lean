import ScriptAnalysis.Validation.Instruction

/-!
# The blocks of a script

A scan over the instructions keeps the blocks that are open, the innermost first. A closer that
does not fit the innermost block is reported and closes nothing. Dividing a conditional needs the
innermost block to be one; leaving a loop or a subroutine needs such a block at any depth.

* `Blocks.step`: what one instruction does to the open blocks, and the problem it makes there.
* `Blocks.scan`: the problems of the lines of a script, and the blocks left open.
-/

namespace ScriptAnalysis

/-- A block that has been opened. -/
structure OpenBlock where
  /-- The command that opened the block. -/
  opener : Text
  /-- The command that closes it. -/
  closer : Text
  /-- The place of the opening command. -/
  span : Span
  deriving DecidableEq, Repr

namespace Blocks

/-- What an instruction does to the open blocks, and the problems of its place among them. -/
def step (vocabulary : Vocabulary) (blocks : List OpenBlock) (instruction : Instruction) :
    List OpenBlock × List Diagnostic :=
  let name := instruction.name
  let closerName (opener : Text) := (vocabulary.closerFor? opener).getD []
  let complain (problem : Problem) := [Diagnostic.report instruction.commandSpan problem]
  match vocabulary.role name with
  | .unknown => (blocks, [])
  | .opener closer => (⟨name, closer, instruction.commandSpan⟩ :: blocks, [])
  | .continuation =>
    let opener := vocabulary.conditionalKeyword
    if blocks.head?.any (·.opener = opener) then (blocks, [])
    else (blocks, complain (.misplacedContinuation name opener (closerName opener)))
  | .closer =>
    match blocks with
    | [] => ([], complain (.unexpectedCloser name))
    | block :: outer =>
      if block.closer = name then (outer, [])
      -- The block stays open for the closer that fits it.
      else
        (block :: outer,
          complain (.mismatchedCloser name block.closer block.opener block.span.line))
  | .leaveLoop =>
    let opener := vocabulary.loopKeyword
    if blocks.any (·.opener = opener) then (blocks, [])
    else (blocks, complain (.misplacedBreak name opener (closerName opener)))
  | .leaveSubroutine =>
    let opener := vocabulary.subroutineKeyword
    if blocks.any (·.opener = opener) then (blocks, [])
    else (blocks, complain (.misplacedReturn name opener (closerName opener)))
  | .plain => (blocks, [])

/-- The problems that instructions have line by line when `blocks` are open before them, and the
blocks open after them. -/
def scan (vocabulary : Vocabulary) :
    List OpenBlock → List Instruction → List Diagnostic × List OpenBlock
  | blocks, [] => ([], blocks)
  | blocks, instruction :: rest =>
    let (next, found) := step vocabulary blocks instruction
    let (later, last) := scan vocabulary next rest
    (instruction.remarks vocabulary ++ found ++ later, last)

/-- The problem of a block that is never closed. -/
def unclosed (block : OpenBlock) : Diagnostic :=
  .report block.span (.missingCloser block.opener block.closer)

/-- The scan of two parts of a script is the scan of the second from where the first ends. -/
theorem scan_append (vocabulary : Vocabulary) (blocks : List OpenBlock)
    (first second : List Instruction) :
    scan vocabulary blocks (first ++ second) =
      ((scan vocabulary blocks first).1 ++
          (scan vocabulary (scan vocabulary blocks first).2 second).1,
        (scan vocabulary (scan vocabulary blocks first).2 second).2) := by
  induction first generalizing blocks with
  | nil => simp [scan]
  | cons instruction rest ih => simp [scan, ih, List.append_assoc]

end Blocks

end ScriptAnalysis
