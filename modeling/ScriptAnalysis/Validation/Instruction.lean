import ScriptAnalysis.CodeLine
import ScriptAnalysis.Diagnostic
import ScriptAnalysis.Vocabulary.Basic

/-!
# Instructions

The validator reads a line as an instruction: a command, its first argument, and the place of a
comment that follows them. Only the text before the comment is code here, so that a comment glued
to a word is cut from it. A blank line and a line that starts with its comment hold no instruction.

* `Instruction.ofLine?`: the instruction of a line.
* `Instruction.remarks`: the problems that a line has by itself.
-/

namespace ScriptAnalysis

/-- The part of a line before its comment. -/
def codeText (raw : Text) : Text :=
  match commentColumn? raw with
  | some column => raw.take column
  | none => raw

/-- What the validator reads on a line. -/
structure Instruction where
  /-- The line, counted from zero. -/
  line : Nat
  /-- The place of the comment. -/
  comment : Option Span
  /-- The first token. -/
  command : Token
  /-- The second token. -/
  argument : Option Token
  deriving DecidableEq, Repr

namespace Instruction

/-- The instruction on line number `line`, whose characters are `raw`. -/
def ofLine? (line : Nat) (raw : Text) : Option Instruction :=
  -- The two columns agree on a blank line, which has neither, and where the comment comes first.
  if commentColumn? raw = visibleColumn? raw then none
  else
    match Token.scan (codeText raw) with
    | [] => none
    | command :: arguments =>
      some
        { line, command
          argument := arguments.head?
          comment := (commentColumn? raw).map fun column => ⟨line, column, raw.length⟩ }

/-- The instructions of a text. -/
def ofText (text : Text) : List Instruction :=
  (Text.lines text).zipIdx.filterMap fun (raw, line) => ofLine? line raw

/-- The command in lower case. -/
def name (instruction : Instruction) : Text :=
  Text.lowercase instruction.command.text

/-- The place of the command. -/
def commandSpan (instruction : Instruction) : Span :=
  instruction.command.span instruction.line

/-- Whether a command has both upper-case and lower-case letters of ASCII. -/
def isMixedCase (command : Text) : Bool :=
  command.any Char.isLower && command.any Char.isUpper

/-- The problems that an instruction has whatever stands around it, in this order: its comment, the
case of its command, and either an unknown command or a missing call target. -/
def remarks (vocabulary : Vocabulary) (instruction : Instruction) : List Diagnostic :=
  (instruction.comment.map (Diagnostic.report · .inlineComment)).toList ++
    (if isMixedCase instruction.command.text then
      [.report instruction.commandSpan (.mixedCaseCommand instruction.command.text)]
    else []) ++
    if vocabulary.isKnown instruction.name then
      if instruction.name = vocabulary.callKeyword ∧ instruction.argument = none then
        [.report instruction.commandSpan (.missingCallTarget instruction.name)]
      else []
    else [.report instruction.commandSpan (.unknownCommand instruction.command.text)]

end Instruction

end ScriptAnalysis
