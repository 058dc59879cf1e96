import ScriptAnalysis.Token.Basic

/-!
# Diagnostics

A diagnostic is a problem at a place of a script. The problem decides how serious it is and how it
is worded.

* `Problem.message`: the wording of a problem.
* `Diagnostic.render`: a diagnostic on one line, with line and column counted from one.
-/

namespace ScriptAnalysis

/-- How serious a problem is. -/
inductive Severity where
  /-- The script is wrong. -/
  | error
  /-- The script works, but should be changed. -/
  | warning
  deriving DecidableEq, Repr

/-- The word for a severity. -/
def Severity.word : Severity → String
  | error => "error"
  | warning => "warning"

/-- What is wrong with a script. -/
inductive Problem where
  /-- A comment follows code on its line. -/
  | inlineComment
  /-- A command has both upper-case and lower-case letters. -/
  | mixedCaseCommand (command : Text)
  /-- A command does not exist. -/
  | unknownCommand (command : Text)
  /-- A call names no subroutine. -/
  | missingCallTarget (command : Text)
  /-- A conditional is divided outside a conditional block. -/
  | misplacedContinuation (keyword opener closer : Text)
  /-- A closer has no block to close. -/
  | unexpectedCloser (closer : Text)
  /-- A closer does not fit the innermost block, which was opened on line `openedOn`. -/
  | mismatchedCloser (closer expected opener : Text) (openedOn : Nat)
  /-- A block is not closed. -/
  | missingCloser (opener expected : Text)
  /-- A loop is left outside a loop. -/
  | misplacedBreak (keyword opener closer : Text)
  /-- A subroutine is left outside a subroutine. -/
  | misplacedReturn (keyword opener closer : Text)
  /-- An included script does not exist. -/
  | includeNotFound (target : Text)
  /-- A called subroutine is not defined. -/
  | unknownSubroutine (name : Text)
  deriving DecidableEq, Repr

namespace Problem

/-- Only matters of style are warnings. -/
def severity : Problem → Severity
  | inlineComment => .warning
  | mixedCaseCommand _ => .warning
  | _ => .error

/-- The wording of a problem that concerns a block. -/
def placement (keyword : Text) (phrase : String) (opener closer : Text) : String :=
  String.ofList keyword ++ phrase ++ String.ofList opener ++ "/" ++ String.ofList closer ++
    " block."

/-- The wording of a problem. -/
def message : Problem → String
  | inlineComment => "Inline comments are not allowed. Comments must start the line with #."
  | mixedCaseCommand _ => "Command must be either all uppercase or all lowercase."
  | unknownCommand command => "Unknown command: " ++ String.ofList command
  | missingCallTarget command => String.ofList command ++ " requires a subroutine name."
  | misplacedContinuation keyword opener closer =>
    placement keyword " must appear inside an " opener closer
  | unexpectedCloser closer =>
    "Unexpected " ++ String.ofList closer ++ " without a matching opener."
  | mismatchedCloser closer expected opener openedOn =>
    "Unexpected " ++ String.ofList closer ++ "; expected " ++ String.ofList expected ++ " for " ++
      String.ofList opener ++ " opened on line " ++ Nat.repr (nextPosition openedOn) ++ "."
  | missingCloser opener expected =>
    "Missing " ++ String.ofList expected ++ " for " ++ String.ofList opener ++
      " block opened here."
  | misplacedBreak keyword opener closer =>
    placement keyword " must be used inside a " opener closer
  | misplacedReturn keyword opener closer =>
    placement keyword " must be used inside a " opener closer
  | includeNotFound [] => "Included script not found: (missing path)"
  | includeNotFound target => "Included script not found: " ++ String.ofList target
  | unknownSubroutine name => "Unknown subroutine: " ++ String.ofList name

end Problem

/-- A problem at a place. -/
structure Diagnostic where
  /-- The place. -/
  span : Span
  /-- The problem. -/
  problem : Problem
  deriving DecidableEq, Repr

namespace Diagnostic

/-- The diagnostic of a problem at a span, which is widened to at least one column. -/
def report (span : Span) (problem : Problem) : Diagnostic :=
  ⟨span.widen, problem⟩

/-- How serious a diagnostic is. -/
def severity (diagnostic : Diagnostic) : Severity :=
  diagnostic.problem.severity

/-- Whether a diagnostic is an error. -/
def isError (diagnostic : Diagnostic) : Bool :=
  diagnostic.severity = .error

/-- A diagnostic on one line. -/
def render (diagnostic : Diagnostic) : String :=
  Nat.repr (nextPosition diagnostic.span.line) ++ ":" ++
    Nat.repr (nextPosition diagnostic.span.start) ++ ": " ++ diagnostic.severity.word ++ ": " ++
    diagnostic.problem.message

end Diagnostic

end ScriptAnalysis
