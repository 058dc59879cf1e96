import ScriptAnalysis.CodeLine
import ScriptAnalysis.Vocabulary.Basic

/-!
# The outline of a script

The outline lists the subroutines of a script in the order of their lines, each with the line of
its closer. A closer belongs to the last subroutine that is still open, and a subroutine that is
never closed ends on its own line. Other blocks are not looked at.

* `Outline.step`: what one line of code does to the subroutines found so far.
* `outline`: the subroutines of a text.
-/

namespace ScriptAnalysis

/-- A subroutine of a script. -/
structure OutlineEntry where
  /-- The name as it is written. -/
  name : Text
  /-- The place of the name, on the first line of the subroutine. -/
  selection : Span
  /-- The last line of the subroutine. -/
  endLine : Nat
  deriving DecidableEq, Repr

/-- The first line of a subroutine. -/
def OutlineEntry.startLine (entry : OutlineEntry) : Nat :=
  entry.selection.line

/-- The subroutines found so far. -/
structure Outline where
  /-- Those that have been closed, in the order of their closers. -/
  closed : List OutlineEntry
  /-- Those that are still open, the last one first. -/
  opened : List OutlineEntry
  deriving DecidableEq, Repr

namespace Outline

/-- Nothing is found yet. -/
def empty : Outline :=
  ⟨[], []⟩

/-- The outline after one more line of code. -/
def step (vocabulary : Vocabulary) (found : Outline) (code : CodeLine) : Outline :=
  if code.commandName = vocabulary.subroutineKeyword then
    match code.argument? with
    | some name =>
      { found with opened := ⟨name.text, name.span code.line, code.line⟩ :: found.opened }
    | none => found
  else if some code.commandName = vocabulary.closerFor? vocabulary.subroutineKeyword then
    match found.opened with
    | [] => found
    | entry :: others => ⟨found.closed ++ [{ entry with endLine := code.line }], others⟩
  else found

/-- All subroutines: the closed ones, and behind them the open ones in the order of their lines. -/
def entries (found : Outline) : List OutlineEntry :=
  found.closed ++ found.opened.reverse

end Outline

/-- The subroutines of a text, sorted by their first lines. -/
def outline (vocabulary : Vocabulary) (text : Text) : List OutlineEntry :=
  ((codeLines text).foldl (Outline.step vocabulary) .empty).entries.mergeSort fun left right =>
    left.startLine ≤ right.startLine

end ScriptAnalysis
