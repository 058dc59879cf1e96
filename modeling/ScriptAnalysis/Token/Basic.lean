import ScriptAnalysis.Text.Basic

/-!
# Tokens and their places

A token is a word of a line with the columns it occupies. Columns count code points from zero, and
the end column is not part of the token. A span is a range of columns on a numbered line, lines
being numbered from zero too.
-/

namespace ScriptAnalysis

/-- The number after `n`. Line and column numbers are words of 64 bits, so that the greatest one is
followed by zero. -/
def nextPosition (n : Nat) : Nat :=
  (n + 1) % UInt64.size

/-- A range of columns on one line. -/
structure Span where
  /-- The line, counted from zero. -/
  line : Nat
  /-- The first column. -/
  start : Nat
  /-- The column after the last one. -/
  stop : Nat
  deriving DecidableEq, Repr

namespace Span

/-- The span, widened to one column if it is empty. -/
def widen (span : Span) : Span :=
  if span.start < span.stop then span else { span with stop := nextPosition span.start }

/-- Widening leaves a span that holds a column alone. -/
theorem widen_eq_self {span : Span} (h : span.start < span.stop) : span.widen = span := by
  simp [widen, h]

end Span

/-- A word of a line. -/
structure Token where
  /-- The characters of the word, quotes included. -/
  text : Text
  /-- The column of the first character. -/
  start : Nat
  /-- The column after the last character. -/
  stop : Nat
  deriving DecidableEq, Repr

namespace Token

/-- Whether `column` is one of the token's columns. -/
def covers (token : Token) (column : Nat) : Bool :=
  token.start ≤ column && column < token.stop

/-- The token's columns on line `line`. -/
def span (token : Token) (line : Nat) : Span :=
  ⟨line, token.start, token.stop⟩

/-- A token covers the columns from its first one up to its end. -/
theorem covers_iff {token : Token} {column : Nat} :
    token.covers column = true ↔ token.start ≤ column ∧ column < token.stop := by
  simp [covers]

end Token

end ScriptAnalysis
