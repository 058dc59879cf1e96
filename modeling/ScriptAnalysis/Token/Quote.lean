import ScriptAnalysis.Text.Basic

/-!
# Quoted characters

A quoted string starts at a double or single quote and ends at the next quote of the same kind that
does not stand right after a backslash. A string that is never closed runs to the end of the line.
`QuoteState` is what a scan from left to right has to remember.
-/

namespace ScriptAnalysis

/-- Whether a character opens a quoted string. -/
def isQuote (c : Char) : Bool :=
  c == '"' || c == '\''

/-- Where a scan of a line stands with respect to quoted strings. -/
structure QuoteState where
  /-- The quote that opened the current string, if the scan is inside one. -/
  opened : Option Char
  /-- Whether the character before is a backslash. -/
  escaped : Bool
  deriving DecidableEq, Repr

namespace QuoteState

/-- The state at the start of a line. -/
def initial : QuoteState :=
  ⟨none, false⟩

/-- Whether the next character, `c`, is part of a quoted string. The delimiters are. -/
def quotes (state : QuoteState) (c : Char) : Bool :=
  state.opened.isSome || isQuote c

/-- The state after the character `c`. -/
def next (state : QuoteState) (c : Char) : QuoteState where
  opened :=
    match state.opened with
    | some quote => if c = quote ∧ state.escaped = false then none else some quote
    | none => if isQuote c then some c else none
  escaped := c == '\\'

/-- The state after the characters of `text`. -/
def after (state : QuoteState) (text : Text) : QuoteState :=
  text.foldl next state

end QuoteState

/-- A value without the pair of equal quotes around it, if it has one. -/
def stripQuotes (value : Text) : Text :=
  match value with
  | first :: second :: rest =>
    if isQuote first && (second :: rest).getLast (by simp) == first then
      (second :: rest).dropLast
    else value
  | _ => value

end ScriptAnalysis
