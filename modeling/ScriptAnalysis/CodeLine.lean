import ScriptAnalysis.Text.Lines
import ScriptAnalysis.Text.Lowercase
import ScriptAnalysis.Token.Lexer

/-!
# Lines of code

A line of code is a numbered line with at least one code token. Its first token is the command,
which is compared in lower case; the other tokens are the arguments.
-/

namespace ScriptAnalysis

/-- The code tokens of a numbered line. -/
structure CodeLine where
  /-- The line, counted from zero. -/
  line : Nat
  /-- The first code token. -/
  command : Token
  /-- The code tokens after the command. -/
  arguments : List Token
  deriving DecidableEq, Repr

namespace CodeLine

/-- The line with the given code tokens, if there are any. -/
def ofTokens? (line : Nat) : List Token → Option CodeLine
  | [] => none
  | command :: arguments => some ⟨line, command, arguments⟩

/-- All code tokens of the line. -/
def tokens (code : CodeLine) : List Token :=
  code.command :: code.arguments

/-- The command in lower case. -/
def commandName (code : CodeLine) : Text :=
  Text.lowercase code.command.text

/-- The first argument. -/
def argument? (code : CodeLine) : Option Token :=
  code.arguments.head?

/-- The code of line number `line`, whose characters are `raw`. -/
def ofLine? (line : Nat) (raw : Text) : Option CodeLine :=
  ofTokens? line (codeTokens raw)

/-- A line made from tokens has just these tokens. -/
theorem ofTokens?_eq_some_iff {line : Nat} {tokens : List Token} {code : CodeLine} :
    ofTokens? line tokens = some code ↔ code.line = line ∧ code.tokens = tokens := by
  cases tokens with
  | nil => simp [ofTokens?, CodeLine.tokens]
  | cons command arguments =>
    obtain ⟨number, first, others⟩ := code
    simp only [ofTokens?, CodeLine.tokens, Option.some.injEq, mk.injEq, List.cons.injEq]
    constructor <;> rintro ⟨rfl, rfl, rfl⟩ <;> simp

end CodeLine

/-- The lines of code of a text. -/
def codeLines (text : Text) : List CodeLine :=
  (Text.lines text).zipIdx.filterMap fun (raw, line) => CodeLine.ofLine? line raw

end ScriptAnalysis
