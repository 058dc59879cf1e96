import ScriptAnalysis.Text.Blank
import ScriptAnalysis.Token.Basic
import ScriptAnalysis.Token.Quote

/-!
# The tokens of a line

The characters of a line that are quoted or not blank are kept; the tokens of the line are the
maximal runs of kept characters. A comment starts at the first `#` outside quoted strings, which
the division into tokens does not look at.

* `Token.scan`: the tokens of a line, built from right to left by `Token.extend`.
* `commentColumn?`, `visibleColumn?`: where the comment and the first visible character are.
* `codeTokens`: the tokens that start before the comment.
-/

namespace ScriptAnalysis

namespace Token

/-- Put the character `c` of column `column` in front of the tokens of the columns after it: it
lengthens the token that starts in the next column, or else is a token of its own. -/
def extend (c : Char) (column : Nat) : List Token → List Token
  | [] => [⟨[c], column, column + 1⟩]
  | token :: tokens =>
    if token.start = column + 1 then ⟨c :: token.text, column, token.stop⟩ :: tokens
    else ⟨[c], column, column + 1⟩ :: token :: tokens

/-- The tokens of a text that starts in column `column` with the quotes in state `state`. -/
def scanFrom (state : QuoteState) (column : Nat) : Text → List Token
  | [] => []
  | c :: rest =>
    let tokens := scanFrom (state.next c) (column + 1) rest
    if state.quotes c || !Text.isBlank c then extend c column tokens else tokens

/-- The tokens of a line. -/
def scan (line : Text) : List Token :=
  scanFrom .initial 0 line

end Token

/-- The column of the first `#` outside quoted strings, in a text that starts in column `column`
with the quotes in state `state`. -/
def commentColumnFrom? (state : QuoteState) (column : Nat) : Text → Option Nat
  | [] => none
  | c :: rest =>
    if !state.quotes c && c == '#' then some column
    else commentColumnFrom? (state.next c) (column + 1) rest

/-- The column where the comment of a line starts. -/
def commentColumn? (line : Text) : Option Nat :=
  commentColumnFrom? .initial 0 line

/-- The column of the first character that is not blank. -/
def visibleColumn? (line : Text) : Option Nat :=
  line.findIdx? (!Text.isBlank ·)

/-- The tokens of a line that are code: none if the line is blank or starts with its comment, and
otherwise those that start before the comment. A comment glued to a token stays in the token. -/
def codeTokens (line : Text) : List Token :=
  if commentColumn? line = visibleColumn? line then []
  else
    match commentColumn? line with
    | some column => (Token.scan line).filter (·.start < column)
    | none => Token.scan line

end ScriptAnalysis
